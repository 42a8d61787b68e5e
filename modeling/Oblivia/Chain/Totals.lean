import Oblivia.Chain.Receipts
/-!
# The public counters

The registry counts the contracts and the receipts, and a contract counts its own receipts. In a
reachable store every counter is the number of accounts it stands for (`counters_exact`), and only
registering a contract and verifying a signature move one.
-/

namespace Oblivia

open Finmap

variable {D : Pda} {groth16 : Groth16Verifier} {s s' : Store}

def isContract : Account → Bool
  | .contract _ => true
  | _ => false

def isReceipt : Account → Bool
  | .signature _ => true
  | _ => false

theorem stable_isContract : Stable isContract := by
  intro x y h
  cases x <;> cases y <;> simp only [Account.Grows, reduceCtorEq] at h <;> rfl

theorem stable_isReceipt : Stable isReceipt := by
  intro x y h
  cases x <;> cases y <;> simp only [Account.Grows, reduceCtorEq] at h <;> rfl

@[simp]
theorem isContract_eq_true {x : Account} : isContract x = true ↔ ∃ c, x = .contract c := by
  cases x <;> simp [isContract]

@[simp]
theorem isReceipt_eq_true {x : Account} : isReceipt x = true ↔ ∃ sg, x = .signature sg := by
  cases x <;> simp [isReceipt]

/-- The counter of the contract at an address, zero where there is none. -/
def signatureCountAt (s : Store) (a : Pubkey) : ℕ :=
  ((s.lookup a).bind Account.asContract).elim 0 fun c => c.signatureCount.toNat

/-- The sum of the counters of all contracts. -/
def signatureCounts (s : Store) : ℕ := ∑ a ∈ s.keysWhere isContract, signatureCountAt s a

/-- Every receipt is on one contract, so the contracts' counters add up to the receipts. -/
theorem Sound.signatureCounts (hs : Sound D s) : signatureCounts s = s.countWhere isReceipt := by
  have hsum : s.countWhere isReceipt
      = ∑ a ∈ s.keysWhere isContract, s.countWhere (receiptOf a) := by
    refine countWhere_eq_sum (fun b x hx => ?_) fun i j x hi hj => ?_
    · rw [isReceipt_eq_true]
      constructor
      · rintro ⟨sg, rfl⟩
        cases hs.placed b _ hx with
        | signature _ hc _ _ _ =>
          exact ⟨sg.contract, mem_keysWhere.2 ⟨_, hc, rfl⟩, by simp⟩
      · rintro ⟨a, -, ha⟩
        obtain ⟨sg, rfl, -⟩ := receiptOf_eq_true.1 ha
        exact ⟨sg, rfl⟩
    · obtain ⟨sg, rfl, rfl⟩ := receiptOf_eq_true.1 hi
      simpa using hj
  rw [hsum]
  refine Finset.sum_congr rfl fun a ha => ?_
  obtain ⟨x, hx, hc⟩ := mem_keysWhere.1 ha
  obtain ⟨c, rfl⟩ := isContract_eq_true.1 hc
  rw [signatureCountAt, hx, ← hs.counted a c hx]
  rfl

/-- There is one registry. -/
theorem Sound.registry_unique (hs : Sound D s) {a a' : Pubkey} {r r' : ContractRegistry}
    (ha : s.lookup a = some (.registry r)) (ha' : s.lookup a' = some (.registry r')) : a = a' := by
  cases hs.placed a _ ha with
  | registry h =>
    cases hs.placed a' _ ha' with
    | registry h' =>
      rw [h, Option.some.injEq, Prod.mk.injEq] at h'
      exact h'.1

/-- The registry's counters are what they stand for, and there is no account without a registry. -/
structure Totalled (s : Store) : Prop where
  contracts : ∀ a r, s.lookup a = some (.registry r) →
    r.totalContracts.toNat = s.countWhere isContract
  signatures : ∀ a r, s.lookup a = some (.registry r) →
    r.totalSignatures.toNat = s.countWhere isReceipt
  founded : ∀ a x, s.lookup a = some x → ∃ b r, s.lookup b = some (.registry r)

/-- The registry is initialized in the empty store. -/
theorem InitializeGuard.countWhere_eq_zero {rt : Runtime} {acc : Initialize} {b : UInt8}
    (g : InitializeGuard D rt s acc b) (hs : Sound D s) (ht : Totalled s) (p : Account → Bool) :
    s.countWhere p = 0 := by
  rw [Finmap.countWhere_eq_zero]
  intro a x hx
  obtain ⟨a', r, hr⟩ := ht.founded a x hx
  cases hs.placed a' _ hr with
  | registry h => exact absurd ⟨_, _, h, hr⟩ g.registry.not_storedAt

/-- A step that leaves the registry and the numbers of accounts as they are. -/
theorem Totalled.of_same (ht : Totalled s) (he : Extends s s')
    (hr : ∀ a r, s'.lookup a = some (.registry r) → s.lookup a = some (.registry r))
    (hc : s'.countWhere isContract = s.countWhere isContract)
    (hg : s'.countWhere isReceipt = s.countWhere isReceipt)
    (hf : ∀ a x, s'.lookup a = some x → ∃ b y, s.lookup b = some y) : Totalled s' where
  contracts a r ha := (ht.contracts a r (hr a r ha)).trans hc.symm
  signatures a r ha := (ht.signatures a r (hr a r ha)).trans hg.symm
  founded a x hx := by
    obtain ⟨b, y, hy⟩ := hf a x hx
    obtain ⟨b', r, hb⟩ := ht.founded b y hy
    obtain ⟨z, hz, hgrows⟩ := he b' _ hb
    cases z <;> simp only [Account.Grows, reduceCtorEq] at hgrows
    exact ⟨b', _, hz⟩

/-- The one registry after a step, with its counters. -/
theorem Totalled.of_registry {a : Pubkey} {r : ContractRegistry}
    (ha : s.lookup a = some (.registry r))
    (honly : ∀ b r', s.lookup b = some (.registry r') → b = a)
    (hc : r.totalContracts.toNat = s.countWhere isContract)
    (hg : r.totalSignatures.toNat = s.countWhere isReceipt) : Totalled s := by
  have heq b r' (hb : s.lookup b = some (.registry r')) : r = r' := by
    rw [honly b r' hb, ha] at hb
    simpa using hb
  exact ⟨fun b r' hb => heq b r' hb ▸ hc, fun b r' hb => heq b r' hb ▸ hg, fun _ _ _ => ⟨a, r, ha⟩⟩

theorem Effect.totalled {call : Call} (h : Effect D groth16 s call s') (hs : Sound D s)
    (ht : Totalled s) : Totalled s' := by
  have he := h.extends
  have hw a r (ha : s'.lookup a = some (.registry r)) := h.written ha
  cases h with
  | initializeRegistry g =>
    have hzero := g.countWhere_eq_zero hs ht
    refine .of_registry (lookup_insert _) (fun a r ha => ?_) ?_ ?_
    · rcases hw a r ha with hold | hw
      · have hnone := Finmap.countWhere_eq_zero.1 (hzero fun _ => true) a _ hold
        cases hnone
      · cases hw
        rfl
    · rw [countWhere_initializeStore g, hzero]
      simp [newRegistry, isContract]
    · rw [countWhere_initializeStore g, hzero]
      simp [newRegistry, isReceipt]
  | registerContract g =>
    refine .of_registry (lookup_insert _) (fun a r ha => ?_) ?_ ?_
    · rcases hw a r ha with hold | hw
      · exact hs.registry_unique hold g.registry
      · cases hw
        rfl
    · rw [countWhere_registerStore g stable_isContract, ← ht.contracts _ _ g.registry]
      simp [ContractRegistry.registered, toNat_add_one_u64 g.count, isContract]
    · rw [countWhere_registerStore g stable_isReceipt, ← ht.signatures _ _ g.registry]
      simp [ContractRegistry.registered, isReceipt]
  | verifyGroth16V2 g =>
    refine .of_registry lookup_verifyStore_registry (fun a r ha => ?_) ?_ ?_
    · rcases hw a r ha with hold | hw
      · exact hs.registry_unique hold g.registry
      · cases hw
        rfl
    · rw [countWhere_verifyStore g stable_isContract, ← ht.contracts _ _ g.registry]
      simp [ContractRegistry.signed, isContract]
    · rw [countWhere_verifyStore g stable_isReceipt, ← ht.signatures _ _ g.registry]
      simp [ContractRegistry.signed, toNat_add_one_u64 g.registryCount, isReceipt]
  | verifySignature => exact ht
  | createMultisig g =>
    refine ht.of_same he (fun a r ha => (hw a r ha).resolve_right (by rintro ⟨⟩)) ?_ ?_
      fun _ _ _ => ⟨_, _, g.contract⟩
    · rw [countWhere_createStore g]
      simp [isContract]
    · rw [countWhere_createStore g]
      simp [isReceipt]
  | recordVerifiedMultisig g =>
    refine ht.of_same he (fun a r ha => (hw a r ha).resolve_right (by rintro ⟨⟩)) ?_ ?_
      fun _ _ _ => ⟨_, _, g.contract⟩
    · rw [countWhere_recordStore g stable_isContract]
      simp [isContract]
    · rw [countWhere_recordStore g stable_isReceipt]
      simp [isReceipt]
  | finalizeMultisig g =>
    exact ht.of_same he (fun a r ha => (hw a r ha).resolve_right (by rintro ⟨⟩))
      (countWhere_finalizeStore g stable_isContract) (countWhere_finalizeStore g stable_isReceipt)
      fun _ _ _ => ⟨_, _, g.contract⟩

theorem Reachable.totalled (h : Reachable D groth16 s) : Totalled s := by
  refine h.induction Totalled ⟨?_, ?_, ?_⟩ fun s call s' hs ht he => he.totalled hs.sound ht
  · intro a r ha
    simp at ha
  · intro a r ha
    simp at ha
  · intro a x hx
    simp at hx

section Frame

/-- The instructions that move a counter when they succeed. -/
def Instruction.counts : Instruction → Bool
  | .initializeRegistry _ | .registerContract .. | .verifyGroth16V2 .. => true
  | _ => false

/-- The registry and the contracts are the same, their counters included. -/
structure SameCounters (s s' : Store) : Prop where
  registry : ∀ a r, s'.lookup a = some (.registry r) ↔ s.lookup a = some (.registry r)
  contract : ∀ a c, s'.lookup a = some (.contract c) ↔ s.lookup a = some (.contract c)

theorem SameCounters.refl (s : Store) : SameCounters s s := ⟨fun _ _ => Iff.rfl, fun _ _ => Iff.rfl⟩

theorem SameCounters.trans {s₁ s₂ s₃ : Store} (h₁ : SameCounters s₁ s₂)
    (h₂ : SameCounters s₂ s₃) : SameCounters s₁ s₃ :=
  ⟨fun a r => (h₂.registry a r).trans (h₁.registry a r),
    fun a c => (h₂.contract a c).trans (h₁.contract a c)⟩

theorem Effect.sameCounters {call : Call} (h : Effect D groth16 s call s')
    (hc : call.ix.counts = false) : SameCounters s s' := by
  have hback (a : Pubkey) {x : Account} (hx : s'.lookup a = some x)
      (hw : ¬ Writes D groth16 s call a x) : s.lookup a = some x := (h.written hx).resolve_right hw
  have hregistry a r : ¬ Writes D groth16 s call a (.registry r) := by
    rintro ⟨⟩ <;> simp [Instruction.counts] at hc
  have hcontract a c : ¬ Writes D groth16 s call a (.contract c) := by
    rintro ⟨⟩ <;> simp [Instruction.counts] at hc
  refine ⟨fun a r => ⟨fun hx => hback a hx (hregistry a r), fun hx => ?_⟩,
    fun a c => ⟨fun hx => hback a hx (hcontract a c), fun hx => ?_⟩⟩
  · obtain ⟨x, hx', hg⟩ := h.extends a _ hx
    cases x <;> simp only [Account.Grows, reduceCtorEq] at hg
    have hold := hback a hx' (hregistry a _)
    rw [hx] at hold
    rw [hx', hold]
  · obtain ⟨c', hx', -⟩ := h.extends.contract hx
    have hold := hback a hx' (hcontract a _)
    rw [hx] at hold
    rw [hx', hold]

theorem exec_sameCounters : ∀ {tx : List Call} {s s' : Store},
    Batch.exec (exec D groth16) s tx = .ok s' → (∀ call ∈ tx, call.ix.counts = false) →
      SameCounters s s'
  | [], s, s', h, _ => by
    cases h
    exact .refl s
  | call :: tx, s, s', h, hc => by
    obtain ⟨t, hx, ht⟩ := Batch.exec_cons_ok.1 h
    have hstep := (exec_eq_ok.1 hx).sameCounters (hc call List.mem_cons_self)
    exact hstep.trans (exec_sameCounters ht fun e he => hc e (List.mem_cons_of_mem _ he))

theorem commit_sameCounters (s : Store) {tx : List Call}
    (hc : ∀ call ∈ tx, call.ix.counts = false) : SameCounters s (commit D groth16 s tx) := by
  rcases h : Batch.exec (exec D groth16) s tx with e | s'
  · rw [commit, Batch.commit_of_error h]
    exact .refl s
  · rw [commit, Batch.commit_of_ok h]
    exact exec_sameCounters h hc

end Frame

/-- The registry's counters are the numbers of contracts and of receipts, a contract's counter is
the number of its receipts, and these add up to the registry's. No transaction that only counts
keys, creates or finalizes agreements moves a counter, and none that fails does. -/
theorem counters_exact (D : Pda) (groth16 : Groth16Verifier) (txs : List (List Call)) :
    (∀ a r, (run D groth16 ∅ txs).lookup a = some (.registry r) →
      r.totalContracts.toNat = (run D groth16 ∅ txs).countWhere isContract
        ∧ r.totalSignatures.toNat = (run D groth16 ∅ txs).countWhere isReceipt
        ∧ r.totalSignatures.toNat = signatureCounts (run D groth16 ∅ txs))
    ∧ (∀ a c, (run D groth16 ∅ txs).lookup a = some (.contract c) →
      c.signatureCount.toNat = (run D groth16 ∅ txs).countWhere (receiptOf a))
    ∧ (∀ tx : List Call, (∀ call ∈ tx, call.ix.counts = false) →
      SameCounters (run D groth16 ∅ txs) (commit D groth16 (run D groth16 ∅ txs) tx))
    ∧ ∀ tx e, Batch.exec (exec D groth16) (run D groth16 ∅ txs) tx = .error e →
      commit D groth16 (run D groth16 ∅ txs) tx = run D groth16 ∅ txs := by
  have hs : Reachable D groth16 (run D groth16 ∅ txs) := ⟨txs, rfl⟩
  refine ⟨fun a r ha => ⟨hs.totalled.contracts a r ha, hs.totalled.signatures a r ha, ?_⟩,
    hs.sound.counted, fun tx => commit_sameCounters _, fun tx e => Batch.commit_of_error⟩
  rw [hs.sound.signatureCounts]
  exact hs.totalled.signatures a r ha

end Oblivia

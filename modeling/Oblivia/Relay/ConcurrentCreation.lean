import Mathlib.Algebra.Order.Monoid.Prod
import Oblivia.Client.AgreementCreation
import Oblivia.Relay.Submissions
/-!
# Concurrent creation

Any number of requests to the relay and calls of the SDK create one agreement at the same time,
interleaved in any way. Each of them sends at most one registration and one creation; the creation
of at most one of them is confirmed to it, what any of them reports is there, and each of them
reports the agreement unless one of its reads failed (`creation_accounted`).
-/

namespace Oblivia

open Dialogue

namespace Relay

variable {D : Pda} {groth16 : Groth16Verifier} {hash : Bytes 32} {t n : UInt8}
  {A : Site D hash t n} {bytes : Account → List UInt8} {coder : Coder} {base58 : Pubkey → Text}

section Among

variable {payer : Pubkey} {body : Option Json} {w : Store × List (Turn Rpc Rpc.Reply)}

/-- What the relay answers about the agreement. -/
def creationAnswer (base58 : Pubkey → Text) (multisigPda : Pubkey) : Option Text → Response
  | none => alreadyExists base58 multisigPda
  | some tx => created base58 multisigPda tx

@[simp]
theorem decodeAccount_bind {α β : Type} {a : α} {f : α → Handler β} :
    decodeAccount (.ok a) >>= f = f a := rfl

theorem assertRequestedConfig_eq {ms : MultiSigContract} (ht : ms.threshold = t)
    (hn : ms.maxSigners = n) (hpos : 0 < t) (htn : t ≤ n) :
    assertRequestedConfig ms t.toNat n.toNat = pure () := by
  rw [assertRequestedConfig, assertMultisigConfig_eq_ok ht hn hpos htn]

/-- The contract is registered afterwards, if it was absent. -/
theorem among_registerAbsent {contract : Option Contract} (henc : coder.Encodes bytes)
    (hw : A.Ready groth16 w.1) (hc : contract.isSome = true → A.Registered w.1) :
    A.Among groth16 bytes
      (registerAbsent coder A.registry.1 A.contract.1 payer hash contract).run
      (fun r w' => A.Drift groth16 w.1 w'.1 ∧ match r with
        | .ok _ => A.Registered w'.1
        | .error e => Unread upstreamError e w'.2) w := by
  unfold registerAbsent
  split_ifs with hnone
  · simp only [submit_eq, fetchAccount_eq]
    refine (among_register henc (fun info x hx => ?_) hw).andThen (fun _ w₁ h => h)
      fun e w₁ h => h
    rw [readContract, hx]
    rfl
  · exact ⟨.refl _, hc (by simpa [Option.isSome_iff_ne_none] using hnone)⟩

theorem among_createAgreement (henc : coder.Encodes bytes) (hw : A.Ready groth16 w.1)
    (hc : A.Registered w.1) : A.Among groth16 bytes
      (createAgreement coder A.contract.1 A.multisig.1 payer hash t.toNat n.toNat).run
      (fun r w' => match r with
        | .ok tx => A.Reported payer tx w'
        | .error e => Unread upstreamError e w'.2) w := by
  simp only [createAgreement, submit_eq, fetchAccount_eq, Int.toNat_natCast, UInt8.ofNat_toNat]
  refine (among_create henc (fun info ms hx ht hn => ?_) hw hc).mono fun r w₁ h => ?_
  · rw [readMultisig, hx]
    exact congrArg (· >>= fun _ => pure (some ms))
      (assertRequestedConfig_eq ht hn A.positive A.capacity)
  · rcases r with e | _ | sig
    · exact h.2
    · exact ⟨h.2, by simp⟩
    · exact ⟨h.2.1, fun sig' heq => (Option.some.inj heq) ▸ h.2.2⟩

/-- A request for the agreement goes to its site. -/
theorem postMultisigCreate_eq (A : Site D hash t n)
    (hreq : createRequest body = .ok ((t.toNat, n.toNat), hash)) :
    postMultisigCreate D coder base58 (some payer) body = (do
      let contractInfo ← getAccountInfo upstreamError A.contract.1
      let contract ← readContract coder hash contractInfo
      let multisigInfo ← getAccountInfo upstreamError A.multisig.1
      let existing ← readMultisig coder A.contract.1 multisigInfo
      existing.elim (pure ()) (assertRequestedConfig · t.toNat n.toNat)
      registerAbsent coder A.registry.1 A.contract.1 payer hash contract
      if existing.isSome then
        return alreadyExists base58 A.multisig.1
      else
        let tx ← createAgreement coder A.contract.1 A.multisig.1 payer hash t.toNat n.toNat
        return creationAnswer base58 A.multisig.1 tx) := by
  have hregistry : findProgramAddressSync D [registrySeed] = .ok A.registry :=
    (findProgramAddressSync_seeds (d := .registry)).2 A.registry_eq
  have hcontract : findProgramAddressSync D [contractSeed, hash.toList] = .ok A.contract :=
    (findProgramAddressSync_seeds (d := .contract hash)).2 A.contract_eq
  have hseeds : multisigSeeds hash t.toNat n.toNat = .ok (Derivation.multisig hash t n).seeds :=
    multisigSeeds_eq_ok.2 ⟨A.positive, A.capacity, rfl⟩
  have hkey {β : Type} {f : Pubkey → Handler β} : getProgram (some payer) >>= f = f payer := rfl
  simp only [postMultisigCreate, hreq, classified_bind, hkey, hregistry, hcontract, hseeds,
    unclassified_bind, findProgramAddressSync_seeds.2 A.multisig_eq, fetchAccount_eq]
  refine bind_congr fun _ => bind_congr fun _ => bind_congr fun _ => bind_congr fun _ =>
    bind_congr fun _ => bind_congr fun _ => ?_
  split_ifs
  · rfl
  · refine bind_congr fun tx => ?_
    cases tx <;> rfl

theorem among_postMultisigCreate (henc : coder.Encodes bytes) (hw : A.Ready groth16 w.1)
    (hreq : createRequest body = .ok ((t.toNat, n.toNat), hash)) : A.Among groth16 bytes
      (postMultisigCreate D coder base58 (some payer) body).run
      (fun r w' => match r with
        | .ok response => ∃ tx, response = creationAnswer base58 A.multisig.1 tx
          ∧ A.Reported payer tx w'
        | .error e => Unread upstreamError e w'.2) w := by
  have hskip {β : Type} {f : Unit → Handler β} : pure () >>= f = f () := rfl
  rw [postMultisigCreate_eq A hreq]
  refine (among_readContract henc hw).andThen (fun contractInfo w₁ h₁ => ?_) fun e w₁ h => h.2
  obtain ⟨hdrift₁, contract, hx₁, hregistered⟩ := h₁
  have hw₁ := hdrift₁.2 hw
  rw [readContract, hx₁, decodeAccount_bind]
  refine (among_readMultisig henc hw₁).andThen (fun multisigInfo w₂ h₂ => ?_) fun e w₂ h => h.2
  obtain ⟨hdrift₂, existing, hx₂, hcreated⟩ := h₂
  have hw₂ := hdrift₂.2 hw₁
  have hcompare : existing.elim (pure ()) (assertRequestedConfig · t.toNat n.toNat) = pure () := by
    rcases existing with _ | ms
    · rfl
    · obtain ⟨-, hthreshold, hmax⟩ := hcreated ms rfl
      exact assertRequestedConfig_eq hthreshold hmax A.positive A.capacity
  rw [readMultisig, hx₂, decodeAccount_bind, hcompare, hskip]
  refine (among_registerAbsent henc hw₂ fun hsome =>
    (hregistered hsome).mono hdrift₂.1.extends).andThen (fun _ w₃ h₃ => ?_) fun e w₃ h => h.2
  split_ifs with hsome
  · obtain ⟨ms, hms⟩ := Option.isSome_iff_exists.1 hsome
    exact ⟨none, rfl, (hcreated ms hms).1.mono h₃.1.1.extends, by simp⟩
  · refine (among_createAgreement henc (h₃.1.2 hw₂) h₃.2).andThen (fun tx w₄ h₄ => ?_)
      fun e w₄ h => h
    exact ⟨tx, rfl, h₄⟩

end Among

section Cost

/-- A transaction that creates an agreement. -/
def isCreate : Rpc → Bool
  | .send (.createMultisig .. :: _) => true
  | _ => false

/-- What a request costs of a caller's registrations, creations and requests. -/
def cost (q : Rpc) : ℕ × ℕ × ℕ := (if isRegister q then 1 else 0, if isCreate q then 1 else 0, 1)

theorem sum_cost (l : List Rpc) :
    (l.map cost).sum = (l.countP isRegister, l.countP isCreate, l.length) := by
  induction l with
  | nil => rfl
  | cons q l ih =>
    rw [List.map_cons, List.sum_cons, ih, List.countP_cons, List.countP_cons, List.length_cons,
      cost, Prod.mk_add_mk, Prod.mk_add_mk, Nat.add_comm _ (l.countP isRegister),
      Nat.add_comm _ (l.countP isCreate), Nat.add_comm 1 l.length]

variable {ε α γ : Type} {reject : String → ε} {m : ℕ × ℕ × ℕ} {payer : Pubkey}
  {body : Option Json}

theorem spends_getAccountInfo {a : Pubkey} :
    Spends A.Expected cost (0, 0, 1) (getAccountInfo reject a).run :=
  ⟨.read a, 0, le_rfl, fun _ => trivial⟩

theorem spends_recovery {a : Pubkey} {transaction : List Instruction}
    {readAccount : Option AccountInfo → ExceptT ε (Dialogue Rpc Rpc.Reply) (Option γ)}
    (hexpected : A.Expected (.send transaction))
    (hread : ∀ info, Spends A.Expected cost 0 (readAccount info).run) :
    Spends A.Expected cost (cost (.send transaction) + ((0, 0, 1) + 0))
      (initializeOrReadExisting (send reject transaction) (getAccountInfo reject a)
        readAccount).run := by
  refine Spends.orElse ?_ fun e => ?_
  · exact ⟨hexpected, 0, le_rfl, fun r => by cases r <;> trivial⟩
  · refine Spends.andThen (m := (0, 0, 1) + 0) (k := 0) ?_ fun info => ?_
    · exact Spends.orElse spends_getAccountInfo fun _ => spends_pure
    · refine Spends.andThen (m := 0) (k := 0) (hread info) fun account => ?_
      cases account <;> exact spends_pure

theorem spends_call {x : Except String α} : Spends A.Expected cost m (Sdk.call x).run := by
  cases x <;> exact spends_pure

theorem spends_registerContract :
    Spends A.Expected cost (1, 0, 3) (Sdk.registerContract D coder (some payer) hash).run := by
  rw [Sdk.registerContract_eq A]
  refine Spends.andThen (m := (0, 0, 1)) (k := (1, 0, 2)) spends_getAccountInfo fun info => ?_
  refine Spends.andThen (m := 0) (k := (1, 0, 2)) spends_call fun x => ?_
  split_ifs
  · exact spends_pure
  · exact Spends.andThen (m := (1, 0, 2)) (k := 0)
      (spends_recovery (.register payer) fun _ => spends_call) fun _ => spends_pure

theorem spends_createMultisig : Spends A.Expected cost (0, 1, 3)
    (Sdk.createMultisig D coder (some payer) hash t.toNat n.toNat).run := by
  rw [Sdk.createMultisig_eq A]
  refine Spends.andThen (m := (0, 0, 1)) (k := (0, 1, 2)) spends_getAccountInfo fun info => ?_
  refine Spends.andThen (m := 0) (k := (0, 1, 2)) spends_call fun x => ?_
  rcases x with _ | ms
  · refine Spends.andThen (m := (0, 1, 2)) (k := 0)
      (spends_recovery (.create payer) fun info => ?_) fun _ => spends_pure
    refine Spends.andThen (m := 0) (k := 0) spends_call fun account => ?_
    refine Spends.andThen (m := 0) (k := 0) ?_ fun _ => spends_pure
    cases account with
    | none => exact spends_pure
    | some existing => exact spends_call
  · exact Spends.andThen (m := 0) (k := (0, 1, 2)) spends_call fun _ => spends_pure

theorem spends_decodeAccount {x : Except String α} :
    Spends A.Expected cost m (decodeAccount x).run := by
  cases x <;> exact spends_pure

/-- An agreement that is compared with the settings costs nothing. -/
theorem spends_compare {existing : Option MultiSigContract} {threshold maxSigners : ℤ} :
    Spends A.Expected cost m (existing.elim (pure ())
      (assertRequestedConfig · threshold maxSigners) : Handler Unit).run := by
  cases existing with
  | none => exact spends_pure
  | some existing =>
    simp only [Option.elim_some, assertRequestedConfig]
    split <;> exact spends_pure

theorem spends_registerAbsent {contract : Option Contract} : Spends A.Expected cost (1, 0, 2)
    (registerAbsent coder A.registry.1 A.contract.1 payer hash contract).run := by
  unfold registerAbsent
  split_ifs
  · simp only [submit_eq, fetchAccount_eq]
    exact Spends.andThen (m := (1, 0, 2)) (k := 0)
      (spends_recovery (.register payer) fun _ => spends_decodeAccount) fun _ => spends_pure
  · exact spends_pure

theorem spends_createAgreement : Spends A.Expected cost (0, 1, 2)
    (createAgreement coder A.contract.1 A.multisig.1 payer hash t.toNat n.toNat).run := by
  simp only [createAgreement, submit_eq, fetchAccount_eq, Int.toNat_natCast, UInt8.ofNat_toNat]
  refine spends_recovery (.create payer) fun info => ?_
  refine Spends.andThen (m := 0) (k := 0) spends_decodeAccount fun account => ?_
  exact Spends.andThen (m := 0) (k := 0) spends_compare fun _ => spends_pure

theorem spends_postMultisigCreate
    (hreq : createRequest body = .ok ((t.toNat, n.toNat), hash)) :
    Spends A.Expected cost (1, 1, 6)
      (postMultisigCreate D coder base58 (some payer) body).run := by
  rw [postMultisigCreate_eq A hreq]
  refine Spends.andThen (m := (0, 0, 1)) (k := (1, 1, 5)) spends_getAccountInfo fun info => ?_
  refine Spends.andThen (m := 0) (k := (1, 1, 5)) spends_decodeAccount fun contract => ?_
  refine Spends.andThen (m := (0, 0, 1)) (k := (1, 1, 4)) spends_getAccountInfo fun info' => ?_
  refine Spends.andThen (m := 0) (k := (1, 1, 4)) spends_decodeAccount fun existing => ?_
  refine Spends.andThen (m := 0) (k := (1, 1, 4)) spends_compare fun _ => ?_
  refine Spends.andThen (m := (1, 0, 2)) (k := (0, 1, 2)) spends_registerAbsent fun _ => ?_
  split_ifs
  · exact spends_pure
  · refine Spends.andThen (m := (0, 1, 2)) (k := 0) spends_createAgreement fun tx => ?_
    exact spends_pure

end Cost

/-- Somebody who wants the agreement: a request to the relay, or a call of the SDK. -/
inductive Caller
  | relay (payer : Pubkey) (body : Option Json)
  | sdk (payer : Pubkey)

/-- The answer of the relay, or how the call ends. -/
abbrev Caller.Result := Response ⊕ Except String (Pubkey × Option Text)

/-- A success as it is reported: the address of the agreement, and the signature of the
transaction that created it, if the caller created it. -/
structure Report where
  multisig : Option Json
  transaction : Option Json

def Caller.Result.report (base58 : Pubkey → Text) : Caller.Result → Option Report
  | .inl response =>
    if response.status = 200 then
      some ⟨response.body.field "multisig", response.body.field "transaction"⟩
    else none
  | .inr (.ok (multisigPda, tx)) => some ⟨some (.string (base58 multisigPda)), tx.map .string⟩
  | .inr (.error _) => none

/-- The payer of its transactions. -/
def Caller.payer : Caller → Pubkey
  | relay payer _ => payer
  | sdk payer => payer

namespace Caller

/-- It wants this agreement. -/
def Wants (hash : Bytes 32) (t n : UInt8) : Caller → Prop
  | relay _ body => createRequest body = .ok ((t.toNat, n.toNat), hash)
  | sdk _ => True

/-- What it asks of the network, the relay's limits not reached. -/
def talk (D : Pda) (coder : Coder) (base58 : Pubkey → Text) (hash : Bytes 32) (t n : UInt8) :
    Caller → Dialogue Rpc Rpc.Reply Result
  | relay payer body =>
    Sum.inl <$> sponsored .passed (handler D coder base58 (some payer) .create body)
  | sdk payer => Sum.inr <$> (Sdk.createAgreement D coder (some payer) hash t.toNat n.toNat).run

variable {w : Store × List (Turn Rpc Rpc.Reply)} {c : Caller}

/-- How it ends: with the agreement, or with an error after a read that failed. -/
def Ends (A : Site D hash t n) (base58 : Pubkey → Text) (payer : Pubkey) (o : Result)
    (w : Store × List (Turn Rpc Rpc.Reply)) : Prop :=
  (∃ tx, o.report base58 = some ⟨some (.string (base58 A.multisig.1)), tx.map .string⟩
    ∧ A.Reported payer tx w)
  ∨ o.report base58 = none
    ∧ ∃ a m, (⟨.getAccountInfo a, .error m⟩ : Turn Rpc Rpc.Reply) ∈ w.2

theorem report_creationAnswer {multisigPda : Pubkey} {tx : Option Text} :
    Result.report base58 (.inl (creationAnswer base58 multisigPda tx))
      = some ⟨some (.string (base58 multisigPda)), tx.map .string⟩ := by
  cases tx <;> rfl

theorem among_talk (henc : coder.Encodes bytes) (hc : c.Wants hash t n) (hw : A.Ready groth16 w.1) :
    A.Among groth16 bytes (c.talk D coder base58 hash t n) (Ends A base58 c.payer) w := by
  cases c with
  | relay payer body =>
    refine ensures_bind.2 (ensures_respond.2 ?_)
    refine (among_postMultisigCreate henc hw hc).mono fun r w' hr => ?_
    rcases r with e | response
    · obtain ⟨⟨m, rfl⟩, hread⟩ := hr
      exact .inr ⟨rfl, hread⟩
    · obtain ⟨tx, rfl, hreported⟩ := hr
      exact .inl ⟨tx, report_creationAnswer, hreported⟩
  | sdk payer =>
    refine ensures_bind.2 ((Sdk.among_createAgreement henc hw).mono fun r w' hr => ?_)
    rcases r with e | ⟨multisigPda, tx⟩
    · exact .inr ⟨rfl, hr.read⟩
    · obtain ⟨rfl, hreported⟩ := hr
      exact .inl ⟨tx, rfl, hreported⟩

theorem spends_talk (A : Site D hash t n) (hc : c.Wants hash t n) :
    Spends A.Expected cost (1, 1, 6) (c.talk D coder base58 hash t n) := by
  cases c with
  | relay payer body =>
    refine Spends.bind (k := 0) (fun _ => spends_pure) (m := (1, 1, 6)) ?_
    refine Spends.bind (k := 0) (fun r => ?_) (m := (1, 1, 6)) (spends_postMultisigCreate hc)
    cases r <;> exact spends_pure
  | sdk payer =>
    refine Spends.bind (k := 0) (fun _ => spends_pure) (m := (1, 1, 6)) ?_
    exact Spends.andThen (m := (1, 0, 3)) (k := (0, 1, 3)) spends_registerContract
      fun _ => spends_createMultisig

end Caller

section Pool

variable {ι : Type} {s : Store} {log : List (ι × Turn Rpc Rpc.Reply)}

/-- Creations are confirmed to one caller at most, and then there is an agreement. -/
structure Unique (A : Site D hash t n) (groth16 : Groth16Verifier) (s : Store)
    (log : List (ι × Turn Rpc Rpc.Reply)) : Prop where
  ready : A.Ready groth16 s
  created : ∀ i payer sig, (i, ⟨.send (A.create payer), .ok sig⟩) ∈ log → A.Created s
  unique : ∀ i payer sig j payer' sig', (i, ⟨.send (A.create payer), .ok sig⟩) ∈ log →
    (j, ⟨.send (A.create payer'), .ok sig'⟩) ∈ log → i = j

theorem Unique.serve {i : ι} {q : Rpc} {r : q.Reply} {s' : Store} (h : Unique A groth16 s log)
    (hq : A.Expected q) (hs : Serve D groth16 bytes s q r s') :
    Unique A groth16 s' (log ++ [(i, ⟨q, r⟩)]) := by
  have hready := h.ready.serve hq hs
  -- the agreement is there after a creation that is confirmed now, and was not before it
  have hnow : ∀ payer sig, (⟨.send (A.create payer), .ok sig⟩ : Turn Rpc Rpc.Reply) = ⟨q, r⟩ →
      s.lookup A.multisig.1 = none ∧ A.Created s' := by
    rintro payer sig heq
    cases heq
    cases hs with
    | sent hx => exact Site.created_of_exec hx
  refine ⟨hready, fun j payer sig hj => ?_, fun j payer sig k payer' sig' hj hk => ?_⟩
  · rcases List.mem_append.1 hj with hj | hj
    · exact (h.created j payer sig hj).mono hs.later.extends
    · exact (hnow payer sig (Prod.mk.inj (List.mem_singleton.1 hj)).2).2
  · have hfirst : ∀ j payer sig payer' sig', (j, ⟨.send (A.create payer), .ok sig⟩) ∈ log →
        (⟨.send (A.create payer'), .ok sig'⟩ : Turn Rpc Rpc.Reply) ≠ ⟨q, r⟩ := by
      intro j payer sig payer' sig' hj heq
      exact (Site.created_iff h.ready.reachable).1 (h.created j payer sig hj)
        (hnow payer' sig' heq).1
    rcases List.mem_append.1 hj with hj | hj <;> rcases List.mem_append.1 hk with hk | hk
    · exact h.unique j payer sig k payer' sig' hj hk
    · exact absurd (Prod.mk.inj (List.mem_singleton.1 hk)).2 (hfirst j payer sig payer' sig' hj)
    · exact absurd (Prod.mk.inj (List.mem_singleton.1 hj)).2 (hfirst k payer' sig' payer sig hk)
    · exact (Prod.mk.inj (List.mem_singleton.1 hj)).1.trans
        (Prod.mk.inj (List.mem_singleton.1 hk)).1.symm

/-- A signature that is reported is that of a creation that was confirmed to the caller. -/
theorem exists_confirmed {o : Caller.Result} {payer : Pubkey} {report : Report}
    {h : List (Turn Rpc Rpc.Reply)}
    (hends : ∃ s', A.Drift groth16 s' s ∧ Caller.Ends A base58 payer o (s', h))
    (hr : o.report base58 = some report) (htx : report.transaction ≠ none) :
    ∃ sig, (⟨.send (A.create payer), .ok sig⟩ : Turn Rpc Rpc.Reply) ∈ h := by
  obtain ⟨s', -, ⟨tx, hreport, -, hsent⟩ | ⟨hnone, -⟩⟩ := hends
  · rw [hr, Option.some.injEq] at hreport
    subst hreport
    rcases tx with _ | sig
    · exact absurd rfl htx
    · exact ⟨sig, hsent sig rfl⟩
  · rw [hr] at hnone
    cases hnone

/-- However the callers are interleaved, each sends no more than one registration and one creation
in at most six requests; a creation is reported by one of them at most; what is reported is the
agreement, which is on the chain; and whoever reads without fail reports it. -/
theorem creation_accounted [DecidableEq ι] (henc : coder.Encodes bytes) (A : Site D hash t n)
    {s₀ : Store} (h₀ : A.Ready groth16 s₀) (callers : ι → Caller)
    (hcallers : ∀ i, (callers i).Wants hash t n) {p : Pool ι Rpc Rpc.Reply Caller.Result Store}
    (hruns : Pool.Runs (Serve D groth16 bytes)
      (Pool.start s₀ fun i => (callers i).talk D coder base58 hash t n) p) :
    (∀ i, (asked (Pool.turns p.log i) (p.talks i)).countP isRegister ≤ 1
      ∧ (asked (Pool.turns p.log i) (p.talks i)).countP isCreate ≤ 1
      ∧ (asked (Pool.turns p.log i) (p.talks i)).length ≤ 6)
    ∧ (∀ i j o o' report report', p.talks i = .done o → p.talks j = .done o' →
      o.report base58 = some report → o'.report base58 = some report' →
      report.transaction ≠ none → report'.transaction ≠ none → i = j)
    ∧ (∀ i o report, p.talks i = .done o → o.report base58 = some report →
      report.multisig = some (.string (base58 A.multisig.1)) ∧ A.Established p.world)
    ∧ ∀ i o, p.talks i = .done o →
      (∀ a m, (⟨.getAccountInfo a, .error m⟩ : Turn Rpc Rpc.Reply) ∉ Pool.turns p.log i) →
      ∃ report, o.report base58 = some report := by
  have hspends i : Spends A.Expected cost (1, 1, 6)
      ((callers i).talk D coder base58 hash t n) := Caller.spends_talk A (hcallers i)
  have hasks : ∀ i t' q next,
      Follows ((callers i).talk D coder base58 hash t n) t' (.ask q next) → A.Expected q :=
    fun i t' q next hf => ((hspends i).asked hf).1 q (by simp [asked])
  have hunique : Unique A groth16 p.world p.log :=
    Pool.invariant (Unique A groth16) ⟨h₀, by simp, by simp⟩ hasks
      (fun s log i q r s' h hq hs => h.serve hq hs) hruns
  have hends i {o} (hdone : p.talks i = .done o) : ∃ s', A.Drift groth16 s' p.world
      ∧ Caller.Ends A base58 (callers i).payer o (s', Pool.turns p.log i) := by
    obtain ⟨s', hdrift, hens⟩ := Pool.ensures Site.Drift.refl
      (fun _ _ _ h h' => Site.Drift.trans h h') (fun _ _ _ _ hq hs => Site.Drift.serve hq hs) hasks
      (Caller.among_talk henc (hcallers i) h₀) hruns
    rw [hdone] at hens
    exact ⟨s', hdrift, hens⟩
  refine ⟨fun i => ?_, fun i j o o' report report' hi hj hr hr' htx htx' => ?_,
    fun i o report hi hr => ?_, fun i o hi hread => ?_⟩
  · have hcost := ((hspends i).asked (Pool.follows hruns i)).2
    rw [sum_cost] at hcost
    exact ⟨hcost.1, hcost.2.1, hcost.2.2⟩
  · obtain ⟨sig, hsig⟩ := exists_confirmed (hends i hi) hr htx
    obtain ⟨sig', hsig'⟩ := exists_confirmed (hends j hj) hr' htx'
    exact hunique.unique i _ sig j _ sig' (Pool.mem_turns.1 hsig) (Pool.mem_turns.1 hsig')
  · obtain ⟨s', hdrift, ⟨tx, hreport, hcreated, -⟩ | ⟨hnone, -⟩⟩ := hends i hi
    · rw [hr, Option.some.injEq] at hreport
      subst hreport
      exact ⟨rfl, (hcreated.mono hdrift.1.extends).established hunique.ready.reachable⟩
    · rw [hr] at hnone
      cases hnone
  · obtain ⟨s', -, ⟨tx, hreport, -⟩ | ⟨-, a, m, hunread⟩⟩ := hends i hi
    · exact ⟨_, hreport⟩
    · exact absurd hunread (hread a m)

end Pool

section Sample

def sampleSite : Site samplePda sampleHash 2 3 where
  registry := (sampleRegistry, 250)
  contract := (sampleContract, 255)
  multisig := (sampleMultisig, 254)
  registry_eq := find_sampleRegistry
  contract_eq := find_sampleContract
  multisig_eq := find_sampleMultisig
  nonzero := by decide
  positive := by decide
  capacity := by decide

def sampleCallers (relay : Bool) : Caller :=
  if relay then .relay samplePayer (some sampleBody) else .sdk samplePayer

/-- The store before it, after the registration and after the creation. -/
def sampleStores : Store × Store × Store :=
  (run samplePda sampleVerifier ∅ (sampleSetup.take 1),
    run samplePda sampleVerifier ∅ (sampleSetup.take 2), run samplePda sampleVerifier ∅ sampleSetup)

/-- The SDK registers the contract but is told that it failed, the relay fails to register it; then
the relay creates the agreement, and the SDK fails to create it. -/
def sampleLog : List (Bool × Turn Rpc Rpc.Reply) :=
  let contract := some (accountInfo (Account.bytes (.contract
    ⟨sampleHash, 1700000000, 0, true, 255⟩)))
  let multisig := some (accountInfo (Account.bytes (.multisig
    ⟨sampleContract, 2, 0, 3, false, 0, 254⟩)))
  [(true, ⟨.getAccountInfo sampleContract, .ok none⟩),
    (false, ⟨.getAccountInfo sampleContract, .ok none⟩),
    (false, ⟨.send (sampleSite.register samplePayer), .error "timeout"⟩),
    (true, ⟨.getAccountInfo sampleMultisig, .ok none⟩),
    (true, ⟨.send (sampleSite.register samplePayer), .error "custom program error: 0x0"⟩),
    (true, ⟨.getAccountInfo sampleContract, .ok contract⟩),
    (false, ⟨.getAccountInfo sampleContract, .ok contract⟩),
    (false, ⟨.getAccountInfo sampleMultisig, .ok none⟩),
    (true, ⟨.send (sampleSite.create samplePayer), .ok "5CreateTx".toList⟩),
    (false, ⟨.send (sampleSite.create samplePayer), .error "custom program error: 0x0"⟩),
    (false, ⟨.getAccountInfo sampleMultisig, .ok multisig⟩)]

theorem serves_sampleLog : Pool.Serves (Serve samplePda sampleVerifier Account.bytes)
    sampleStores.1 (sampleLog.map Prod.snd) sampleStores.2.2 := by
  have hregister : Batch.exec (exec samplePda sampleVerifier) sampleStores.1
      ((sampleSite.register samplePayer).map (⟨sampleRuntime, ·⟩)) = .ok sampleStores.2.1 :=
    Batch.exec_eq_commit (by decide +kernel)
  have hcreate : Batch.exec (exec samplePda sampleVerifier) sampleStores.2.1
      ((sampleSite.create samplePayer).map (⟨sampleRuntime, ·⟩)) = .ok sampleStores.2.2 :=
    Batch.exec_eq_commit (by decide +kernel)
  obtain ⟨e, hregister'⟩ : ∃ e, Batch.exec (exec samplePda sampleVerifier) sampleStores.2.1
      ((sampleSite.register samplePayer).map (⟨sampleRuntime, ·⟩)) = .error e :=
    Batch.exists_error (by decide +kernel)
  obtain ⟨e', hcreate'⟩ : ∃ e, Batch.exec (exec samplePda sampleVerifier) sampleStores.2.2
      ((sampleSite.create samplePayer).map (⟨sampleRuntime, ·⟩)) = .error e :=
    Batch.exists_error (by decide +kernel)
  have hcontract : sampleStores.2.1.lookup sampleContract
      = some (.contract ⟨sampleHash, 1700000000, 0, true, 255⟩) := by decide +kernel
  have hmultisig : sampleStores.2.2.lookup sampleMultisig
      = some (.multisig ⟨sampleContract, 2, 0, 3, false, 0, 254⟩) := by decide +kernel
  exact .cons (.read (.nothing (by decide +kernel))) <| .cons (.read (.nothing (by decide +kernel)))
    <| .cons (.sent hregister) <| .cons (.read (.nothing (by decide +kernel)))
    <| .cons (.rejected hregister') <| .cons (.read (.account hcontract))
    <| .cons (.read (.account hcontract)) <| .cons (.read (.nothing (by decide +kernel)))
    <| .cons (.sent hcreate) <| .cons (.rejected hcreate') <| .cons (.read (.account hmultisig))
    <| .nil _

/-- Both report the agreement. -/
theorem creation_accounted_sample : ∃ p : Pool Bool Rpc Rpc.Reply Caller.Result Store,
    (∀ i, ∃ o report, p.talks i = .done o ∧ o.report toBase58 = some report
      ∧ report.multisig = some (.string (toBase58 sampleMultisig)))
    ∧ sampleSite.Established p.world := by
  have hplay : ∀ i, ((play ((sampleCallers i).talk samplePda idlCoder toBase58 sampleHash 2 3)
      (Pool.turns sampleLog i)).bind (Caller.Result.report toBase58)).isSome = true := by
    decide +kernel
  have hdone : ∀ i, ∃ o, play ((sampleCallers i).talk samplePda idlCoder toBase58 sampleHash 2 3)
      (Pool.turns sampleLog i) = some o ∧ ∃ report, o.report toBase58 = some report := fun i => by
    obtain ⟨report, hreport⟩ := Option.isSome_iff_exists.1 (hplay i)
    obtain ⟨o, ho, hreport⟩ := Option.bind_eq_some_iff.1 hreport
    exact ⟨o, ho, report, hreport⟩
  choose o ho report hreport using hdone
  have hwants : ∀ i, (sampleCallers i).Wants sampleHash 2 3 := by
    have hbody : createRequest (some sampleBody)
        = .ok (((2 : UInt8).toNat, (3 : UInt8).toNat), sampleHash) := by decide +kernel
    intro i
    cases i
    · exact trivial
    · exact hbody
  have hready : sampleSite.Ready sampleVerifier sampleStores.1 :=
    ⟨⟨_, rfl⟩, ⟨samplePayer, 0, 0, 250⟩, by decide +kernel, fun _ => by decide⟩
  have hruns := Pool.runs_of_follows sampleLog (p := Pool.start sampleStores.1 fun i =>
    (sampleCallers i).talk samplePda idlCoder toBase58 sampleHash 2 3) serves_sampleLog
    fun i => follows_of_play (ho i)
  obtain ⟨-, -, hsuccess, -⟩ := creation_accounted idlCoder_encodes sampleSite hready sampleCallers
    hwants hruns
  exact ⟨_, fun i => ⟨o i, report i, rfl, hreport i, (hsuccess i _ _ rfl (hreport i)).1⟩,
    (hsuccess true _ _ rfl (hreport true)).2⟩

end Sample


end Relay

end Oblivia

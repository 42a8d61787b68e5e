import Oblivia.Chain.Counts
import Oblivia.Client.Transactions
import Oblivia.Lib.Quorum
/-!
# Agreements are quorums

An agreement's counter and flag, and the member accounts that name it, stand for one quorum of key
commitments (`Represents`): counting a member is the quorum taking its key. Every step keeps this
(`Effect.tallied`), so the counter never passes the threshold and `finalize_multisig` finds no
agreement to finalize.
-/

namespace Oblivia

open Finmap

variable {D : Pda} {groth16 : Groth16Verifier} {s s' : Store} {m : Pubkey}

/-- The agreement `ms` at `m`, with its members, stands for the quorum `q`. -/
structure Represents (s : Store) (m : Pubkey) (ms : MultiSigContract) (q : Quorum (Bytes 32)) :
    Prop where
  threshold : q.threshold = ms.threshold.toNat
  capacity : ms.threshold ≤ ms.maxSigners
  collected : q.keys.card = ms.signaturesCollected.toNat
  finalized : ms.finalized = true ↔ q.complete
  members : ∀ f, s.countWhere (memberWhere m f) = (q.keys.filter fun k => f k = true).card

theorem Represents.mem_keys {ms : MultiSigContract} {q : Quorum (Bytes 32)}
    (h : Represents s m ms q) {k : Bytes 32} : k ∈ q.keys ↔
      ∃ a mm, s.lookup a = some (.member mm) ∧ mm.multisig = m ∧ mm.keyCommitment = k := by
  have hc := h.members fun k' => k' = k
  have hz : s.countWhere (memberWhere m fun k' => k' = k) = 0 ↔ k ∉ q.keys := by
    rw [hc, Finset.card_eq_zero, Finset.filter_eq_empty_iff]
    simp only [decide_eq_true_eq]
    exact ⟨fun h hk => h hk rfl, fun h x hx hk => h (hk ▸ hx)⟩
  rw [← not_iff_not, ← hz, countWhere_eq_zero]
  simp only [← Bool.not_eq_true, memberWhere_eq_true, decide_eq_true_eq]
  constructor
  · rintro h ⟨a, mm, ha, hm, hk⟩
    exact h a _ ha ⟨mm, rfl, hm, hk⟩
  · rintro h a _ ha ⟨mm, rfl, hm, hk⟩
    exact h ⟨a, mm, ha, hm, hk⟩

theorem Represents.countWhere_memberOf {ms : MultiSigContract} {q : Quorum (Bytes 32)}
    (h : Represents s m ms q) : s.countWhere (memberOf m) = ms.signaturesCollected.toNat := by
  rw [memberOf, h.members, Finset.filter_true_of_mem (by simp), h.collected]

theorem Represents.collected_le {ms : MultiSigContract} {q : Quorum (Bytes 32)}
    (h : Represents s m ms q) : ms.signaturesCollected ≤ ms.threshold := by
  rw [UInt8.le_iff_toNat_le, ← h.collected, ← h.threshold]
  exact q.bounded

theorem Represents.finalized_iff {ms : MultiSigContract} {q : Quorum (Bytes 32)}
    (h : Represents s m ms q) :
    ms.finalized = true ↔ ms.signaturesCollected = ms.threshold := by
  rw [h.finalized, Quorum.complete, h.collected, h.threshold, UInt8.toNat_inj]

/-- The agreement at `m`, if there is one, stands for a quorum; the members that name it are at
their addresses, and there are none without it. -/
structure Tallied (D : Pda) (s : Store) (m : Pubkey) : Prop where
  member : ∀ a mm, s.lookup a = some (.member mm) → mm.multisig = m →
    (∃ b, D.findProgramAddress (.member m mm.keyCommitment) = some (a, b))
      ∧ ∃ ms, s.lookup m = some (.multisig ms)
  agreement : ∀ ms, s.lookup m = some (.multisig ms) → ∃ q, Represents s m ms q

/-- Nothing yet at `m`, and no member that names it. -/
structure Clear (s : Store) (m : Pubkey) : Prop where
  vacant : s.lookup m = none
  member : ∀ a mm, s.lookup a = some (.member mm) → mm.multisig ≠ m

theorem Clear.tallied (h : Clear s m) : Tallied D s m where
  member a mm ha hm := absurd hm (h.member a mm ha)
  agreement ms hms := by rw [h.vacant] at hms; cases hms

/-- A step that leaves the agreement and its members alone. -/
theorem Tallied.of_same (ht : Tallied D s m) (he : Extends s s')
    (ha : ∀ ms, s'.lookup m = some (.multisig ms) → s.lookup m = some (.multisig ms))
    (hm : ∀ a mm, s'.lookup a = some (.member mm) → mm.multisig = m →
      s.lookup a = some (.member mm))
    (hc : ∀ f, s'.countWhere (memberWhere m f) = s.countWhere (memberWhere m f)) :
    Tallied D s' m where
  member a mm hx hmm := by
    obtain ⟨hadr, ms, hms⟩ := ht.member a mm (hm a mm hx hmm) hmm
    obtain ⟨x, hx', hg⟩ := he m _ hms
    cases x <;> simp only [Account.Grows, reduceCtorEq] at hg
    exact ⟨hadr, _, hx'⟩
  agreement ms hms := by
    obtain ⟨q, hq⟩ := ht.agreement ms (ha ms hms)
    exact ⟨q, { hq with members := fun f => (hc f).trans (hq.members f) }⟩

theorem countWhere_eq_zero_of_vacant (ht : Tallied D s m)
    (h : ∀ ms, s.lookup m ≠ some (.multisig ms)) (f : Bytes 32 → Bool) :
    s.countWhere (memberWhere m f) = 0 := by
  rw [countWhere_eq_zero]
  intro a x ha
  by_contra hp
  rw [Bool.not_eq_false, memberWhere_eq_true] at hp
  obtain ⟨mm, rfl, hm, -⟩ := hp
  obtain ⟨-, ms, hms⟩ := ht.member a mm ha hm
  exact h ms hms

theorem lookup_createStore {acc : CreateMultiSig} {t n b : UInt8} :
    (createStore s acc t n b).lookup acc.multisig.key
      = some (.multisig (newMultisig acc t n b)) := by
  rw [createStore, lookup_insert]

theorem lookup_recordStore {rt : Runtime} {acc : RecordVerifiedMultiSig} {k : Bytes 32}
    {ms : MultiSigContract} {b : UInt8} :
    (recordStore rt s acc k ms b).lookup acc.multisig.key = some (.multisig (ms.counted rt)) := by
  rw [recordStore, lookup_insert]

/-- A created agreement stands for a quorum without keys. -/
theorem CreateGuard.represents {rt : Runtime} {acc : CreateMultiSig} {h : Bytes 32} {t n : UInt8}
    {c : Contract} {b : UInt8} (g : CreateGuard D rt s acc h t n c b)
    (ht : Tallied D s acc.multisig.key) :
    Represents (createStore s acc t n b) acc.multisig.key (newMultisig acc t n b)
      (.opened t.toNat (by simpa [UInt8.lt_iff_toNat_lt] using g.positive)) where
  threshold := rfl
  capacity := g.bounded
  collected := by simp [Quorum.opened, newMultisig]
  finalized := by
    have hpos : 0 < t.toNat := by simpa [UInt8.lt_iff_toNat_lt] using g.positive
    simp only [newMultisig, Bool.false_eq_true, Quorum.complete, Quorum.opened,
      Finset.card_empty, false_iff]
    omega
  members f := by
    rw [countWhere_createStore g, countWhere_eq_zero_of_vacant ht (by simp [g.multisig.free])]
    simp [memberWhere, Quorum.opened]

/-- Counting a member is the quorum taking its key. -/
theorem RecordGuard.represents {rt : Runtime} {acc : RecordVerifiedMultiSig} {h k : Bytes 32}
    {r : ContractRegistry} {c : Contract} {ms : MultiSigContract} {sr : SignerRecord}
    {sg : ObliviaSignature} {b : UInt8} (g : RecordGuard D rt s acc h k r c ms sr sg b)
    {q q' : Quorum (Bytes 32)} (hq : Represents s acc.multisig.key ms q)
    (hs : q.sign k = some q') :
    Represents (recordStore rt s acc k ms b) acc.multisig.key (ms.counted rt) q' := by
  obtain ⟨hk, hc, ht, hkeys⟩ := Quorum.sign_eq_some.1 hs
  have hcard : q'.keys.card = q.keys.card + 1 := by
    rw [hkeys, Finset.card_insert_of_notMem hk]
  have hsucc := toNat_add_one_u8 g.collected
  have hcol := hq.collected
  have hcounted : (ms.counted rt).signaturesCollected = ms.signaturesCollected + 1
      ∧ (ms.counted rt).threshold = ms.threshold
      ∧ (ms.counted rt).maxSigners = ms.maxSigners
      ∧ ((ms.counted rt).finalized = true ↔ ms.threshold ≤ ms.signaturesCollected + 1) := by
    unfold MultiSigContract.counted collect
    split_ifs with hge
    · exact ⟨rfl, rfl, rfl, by simpa using hge⟩
    · refine ⟨rfl, rfl, rfl, ?_⟩
      simp only [g.pending, Bool.false_eq_true, false_iff]
      exact hge
  obtain ⟨h₁, h₂, h₃, h₄⟩ := hcounted
  refine ⟨?_, ?_, ?_, ?_, fun f => ?_⟩
  · rw [ht, h₂, hq.threshold]
  · rw [h₂, h₃]; exact hq.capacity
  · rw [h₁, hsucc]; omega
  · have hb := q'.bounded
    have hth := hq.threshold
    rw [h₄, UInt8.le_iff_toNat_le, hsucc, Quorum.complete, ht]
    rw [ht] at hb
    omega
  · rw [countWhere_recordStore g (stable_memberWhere _ f), hq.members f, hkeys,
      Finset.filter_insert]
    cases hf : f k
    · simp [memberWhere, newMember, hf]
    · rw [if_pos rfl, Finset.card_insert_of_notMem (by simp [hk])]
      simp [memberWhere, newMember, hf]

/-- A member that is not there yet is a key the quorum has not. -/
theorem RecordGuard.sign {rt : Runtime} {acc : RecordVerifiedMultiSig} {h k : Bytes 32}
    {r : ContractRegistry} {c : Contract} {ms : MultiSigContract} {sr : SignerRecord}
    {sg : ObliviaSignature} {b : UInt8} (g : RecordGuard D rt s acc h k r c ms sr sg b)
    (ht : Tallied D s acc.multisig.key) {q : Quorum (Bytes 32)}
    (hq : Represents s acc.multisig.key ms q) : ∃ q', q.sign k = some q' := by
  refine Option.ne_none_iff_exists'.1 fun hn => ?_
  rcases Quorum.sign_eq_none.1 hn with hk | hc
  · obtain ⟨a, mm, ha, hm, rfl⟩ := hq.mem_keys.1 hk
    obtain ⟨⟨b', hb'⟩, -⟩ := ht.member a mm ha hm
    rw [g.member.address, Option.some.injEq, Prod.mk.injEq] at hb'
    have hfree := g.member.free
    rw [hb'.1, ha] at hfree
    cases hfree
  · have := hq.finalized.2 hc
    rw [g.pending] at this
    cases this

/-- No agreement that stands for a quorum is there to be finalized. -/
theorem FinalizeGuard.not_tallied {acc : FinalizeMultiSig} {h : Bytes 32} {c : Contract}
    {ms : MultiSigContract} (g : FinalizeGuard D s acc h c ms) :
    ¬ Tallied D s acc.multisig.key := by
  intro ht
  obtain ⟨q, hq⟩ := ht.agreement ms g.multisig
  have hle := hq.collected_le
  have hf := hq.finalized_iff.2 (UInt8.le_antisymm hle g.met)
  rw [g.pending] at hf
  cases hf

theorem Effect.tallied {call : Call} (h : Effect D groth16 s call s') (ht : Tallied D s m) :
    Tallied D s' m := by
  have he := h.extends
  have hw a x := h.written (a := a) (x := x)
  cases h with
  | initializeRegistry g =>
    exact ht.of_same he (fun ms hx => (hw _ _ hx).resolve_right (by rintro ⟨⟩))
      (fun a mm hx _ => (hw _ _ hx).resolve_right (by rintro ⟨⟩))
      fun f => by rw [countWhere_initializeStore g]; simp [memberWhere]
  | registerContract g =>
    exact ht.of_same he (fun ms hx => (hw _ _ hx).resolve_right (by rintro ⟨⟩))
      (fun a mm hx _ => (hw _ _ hx).resolve_right (by rintro ⟨⟩))
      fun f => by rw [countWhere_registerStore g (stable_memberWhere m f)]; simp [memberWhere]
  | verifySignature => exact ht
  | verifyGroth16V2 g =>
    exact ht.of_same he (fun ms hx => (hw _ _ hx).resolve_right (by rintro ⟨⟩))
      (fun a mm hx _ => (hw _ _ hx).resolve_right (by rintro ⟨⟩))
      fun f => by rw [countWhere_verifyStore g (stable_memberWhere m f)]; simp [memberWhere]
  | @createMultisig rt acc h t n c b g =>
    by_cases hm : acc.multisig.key = m
    · subst hm
      refine ⟨fun a mm hx hmm => ?_, fun ms hms => ?_⟩
      · have hs := (hw _ _ hx).resolve_right (by rintro ⟨⟩)
        obtain ⟨-, ms, hms⟩ := ht.member a mm hs hmm
        rw [g.multisig.free] at hms
        cases hms
      · rw [lookup_createStore, Option.some.injEq, Account.multisig.injEq] at hms
        exact ⟨_, hms ▸ g.represents ht⟩
    · refine ht.of_same he (fun ms hx => (hw _ _ hx).resolve_right ?_)
        (fun a mm hx _ => (hw _ _ hx).resolve_right (by rintro ⟨⟩))
        fun f => by rw [countWhere_createStore g]; simp [memberWhere]
      intro hwr
      cases hwr
      exact hm rfl
  | @recordVerifiedMultisig rt acc h k r c ms sr sg b g =>
    by_cases hm : acc.multisig.key = m
    · subst hm
      refine ⟨fun a mm hx hmm => ⟨?_, _, lookup_recordStore⟩, fun ms' hms => ?_⟩
      · rcases hw _ _ hx with hs | hwr
        · exact (ht.member a mm hs hmm).1
        · cases hwr with
          | member g' => exact ⟨_, g'.member.address⟩
      · rw [lookup_recordStore, Option.some.injEq, Account.multisig.injEq] at hms
        obtain ⟨q, hq⟩ := ht.agreement ms g.multisig
        obtain ⟨q', hs⟩ := g.sign ht hq
        exact ⟨q', hms ▸ g.represents hq hs⟩
    · refine ht.of_same he (fun ms hx => (hw _ _ hx).resolve_right ?_)
        (fun a mm hx hmm => (hw _ _ hx).resolve_right ?_)
        fun f => by
          rw [countWhere_recordStore g (stable_memberWhere m f)]
          simp [memberWhere, newMember, hm]
      · intro hwr
        cases hwr
        exact hm rfl
      · intro hwr
        cases hwr
        exact hm hmm
  | @finalizeMultisig rt acc h c ms g =>
    by_cases hm : acc.multisig.key = m
    · exact absurd (hm ▸ ht) g.not_tallied
    · refine ht.of_same he (fun ms hx => (hw _ _ hx).resolve_right ?_)
        (fun a mm hx _ => (hw _ _ hx).resolve_right (by rintro ⟨⟩))
        fun f => countWhere_finalizeStore g (stable_memberWhere m f)
      intro hwr
      cases hwr
      exact hm rfl

theorem Path.tallied {s₀ : Store} {js : List (Store × Call)} (h₀ : Tallied D s₀ m)
    (hp : Path D groth16 s₀ js s) : Tallied D s m :=
  hp.invariant (fun _ s => Tallied D s m) h₀ fun _ _ _ _ ht hc => (exec_eq_ok.1 hc).tallied ht

theorem Reachable.tallied (h : Reachable D groth16 s) (m : Pubkey) : Tallied D s m := by
  obtain ⟨js, hp⟩ := reachable_iff.1 h
  refine Path.tallied (Clear.tallied ⟨?_, ?_⟩) hp
  · exact lookup_empty m
  · simp

/-- An agreement that is open has room for one more key, in its settings and in its counter. -/
theorem Tallied.room {ms : MultiSigContract} (ht : Tallied D s m)
    (hms : s.lookup m = some (.multisig ms)) (hf : ms.finalized = false) :
    ms.signaturesCollected < ms.maxSigners ∧ ms.signaturesCollected ≠ 255 := by
  obtain ⟨q, hq⟩ := ht.agreement ms hms
  have hne : ms.signaturesCollected ≠ ms.threshold := fun h => by
    rw [hq.finalized_iff.2 h] at hf
    cases hf
  have hlt := UInt8.lt_of_le_of_ne hq.collected_le hne
  refine ⟨UInt8.lt_of_lt_of_le hlt hq.capacity, fun h => ?_⟩
  have := ms.threshold.toNat_lt
  rw [UInt8.lt_iff_toNat_lt, h] at hlt
  simp only [UInt8.reduceToNat] at hlt
  omega

theorem Represents.positive {ms : MultiSigContract} {q : Quorum (Bytes 32)}
    (h : Represents s m ms q) : 1 ≤ ms.threshold := by
  have hpos := q.positive
  rw [h.threshold] at hpos
  rw [UInt8.le_iff_toNat_le]
  exact hpos

/-- Two members with one key are one member. -/
theorem Tallied.member_unique (ht : Tallied D s m) {a a' : Pubkey} {mm mm' : MultiSigMember}
    (ha : s.lookup a = some (.member mm)) (ha' : s.lookup a' = some (.member mm'))
    (hm : mm.multisig = m) (hm' : mm'.multisig = m)
    (hk : mm.keyCommitment = mm'.keyCommitment) : a = a' := by
  obtain ⟨⟨b, hb⟩, -⟩ := ht.member a mm ha hm
  obtain ⟨⟨b', hb'⟩, -⟩ := ht.member a' mm' ha' hm'
  rw [hk, hb', Option.some.injEq, Prod.mk.injEq] at hb
  exact hb.1.symm

/-- An agreement of a reachable store: its settings are in range, its counter is the number of its
members, whose keys are distinct, it never passes the threshold, and meeting the threshold is being
finalized. So counting never overflows nor finds the agreement full, and `finalize_multisig`
succeeds nowhere, from the SDK or otherwise. -/
theorem agreement_invariant (D : Pda) (groth16 : Groth16Verifier) (txs : List (List Call)) :
    (∀ m ms, (run D groth16 ∅ txs).lookup m = some (.multisig ms) →
      1 ≤ ms.threshold ∧ ms.threshold ≤ ms.maxSigners
        ∧ ms.signaturesCollected.toNat = (run D groth16 ∅ txs).countWhere (memberOf m)
        ∧ (∀ a a' mm mm', (run D groth16 ∅ txs).lookup a = some (.member mm) →
          (run D groth16 ∅ txs).lookup a' = some (.member mm') → mm.multisig = m →
          mm'.multisig = m → mm.keyCommitment = mm'.keyCommitment → a = a')
        ∧ ms.signaturesCollected ≤ ms.threshold
        ∧ (ms.finalized = true ↔ ms.signaturesCollected = ms.threshold))
    ∧ (∀ rt acc h k,
      recordVerifiedMultisig D rt acc h k (run D groth16 ∅ txs) ≠ .error .arithmeticOverflow
        ∧ recordVerifiedMultisig D rt acc h k (run D groth16 ∅ txs) ≠ .error .duplicateSignature)
    ∧ (∀ rt acc h s', finalizeMultisig D rt acc h (run D groth16 ∅ txs) ≠ .ok s')
    ∧ ∀ rt h t n s', Sdk.finalizeMultisig D rt (run D groth16 ∅ txs) h t n
        ≠ .ok (some (.ok s')) := by
  have hs : Reachable D groth16 (run D groth16 ∅ txs) := ⟨txs, rfl⟩
  have ht m := hs.tallied m
  have hfin rt acc h s' : finalizeMultisig D rt acc h (run D groth16 ∅ txs) ≠ .ok s' := by
    intro hx
    obtain ⟨c, ms, g, -⟩ := finalizeMultisig_eq_ok.1 hx
    exact g.not_tallied (ht _)
  refine ⟨fun m ms hms => ?_, fun rt acc h k => ?_, hfin, fun rt h t n s' hx => ?_⟩
  · obtain ⟨q, hq⟩ := (ht m).agreement ms hms
    exact ⟨hq.positive, hq.capacity, hq.countWhere_memberOf.symm,
      fun a a' mm mm' ha ha' hm hm' hk => (ht m).member_unique ha ha' hm hm' hk,
      hq.collected_le, hq.finalized_iff⟩
  · have hroom e (he : e = .arithmeticOverflow ∨ e = .duplicateSignature) :
        recordVerifiedMultisig D rt acc h k (run D groth16 ∅ txs) ≠ .error e := by
      intro hx
      obtain ⟨ms, hms, hf, hfull⟩ := recordVerifiedMultisig_error he hx
      obtain ⟨h₁, h₂⟩ := (ht _).room hms hf
      rcases hfull with hle | heq
      · exact absurd (UInt8.lt_of_lt_of_le h₁ hle) (UInt8.lt_irrefl _)
      · exact h₂ heq
    exact ⟨hroom _ (.inl rfl), hroom _ (.inr rfl)⟩
  · simp only [Sdk.finalizeMultisig, Batch.bind_eq_ok] at hx
    obtain ⟨_, -, m, -, c, -, ms, -, hx⟩ := hx
    split at hx
    · cases hx
    · simp only [Batch.pure_eq_ok, Option.some.injEq] at hx
      exact hfin _ _ _ _ hx

end Oblivia

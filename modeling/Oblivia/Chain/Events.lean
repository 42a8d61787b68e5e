import Oblivia.Chain.CoSign
import Oblivia.Lib.Ledger
/-!
# The ledger of the program

The program keeps a ledger of contract hashes: an instruction that commits adds one event to it or
none (`Call.event`), the accounts of the store are what the ledger holds (`Refines`), and every
run is a history of it (`Path.refines`).
-/

namespace Oblivia

open Finmap

/-- What the address of an agreement is bound to. -/
structure Settings where
  contractHash : Bytes 32
  threshold : UInt8
  maxSigners : UInt8
  deriving DecidableEq

def Settings.derivation (a : Settings) : Derivation :=
  .multisig a.contractHash a.threshold a.maxSigners

def rules : Ledger.Rules (Bytes 32) Settings where
  admits h := h ≠ Bytes.zero 32
  about := Settings.contractHash
  threshold a := a.threshold.toNat
  valid a := 0 < a.threshold ∧ a.threshold ≤ a.maxSigners
  positive _ h := UInt8.lt_iff_toNat_lt.1 h.1

abbrev Event := Ledger.Event (Bytes 32) Settings (Bytes 32)

/-- What the call adds to the ledger, if it succeeds on `s`. -/
def Call.event (s : Store) (call : Call) : Option Event :=
  match call.ix with
  | .registerContract _ h => some (.register h)
  | .createMultisig _ h t n => some (.create ⟨h, t, n⟩)
  | .verifyGroth16V2 acc args => ((s.lookup acc.contract.key).bind Account.asContract).map
      fun c => .sign c.contractHash args.keyCommitment
  | .recordVerifiedMultisig acc h k => ((s.lookup acc.multisig.key).bind Account.asMultisig).map
      fun ms => .count ⟨h, ms.threshold, ms.maxSigners⟩ k
  | _ => none

/-- The events of the committed instructions. -/
def history (js : List (Store × Call)) : List Event := js.filterMap fun e => e.2.event e.1

variable {D : Pda} {groth16 : Groth16Verifier} {s s' : Store} {call : Call}

section Guards

variable {rt : Runtime}

theorem RegisterGuard.lookup_contract {acc : RegisterContract} {h : Bytes 32}
    {r : ContractRegistry} {b : UInt8} (g : RegisterGuard D rt s acc h r b) :
    (registerStore rt s acc h r b).lookup acc.contract.key
      = some (.contract (newContract rt h b)) := by
  rw [registerStore, lookup_insert_of_ne _ (g.contract.ne_of_lookup g.registry), lookup_insert]

theorem VerifyGuard.event {acc : VerifyGroth16V2} {args : ProofArgs} {r : ContractRegistry}
    {c : Contract} {sb rb : UInt8} (g : VerifyGuard D groth16 rt s acc args r c sb rb) :
    Call.event s ⟨rt, .verifyGroth16V2 acc args⟩
      = some (.sign c.contractHash args.keyCommitment) := by
  simp only [Call.event, g.contract, Option.bind_some, Account.asContract, Option.map_some]

theorem RecordGuard.event {acc : RecordVerifiedMultiSig} {h k : Bytes 32} {r : ContractRegistry}
    {c : Contract} {ms : MultiSigContract} {sr : SignerRecord} {sg : ObliviaSignature} {b : UInt8}
    (g : RecordGuard D rt s acc h k r c ms sr sg b) :
    Call.event s ⟨rt, .recordVerifiedMultisig acc h k⟩
      = some (.count ⟨h, ms.threshold, ms.maxSigners⟩ k) := by
  simp only [Call.event, g.multisig, Option.bind_some, Account.asMultisig, Option.map_some]

/-- The event names the agreement by its settings. -/
theorem RecordGuard.event_of_find {acc : RecordVerifiedMultiSig} {h k : Bytes 32}
    {r : ContractRegistry} {c : Contract} {ms : MultiSigContract} {sr : SignerRecord}
    {sg : ObliviaSignature} {b b' : UInt8} {a : Settings}
    (g : RecordGuard D rt s acc h k r c ms sr sg b)
    (hf : D.findProgramAddress a.derivation = some (acc.multisig.key, b')) :
    Call.event s ⟨rt, .recordVerifiedMultisig acc h k⟩ = some (.count a k) := by
  have hd := (Pda.derivation_inj (Pda.derive_of_find hf) g.multisigAddress).1
  rw [Settings.derivation, Derivation.multisig.injEq] at hd
  rw [g.event, ← hd.1, ← hd.2.1, ← hd.2.2]

end Guards

def Registered (D : Pda) (s : Store) (h : Bytes 32) : Prop :=
  ∃ c, StoredAt D s (.contract h) (.contract c)

def Signed (D : Pda) (s : Store) (h k : Bytes 32) : Prop :=
  ∃ sr, StoredAt D s (.signerRecord h k) (.signerRecord sr)

/-- The agreement is at its address, with its members the quorum `q`. -/
def Agreed (D : Pda) (s : Store) (a : Settings) (q : Quorum (Bytes 32)) : Prop :=
  ∃ m b ms, D.findProgramAddress a.derivation = some (m, b)
    ∧ s.lookup m = some (.multisig ms) ∧ Represents s m ms q

/-- The contract accounts of a later store: those there were, and the one just registered. -/
theorem Effect.registered_iff (he : Effect D groth16 s call s') {h : Bytes 32} :
    Registered D s' h ↔ Registered D s h ∨ call.event s = some (.register h) := by
  constructor
  · rintro ⟨c, a, b, hf, hc⟩
    rcases he.written hc with hold | hw
    · exact .inl ⟨c, a, b, hf, hold⟩
    · cases hw with
      | contract g =>
        have hd := Pda.find_inj hf g.contract.address
        rw [Derivation.contract.injEq] at hd
        exact .inr (hd ▸ rfl)
      | contractSigned g => exact .inl ⟨_, _, b, hf, g.contract⟩
  · rintro (⟨c, a, b, hf, hc⟩ | hev)
    · obtain ⟨c', hc', -⟩ := he.extends.contract hc
      exact ⟨c', a, b, hf, hc'⟩
    · cases he with
      | registerContract g =>
        simp only [Call.event, Option.some.injEq, Ledger.Event.register.injEq] at hev
        subst hev
        exact ⟨_, _, _, g.contract.address, g.lookup_contract⟩
      | verifyGroth16V2 g => rw [g.event] at hev; cases hev
      | recordVerifiedMultisig g => rw [g.event] at hev; cases hev
      | _ => cases hev

/-- The signer records of a later store: those there were, and the one just made. -/
theorem Effect.signed_iff (he : Effect D groth16 s call s') {h k : Bytes 32} :
    Signed D s' h k ↔ Signed D s h k ∨ call.event s = some (.sign h k) := by
  constructor
  · rintro ⟨sr, a, b, hf, hsr⟩
    rcases he.written hsr with hold | hw
    · exact .inl ⟨sr, a, b, hf, hold⟩
    · cases hw with
      | signerRecord g =>
        have hd := Pda.find_inj hf g.signerRecord.address
        rw [Derivation.signerRecord.injEq] at hd
        rw [g.event, hd.1, hd.2]
        exact .inr rfl
  · rintro (⟨sr, a, b, hf, hsr⟩ | hev)
    · exact ⟨sr, a, b, hf, he.extends.signerRecord hsr⟩
    · cases he with
      | verifyGroth16V2 g =>
        rw [g.event, Option.some.injEq, Ledger.Event.sign.injEq] at hev
        rw [← hev.1, ← hev.2]
        exact ⟨_, _, _, g.signerRecord.address, g.lookup_signerRecord⟩
      | recordVerifiedMultisig g => rw [g.event] at hev; cases hev
      | _ => cases hev

section Stored

variable {rt : Runtime}

/-- An agreement is about a contract that is registered. -/
theorem CreateGuard.registered {acc : CreateMultiSig} {h : Bytes 32} {t n : UInt8} {c : Contract}
    {b : UInt8} (g : CreateGuard D rt s acc h t n c b) (hs : Reachable D groth16 s) :
    Registered D s h := by
  cases hs.sound.placed _ _ g.contract with
  | contract hc _ _ =>
    have hd := (Pda.derivation_inj (Pda.derive_of_find hc) g.contractAddress).1
    rw [Derivation.contract.injEq] at hd
    exact ⟨c, _, _, hd ▸ hc, g.contract⟩

theorem CreateGuard.not_agreed {acc : CreateMultiSig} {h : Bytes 32} {t n : UInt8} {c : Contract}
    {b : UInt8} {q : Quorum (Bytes 32)} (g : CreateGuard D rt s acc h t n c b) :
    ¬ Agreed D s ⟨h, t, n⟩ q :=
  fun ⟨m, b', _, hf, hms, _⟩ => g.multisig.not_storedAt ⟨m, b', hf, hms⟩

theorem VerifyGuard.registered {acc : VerifyGroth16V2} {args : ProofArgs} {r : ContractRegistry}
    {c : Contract} {sb rb : UInt8} (g : VerifyGuard D groth16 rt s acc args r c sb rb)
    (hs : Reachable D groth16 s) : Registered D s c.contractHash := by
  cases hs.sound.placed _ _ g.contract with
  | contract hc _ _ => exact ⟨c, _, _, hc, g.contract⟩

/-- A key that is counted has signed the contract. -/
theorem RecordGuard.signed {acc : RecordVerifiedMultiSig} {h k : Bytes 32} {r : ContractRegistry}
    {c : Contract} {ms : MultiSigContract} {sr : SignerRecord} {sg : ObliviaSignature} {b : UInt8}
    (g : RecordGuard D rt s acc h k r c ms sr sg b) (hs : Reachable D groth16 s) :
    Signed D s h k := by
  cases hs.sound.placed _ _ g.signerRecord with
  | signerRecord _ ha _ _ =>
    have hd := (Pda.derivation_inj (Pda.derive_of_find ha) g.signerRecordAddress).1
    rw [Derivation.signerRecord.injEq] at hd
    rw [hd.1, hd.2] at ha
    exact ⟨sr, _, _, ha, g.signerRecord⟩

end Stored

section Agreed

variable {a : Settings} {q q' : Quorum (Bytes 32)} {m : Pubkey}

theorem Represents.unique {ms : MultiSigContract} (h : Represents s m ms q)
    (h' : Represents s m ms q') : q = q' := by
  have ht := h.threshold.trans h'.threshold.symm
  have hk : q.keys = q'.keys := Finset.ext fun k => h.mem_keys.trans h'.mem_keys.symm
  cases q
  cases q'
  simp only at ht hk
  subst ht hk
  rfl

theorem Agreed.unique (h : Agreed D s a q) (h' : Agreed D s a q') : q = q' := by
  obtain ⟨m, b, ms, hf, hms, hq⟩ := h
  obtain ⟨m', b', ms', hf', hms', hq'⟩ := h'
  rw [hf, Option.some.injEq, Prod.mk.injEq] at hf'
  obtain ⟨rfl, -⟩ := hf'
  rw [hms, Option.some.injEq, Account.multisig.injEq] at hms'
  exact hq.unique (hms' ▸ hq')

/-- Members are added to an agreement by counting for it alone. -/
theorem Effect.countWhere_memberWhere (he : Effect D groth16 s call s')
    (hne : ∀ acc h k, call.ix = .recordVerifiedMultisig acc h k → acc.multisig.key ≠ m)
    (f : Bytes 32 → Bool) :
    s'.countWhere (memberWhere m f) = s.countWhere (memberWhere m f) := by
  have hst := stable_memberWhere m f
  cases he with
  | initializeRegistry g => rw [countWhere_initializeStore g]; simp [memberWhere]
  | registerContract g => rw [countWhere_registerStore g hst]; simp [memberWhere]
  | verifySignature => rfl
  | verifyGroth16V2 g => rw [countWhere_verifyStore g hst]; simp [memberWhere]
  | createMultisig g => rw [countWhere_createStore g]; simp [memberWhere]
  | recordVerifiedMultisig g =>
    rw [countWhere_recordStore g hst]
    simp [memberWhere, newMember, hne _ _ _ rfl]
  | finalizeMultisig g => exact countWhere_finalizeStore g hst

/-- A step that neither creates the agreement nor counts for it leaves it as it was. -/
theorem Effect.agreed_iff (he : Effect D groth16 s call s') (hs : Reachable D groth16 s)
    (hc : call.event s ≠ some (.create a)) (hk : ∀ k, call.event s ≠ some (.count a k)) :
    Agreed D s' a q ↔ Agreed D s a q := by
  have hsame m b (hf : D.findProgramAddress a.derivation = some (m, b)) :
      (∀ ms, s'.lookup m = some (.multisig ms) ↔ s.lookup m = some (.multisig ms))
        ∧ ∀ f, s'.countWhere (memberWhere m f) = s.countWhere (memberWhere m f) := by
    have hold ms (hms : s'.lookup m = some (.multisig ms)) :
        s.lookup m = some (.multisig ms) := by
      refine (he.written hms).resolve_right fun hw => ?_
      cases hw with
      | multisig g =>
        have hd := Pda.find_inj hf g.multisig.address
        rw [Settings.derivation, Derivation.multisig.injEq] at hd
        obtain ⟨h₁, h₂, h₃⟩ := hd
        exact hc (h₁ ▸ h₂ ▸ h₃ ▸ rfl)
      | counted g => exact hk _ (g.event_of_find hf)
      | closed g => exact g.not_tallied (hs.tallied _)
    refine ⟨fun ms => ⟨hold ms, fun hms => ?_⟩, he.countWhere_memberWhere ?_⟩
    · obtain ⟨ms', hms', hg⟩ := he.extends.multisig hms
      have := hold ms' hms'
      rw [hms, Option.some.injEq, Account.multisig.injEq] at this
      rwa [this]
    · rintro acc h k hix rfl
      cases he with
      | recordVerifiedMultisig g =>
        cases hix
        exact hk k (g.event_of_find hf)
      | _ => cases hix
  constructor
  · rintro ⟨m, b, ms, hf, hms, hq⟩
    obtain ⟨hl, hcw⟩ := hsame m b hf
    exact ⟨m, b, ms, hf, (hl ms).1 hms,
      { hq with members := fun f => (hcw f).symm.trans (hq.members f) }⟩
  · rintro ⟨m, b, ms, hf, hms, hq⟩
    obtain ⟨hl, hcw⟩ := hsame m b hf
    exact ⟨m, b, ms, hf, (hl ms).2 hms,
      { hq with members := fun f => (hcw f).trans (hq.members f) }⟩

/-- A created agreement is a quorum without keys. -/
theorem CreateGuard.agreed {rt : Runtime} {acc : CreateMultiSig} {h : Bytes 32} {t n : UInt8}
    {c : Contract} {b : UInt8} (g : CreateGuard D rt s acc h t n c b)
    (hs : Reachable D groth16 s) (hp : 0 < t.toNat) :
    Agreed D (createStore s acc t n b) ⟨h, t, n⟩ (.opened t.toNat hp) :=
  ⟨_, _, _, g.multisig.address, lookup_createStore, g.represents (hs.tallied _)⟩

/-- Counting a key is the quorum taking it. -/
theorem RecordGuard.agreed {rt : Runtime} {acc : RecordVerifiedMultiSig} {h k : Bytes 32}
    {r : ContractRegistry} {c : Contract} {ms : MultiSigContract} {sr : SignerRecord}
    {sg : ObliviaSignature} {b : UInt8} (g : RecordGuard D rt s acc h k r c ms sr sg b)
    (hs : Reachable D groth16 s) :
    ∃ q q', Agreed D s ⟨h, ms.threshold, ms.maxSigners⟩ q ∧ q.sign k = some q'
      ∧ Agreed D (recordStore rt s acc k ms b) ⟨h, ms.threshold, ms.maxSigners⟩ q' := by
  obtain ⟨q, hq⟩ := (hs.tallied _).agreement ms g.multisig
  obtain ⟨q', hk⟩ := g.sign (hs.tallied _) hq
  obtain ⟨b', hf⟩ : ∃ b', D.findProgramAddress (.multisig h ms.threshold ms.maxSigners)
      = some (acc.multisig.key, b') := by
    cases hs.sound.placed _ _ g.multisig with
    | multisig hc ha =>
      have hd := (Pda.derivation_inj (Pda.derive_of_find ha) g.multisigAddress).1
      rw [Derivation.multisig.injEq] at hd
      exact ⟨_, hd.1 ▸ ha⟩
  exact ⟨q, q', ⟨_, _, _, hf, g.multisig, hq⟩, hk,
    ⟨_, _, _, hf, lookup_recordStore, g.represents hq hk⟩⟩

end Agreed

/-- The accounts of the store are what the ledger holds. -/
structure Refines (D : Pda) (s : Store) (L : Ledger rules (Bytes 32)) : Prop where
  registered : ∀ h, h ∈ L.registered ↔ Registered D s h
  signed : ∀ h k, k ∈ L.signed h ↔ Signed D s h k
  agreements : ∀ a q, L.agreements a = some q ↔ Agreed D s a q

section Simulation

variable {L : Ledger rules (Bytes 32)}

/-- A step without an event leaves the ledger as it was. -/
theorem Refines.stutter (hr : Refines D s L) (he : Effect D groth16 s call s')
    (hs : Reachable D groth16 s) (hev : call.event s = none) : Refines D s' L where
  registered h := by rw [he.registered_iff, hev, hr.registered h]; simp
  signed h k := by rw [he.signed_iff, hev, hr.signed h k]; simp
  agreements a q := by rw [he.agreed_iff hs (by simp [hev]) (by simp [hev]), hr.agreements a q]

/-- What the other agreements of the ledger hold is what the store has. -/
theorem Refines.agreements_of_ne (hr : Refines D s L) (he : Effect D groth16 s call s')
    (hs : Reachable D groth16 s) {a : Settings} (hc : call.event s ≠ some (.create a))
    (hk : ∀ k, call.event s ≠ some (.count a k)) {q : Quorum (Bytes 32)} :
    L.agreements a = some q ↔ Agreed D s' a q := by
  rw [he.agreed_iff hs hc hk, hr.agreements a q]

section Steps

variable {h k : Bytes 32} {a : Settings}

/-- A registration is taken by the ledger if the hash is new. -/
theorem Refines.register (hr : Refines D s L) (he : Effect D groth16 s call s')
    (hs : Reachable D groth16 s) (hev : call.event s = some (.register h))
    (hz : h ≠ Bytes.zero 32) (hn : ¬ Registered D s h) :
    ∃ L', L.Step (.register h) L' ∧ Refines D s' L' := by
  rw [← hr.registered] at hn
  refine ⟨_, .register hz hn, fun x => ?_, fun x k => ?_, fun a q => ?_⟩
  · rw [he.registered_iff, hev, ← hr.registered x, Ledger.registered_register]
    simp [or_comm, eq_comm]
  · rw [he.signed_iff, hev, ← hr.signed x k, Ledger.signed_register]
    simp
  · exact hr.agreements_of_ne he hs (by simp [hev]) (by simp [hev])

/-- A creation is taken by the ledger if its contract is registered and the agreement is new. -/
theorem Refines.create (hr : Refines D s L) (he : Effect D groth16 s call s')
    (hs : Reachable D groth16 s) (hev : call.event s = some (.create a)) (hv : rules.valid a)
    (hb : Registered D s (rules.about a)) (hn : ∀ q, ¬ Agreed D s a q)
    (hnew : Agreed D s' a (.opened (rules.threshold a) (rules.positive a hv))) :
    ∃ L', L.Step (.create a) L' ∧ Refines D s' L' := by
  have hnone : L.agreements a = none :=
    Option.eq_none_iff_forall_ne_some.2 fun q hq => hn q ((hr.agreements a q).1 hq)
  rw [← hr.registered] at hb
  refine ⟨_, .create hv hb hnone, fun x => ?_, fun x k => ?_, fun c q => ?_⟩
  · rw [he.registered_iff, hev, Ledger.registered_create, hr.registered x]
    simp
  · rw [he.signed_iff, hev, Ledger.signed_create, hr.signed x k]
    simp
  · rw [Ledger.agreements_create]
    by_cases hc : c = a
    · subst hc
      rw [Function.update_self, Option.some.injEq]
      exact ⟨fun hq => hq ▸ hnew, fun hq => hnew.unique hq⟩
    · rw [Function.update_of_ne hc]
      exact hr.agreements_of_ne he hs (by simpa [hev, eq_comm] using hc) (by simp [hev])

/-- A signature is taken by the ledger if its contract is registered and the key new to it. -/
theorem Refines.sign (hr : Refines D s L) (he : Effect D groth16 s call s')
    (hs : Reachable D groth16 s) (hev : call.event s = some (.sign h k))
    (hb : Registered D s h) (hn : ¬ Signed D s h k) :
    ∃ L', L.Step (.sign h k) L' ∧ Refines D s' L' := by
  rw [← hr.registered] at hb
  rw [← hr.signed] at hn
  refine ⟨_, .sign hb hn, fun x => ?_, fun x k => ?_, fun a q => ?_⟩
  · rw [he.registered_iff, hev, Ledger.registered_sign, hr.registered x]
    simp
  · rw [he.signed_iff, hev, Ledger.signed_sign, ← hr.signed x k]
    by_cases hx : x = h
    · subst hx
      simp [or_comm, eq_comm]
    · simp [hx, Ne.symm hx]
  · exact hr.agreements_of_ne he hs (by simp [hev]) (by simp [hev])

/-- A count is taken by the ledger if the key signed the contract and the quorum takes it. -/
theorem Refines.count (hr : Refines D s L) (he : Effect D groth16 s call s')
    (hs : Reachable D groth16 s) (hev : call.event s = some (.count a k))
    {q q' : Quorum (Bytes 32)} (hq : Agreed D s a q) (hb : Signed D s (rules.about a) k)
    (hk : q.sign k = some q') (hq' : Agreed D s' a q') :
    ∃ L', L.Step (.count a k) L' ∧ Refines D s' L' := by
  rw [← hr.agreements] at hq
  rw [← hr.signed] at hb
  refine ⟨_, .count hq hb hk, fun x => ?_, fun x k => ?_, fun c p => ?_⟩
  · rw [he.registered_iff, hev, Ledger.registered_count, hr.registered x]
    simp
  · rw [he.signed_iff, hev, Ledger.signed_count, hr.signed x k]
    simp
  · rw [Ledger.agreements_count]
    by_cases hc : c = a
    · subst hc
      rw [Function.update_self, Option.some.injEq]
      exact ⟨fun hp => hp ▸ hq', fun hp => hq'.unique hp⟩
    · rw [Function.update_of_ne hc]
      exact hr.agreements_of_ne he hs (by simp [hev]) (by simpa [hev, eq_comm] using hc)

end Steps

/-- A step with an event is the event taken by the ledger. -/
theorem Refines.step (hr : Refines D s L) (he : Effect D groth16 s call s')
    (hs : Reachable D groth16 s) {e : Event} (hev : call.event s = some e) :
    ∃ L', L.Step e L' ∧ Refines D s' L' := by
  have hstep := he
  cases he with
  | registerContract g =>
    cases hev
    exact hr.register hstep hs rfl g.nonzero fun ⟨_, hc⟩ => g.contract.not_storedAt hc
  | createMultisig g =>
    cases hev
    exact hr.create hstep hs rfl ⟨g.positive, g.bounded⟩ (g.registered hs) (fun _ => g.not_agreed)
      (g.agreed hs _)
  | verifyGroth16V2 g =>
    rw [g.event, Option.some.injEq] at hev
    subst hev
    exact hr.sign hstep hs g.event (g.registered hs) fun ⟨_, hsr⟩ =>
      g.signerRecord.not_storedAt hsr
  | recordVerifiedMultisig g =>
    rw [g.event, Option.some.injEq] at hev
    subst hev
    obtain ⟨q, q', hq, hk, hq'⟩ := g.agreed hs
    exact hr.count hstep hs g.event hq (g.signed hs) hk hq'
  | _ => cases hev

end Simulation

end Oblivia

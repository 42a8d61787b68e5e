import Oblivia.Chain.Counts
/-!
# Reachable stores

Where the accounts of a reachable store are, and how they refer to each other (`Placed`): every
account is at the address its fields derive, a receipt and its signer record come in pairs with
equal contract, key and time, and an agreement and its members name accounts that exist. A contract
has one receipt for each key (`Sound.unique`), and counts them (`Sound.counted`).
-/

namespace Oblivia

open Finmap

variable {D : Pda} {groth16 : Groth16Verifier} {s s' : Store}

/-- A receipt and a signer record made together. -/
structure Paired (sg : ObliviaSignature) (sr : SignerRecord) : Prop where
  contract : sr.contract = sg.contract
  keyCommitment : sr.keyCommitment = sg.keyCommitment
  timestamp : sr.timestamp = sg.timestamp

/-- The account is where its fields say, and what it names is there. -/
inductive Placed (D : Pda) (s : Store) (a : Pubkey) : Account → Prop
  | registry {r : ContractRegistry} (address : D.findProgramAddress .registry = some (a, r.bump)) :
      Placed D s a (.registry r)
  | contract {c : Contract}
      (address : D.findProgramAddress (.contract c.contractHash) = some (a, c.bump))
      (active : c.active = true) (nonzero : c.contractHash ≠ Bytes.zero 32) :
      Placed D s a (.contract c)
  | signature {sg : ObliviaSignature} {c : Contract} {sr : SignerRecord} {ra : Pubkey}
      (address : D.findProgramAddress (.signature sg.contract sg.keyCommitment
        sg.signatureCommitment) = some (a, sg.bump))
      (contract : s.lookup sg.contract = some (.contract c))
      (record : s.lookup ra = some (.signerRecord sr))
      (recordAddress : D.findProgramAddress (.signerRecord c.contractHash sg.keyCommitment)
        = some (ra, sr.bump))
      (paired : Paired sg sr) : Placed D s a (.signature sg)
  | signerRecord {sr : SignerRecord} {c : Contract} {sg : ObliviaSignature} {ga : Pubkey}
      (contract : s.lookup sr.contract = some (.contract c))
      (address : D.findProgramAddress (.signerRecord c.contractHash sr.keyCommitment)
        = some (a, sr.bump))
      (receipt : s.lookup ga = some (.signature sg)) (paired : Paired sg sr) :
      Placed D s a (.signerRecord sr)
  | multisig {ms : MultiSigContract} {c : Contract}
      (contract : s.lookup ms.contract = some (.contract c))
      (address : D.findProgramAddress (.multisig c.contractHash ms.threshold ms.maxSigners)
        = some (a, ms.bump)) : Placed D s a (.multisig ms)
  | member {mm : MultiSigMember} {ms : MultiSigContract} {sg : ObliviaSignature} {ga : Pubkey}
      (multisig : s.lookup mm.multisig = some (.multisig ms))
      (address : D.findProgramAddress (.member mm.multisig mm.keyCommitment) = some (a, mm.bump))
      (receipt : s.lookup ga = some (.signature sg)) (contract : sg.contract = ms.contract)
      (key : sg.keyCommitment = mm.keyCommitment) : Placed D s a (.member mm)

theorem Placed.mono {a : Pubkey} {x : Account} (h : Placed D s a x) (he : Extends s s') :
    Placed D s' a x := by
  cases h with
  | registry h => exact .registry h
  | contract h ha hz => exact .contract h ha hz
  | signature h hc hr hra hp =>
    obtain ⟨c', hc', hh, -⟩ := he.contract hc
    exact .signature h hc' (he.signerRecord hr) (hh ▸ hra) hp
  | signerRecord hc h hs hp =>
    obtain ⟨c', hc', hh, -⟩ := he.contract hc
    exact .signerRecord hc' (hh ▸ h) (he.signature hs) hp
  | multisig hc h =>
    obtain ⟨c', hc', hh, -⟩ := he.contract hc
    exact .multisig hc' (hh ▸ h)
  | member hm h hs hc hk =>
    obtain ⟨ms', hms', hh, -⟩ := he.multisig hm
    exact .member hms' h (he.signature hs) (hc.trans hh.symm) hk

theorem lookup_verifyStore_registry {rt : Runtime} {acc : VerifyGroth16V2} {args : ProofArgs}
    {r : ContractRegistry} {c : Contract} {sb rb : UInt8} :
    (verifyStore rt s acc args r c sb rb).lookup acc.registry.key = some (.registry r.signed) := by
  rw [verifyStore, lookup_insert]

theorem lookup_verifyStore_other {rt : Runtime} {acc : VerifyGroth16V2} {args : ProofArgs}
    {r : ContractRegistry} {c : Contract} {sb rb : UInt8} {a : Pubkey}
    (h₁ : a ≠ acc.registry.key) (h₂ : a ≠ acc.contract.key) (h₃ : a ≠ acc.signerRecord.key)
    (h₄ : a ≠ acc.signature.key) :
    (verifyStore rt s acc args r c sb rb).lookup a = s.lookup a := by
  rw [verifyStore, lookup_insert_of_ne _ h₁, lookup_insert_of_ne _ h₂, lookup_insert_of_ne _ h₃,
    lookup_insert_of_ne _ h₄]

section Verify

variable {rt : Runtime} {acc : VerifyGroth16V2} {args : ProofArgs} {r : ContractRegistry}
  {c : Contract} {sb rb : UInt8} (g : VerifyGuard D groth16 rt s acc args r c sb rb)
include g

theorem VerifyGuard.lookup_contract :
    (verifyStore rt s acc args r c sb rb).lookup acc.contract.key = some (.contract c.signed) := by
  rw [verifyStore, lookup_insert_of_ne _ g.registry_ne.symm, lookup_insert]

theorem VerifyGuard.lookup_signerRecord :
    (verifyStore rt s acc args r c sb rb).lookup acc.signerRecord.key
      = some (.signerRecord (newSignerRecord rt acc args rb)) := by
  rw [verifyStore, lookup_insert_of_ne _ (g.signerRecord.ne_of_lookup g.registry),
    lookup_insert_of_ne _ (g.signerRecord.ne_of_lookup g.contract), lookup_insert]

theorem VerifyGuard.lookup_signature :
    (verifyStore rt s acc args r c sb rb).lookup acc.signature.key
      = some (.signature (newSignature rt acc args sb)) := by
  rw [verifyStore, lookup_insert_of_ne _ (g.signature.ne_of_lookup g.registry),
    lookup_insert_of_ne _ (g.signature.ne_of_lookup g.contract),
    lookup_insert_of_ne _ (g.signature.ne g.signerRecord (by simp)), lookup_insert]

end Verify

theorem Effect.det {call : Call} {s₁ s₂ : Store} (h₁ : Effect D groth16 s call s₁)
    (h₂ : Effect D groth16 s call s₂) : s₁ = s₂ := by
  have h := (exec_eq_ok.2 h₁).symm.trans (exec_eq_ok.2 h₂)
  rwa [Except.ok.injEq] at h

/-- An address derives from one contract hash. -/
theorem Placed.contractHash_eq {a : Pubkey} {c : Contract} {h : Bytes 32} {b : UInt8}
    (hp : Placed D s a (.contract c)) (ha : D.derive (.contract h) b = some a) :
    c.contractHash = h := by
  cases hp with
  | contract hf _ _ =>
    have hd := (Pda.derivation_inj (Pda.derive_of_find hf) ha).1
    rwa [Derivation.contract.injEq] at hd

theorem Effect.placed {call : Call} (h : Effect D groth16 s call s')
    (hs : ∀ a x, s.lookup a = some x → Placed D s a x) {a : Pubkey} {x : Account}
    (hx : s'.lookup a = some x) : Placed D s' a x := by
  have he := h.extends
  rcases h.written hx with hold | hw
  · exact (hs a x hold).mono he
  cases hw with
  | registry g => exact .registry g.registry.address
  | contract g => exact .contract g.contract.address rfl g.nonzero
  | registered g =>
    cases hs _ _ g.registry with
    | registry hr => exact .registry hr
  | registrySigned g =>
    cases hs _ _ g.registry with
    | registry hr => exact .registry hr
  | contractSigned g =>
    cases hs _ _ g.contract with
    | contract hc ha hz => exact .contract hc ha hz
  | multisig g =>
    have hh := (hs _ _ g.contract).contractHash_eq g.contractAddress
    obtain ⟨c', hc', hh', -⟩ := he.contract g.contract
    refine .multisig hc' ?_
    rw [hh', hh]
    exact g.multisig.address
  | signature g =>
    obtain rfl := h.det (.verifyGroth16V2 g)
    exact .signature g.signature.address g.lookup_contract g.lookup_signerRecord
      g.signerRecord.address ⟨rfl, rfl, rfl⟩
  | signerRecord g =>
    obtain rfl := h.det (.verifyGroth16V2 g)
    exact .signerRecord g.lookup_contract g.signerRecord.address g.lookup_signature
      ⟨rfl, rfl, rfl⟩
  | member g =>
    obtain ⟨ms', hms', hc, -⟩ := he.multisig g.multisig
    exact .member hms' g.member.address (he.signature g.signature)
      (by rw [g.signatureBound, hc, g.multisigBound]) g.signatureKey
  | @counted rt acc h k r c ms sr sg b g =>
    cases hs _ _ g.multisig with
    | multisig hc ha =>
      obtain ⟨c', hc', hh, -⟩ := he.contract hc
      have hsame : (ms.counted rt).contract = ms.contract
          ∧ (ms.counted rt).threshold = ms.threshold
          ∧ (ms.counted rt).maxSigners = ms.maxSigners ∧ (ms.counted rt).bump = ms.bump := by
        unfold MultiSigContract.counted collect
        split_ifs <;> exact ⟨rfl, rfl, rfl, rfl⟩
      obtain ⟨h₁, h₂, h₃, h₄⟩ := hsame
      refine .multisig (h₁ ▸ hc') ?_
      rw [h₂, h₃, h₄, hh]
      exact ha
  | closed g =>
    cases hs _ _ g.multisig with
    | multisig hc ha =>
      obtain ⟨c', hc', hh, -⟩ := he.contract hc
      refine .multisig hc' ?_
      rw [hh]
      exact ha

/-- What holds of every reachable store. -/
structure Sound (D : Pda) (s : Store) : Prop where
  placed : ∀ a x, s.lookup a = some x → Placed D s a x
  unique : ∀ a a' sg sg', s.lookup a = some (.signature sg) → s.lookup a' = some (.signature sg') →
    sg.contract = sg'.contract → sg.keyCommitment = sg'.keyCommitment → a = a'
  counted : ∀ a c, s.lookup a = some (.contract c) →
    c.signatureCount.toNat = s.countWhere (receiptOf a)

/-- A key whose signer record is not there yet has no receipt on the contract. -/
theorem VerifyGuard.no_receipt {rt : Runtime} {acc : VerifyGroth16V2} {args : ProofArgs}
    {r : ContractRegistry} {c : Contract} {sb rb : UInt8}
    (g : VerifyGuard D groth16 rt s acc args r c sb rb) (hs : Sound D s) {a : Pubkey}
    {sg : ObliviaSignature} (ha : s.lookup a = some (.signature sg))
    (hc : sg.contract = acc.contract.key) : sg.keyCommitment ≠ args.keyCommitment := by
  intro hk
  cases hs.placed a _ ha with
  | signature _ hcon hrec hra _ =>
    rw [hc, g.contract, Option.some.injEq, Account.contract.injEq] at hcon
    rw [hk, ← hcon, g.signerRecord.address, Option.some.injEq, Prod.mk.injEq] at hra
    exact g.signerRecord.ne_of_lookup hrec hra.1

theorem Effect.unique {call : Call} (h : Effect D groth16 s call s') (hs : Sound D s)
    {a a' : Pubkey} {sg sg' : ObliviaSignature} (ha : s'.lookup a = some (.signature sg))
    (ha' : s'.lookup a' = some (.signature sg')) (hc : sg.contract = sg'.contract)
    (hk : sg.keyCommitment = sg'.keyCommitment) : a = a' := by
  rcases h.written ha with hold | hw <;> rcases h.written ha' with hold' | hw'
  · exact hs.unique a a' sg sg' hold hold' hc hk
  · cases hw' with
    | signature g => exact absurd hk (g.no_receipt hs hold hc)
  · cases hw with
    | signature g => exact absurd hk.symm (g.no_receipt hs hold' hc.symm)
  · cases hw with
    | signature g =>
      cases hw' with
      | signature g' => rfl

theorem countWhere_receiptOf_free (hs : Sound D s) {a : Pubkey} (ha : s.lookup a = none) :
    s.countWhere (receiptOf a) = 0 := by
  rw [countWhere_eq_zero]
  intro b x hb
  by_contra hp
  rw [Bool.not_eq_false, receiptOf_eq_true] at hp
  obtain ⟨sg, rfl, hsg⟩ := hp
  cases hs.placed b _ hb with
  | signature _ hcon _ _ _ =>
    rw [hsg, ha] at hcon
    cases hcon

theorem Effect.counted {call : Call} (h : Effect D groth16 s call s') (hs : Sound D s)
    {a : Pubkey} {c : Contract} (ha : s'.lookup a = some (.contract c)) :
    c.signatureCount.toNat = s'.countWhere (receiptOf a) := by
  have hst := stable_receiptOf a
  have hw := h.written ha
  cases h with
  | initializeRegistry g =>
    rw [countWhere_initializeStore g, hs.counted a c (hw.resolve_right (by rintro ⟨⟩))]
    simp [receiptOf]
  | registerContract g =>
    rw [countWhere_registerStore g hst]
    rcases hw with hold | hw
    · simp [hs.counted a c hold, receiptOf]
    · cases hw with
      | contract g' => simp [countWhere_receiptOf_free hs g.contract.free, newContract, receiptOf]
  | verifySignature => exact hs.counted a c (hw.resolve_right (by rintro ⟨⟩))
  | createMultisig g =>
    rw [countWhere_createStore g, hs.counted a c (hw.resolve_right (by rintro ⟨⟩))]
    simp [receiptOf]
  | @verifyGroth16V2 rt acc args r c' sb rb g =>
    rw [countWhere_verifyStore g hst]
    by_cases hac : acc.contract.key = a
    · subst hac
      rw [g.lookup_contract, Option.some.injEq, Account.contract.injEq] at ha
      subst ha
      simp only [Contract.signed, toNat_add_one_u64 g.contractCount, hs.counted _ _ g.contract,
        receiptOf, newSignature, decide_true, Bool.false_eq_true, if_true, if_false, add_zero]
    · rcases hw with hold | hw
      · simp [hs.counted a c hold, receiptOf, newSignature, hac]
      · cases hw
        exact absurd rfl hac
  | recordVerifiedMultisig g =>
    rw [countWhere_recordStore g hst, hs.counted a c (hw.resolve_right (by rintro ⟨⟩))]
    simp [receiptOf]
  | finalizeMultisig g =>
    rw [countWhere_finalizeStore g hst, hs.counted a c (hw.resolve_right (by rintro ⟨⟩))]

theorem Reachable.sound (h : Reachable D groth16 s) : Sound D s := by
  refine h.invariant (Sound D) ⟨?_, ?_, ?_⟩ fun s call s' hs he => ⟨?_, ?_, ?_⟩
  · intro a x ha
    simp at ha
  · intro a a' sg sg' ha
    simp at ha
  · intro a c ha
    simp at ha
  · exact fun a x ha => he.placed hs.placed ha
  · exact fun a a' sg sg' ha ha' hc hk => he.unique hs ha ha' hc hk
  · exact fun a c ha => he.counted hs ha

/-- The program's account of the derivation `d` is `x`. -/
def StoredAt (D : Pda) (s : Store) (d : Derivation) (x : Account) : Prop :=
  ∃ a b, D.findProgramAddress d = some (a, b) ∧ s.lookup a = some x

section Lookup

variable {d : Derivation} {a : Pubkey} {b : UInt8} {x : Account}

/-- Nothing is stored where an account can be created. -/
theorem Fresh.not_storedAt {rt : Runtime} {m : AccountMeta} (h : Fresh D rt s d m b) :
    ¬ StoredAt D s d x := by
  rintro ⟨a, b', hf, hx⟩
  rw [h.address, Option.some.injEq, Prod.mk.injEq] at hf
  have hfree := h.free
  rw [hf.1, hx] at hfree
  cases hfree

/-- The account is of the kind of the derivation, with the fields that are part of it. -/
def Derivation.Fits : Derivation → Account → Prop
  | .registry, .registry _ => True
  | .contract h, .contract c => c.contractHash = h
  | .signature c k sc, .signature sg =>
    sg.contract = c ∧ sg.keyCommitment = k ∧ sg.signatureCommitment = sc
  | .signerRecord _ k, .signerRecord sr => sr.keyCommitment = k
  | .multisig _ t n, .multisig ms => ms.threshold = t ∧ ms.maxSigners = n
  | .member m k, .member mm => mm.multisig = m ∧ mm.keyCommitment = k
  | _, _ => False

theorem Sound.fits (hs : Sound D s) (hf : D.findProgramAddress d = some (a, b))
    (hx : s.lookup a = some x) : d.Fits x := by
  cases hs.placed a x hx with
  | registry h =>
    rw [Pda.find_inj hf h]
    exact trivial
  | contract h _ _ =>
    rw [Pda.find_inj hf h]
    exact rfl
  | signature h _ _ _ _ =>
    rw [Pda.find_inj hf h]
    exact ⟨rfl, rfl, rfl⟩
  | signerRecord _ h _ _ =>
    rw [Pda.find_inj hf h]
    exact rfl
  | multisig _ h =>
    rw [Pda.find_inj hf h]
    exact ⟨rfl, rfl⟩
  | member _ h _ _ _ =>
    rw [Pda.find_inj hf h]
    exact ⟨rfl, rfl⟩

/-- An account at the address of a receipt is that receipt. -/
theorem Sound.signature_of_lookup (hs : Sound D s) {c : Pubkey} {k sc : Bytes 32}
    (hf : D.findProgramAddress (.signature c k sc) = some (a, b)) (hx : s.lookup a = some x) :
    ∃ sg, x = .signature sg ∧ sg.contract = c ∧ sg.keyCommitment = k := by
  have h := hs.fits hf hx
  cases x with
  | signature sg => exact ⟨sg, rfl, h.1, h.2.1⟩
  | _ => exact h.elim

theorem Sound.signerRecord_of_lookup (hs : Sound D s) {h k : Bytes 32}
    (hf : D.findProgramAddress (.signerRecord h k) = some (a, b)) (hx : s.lookup a = some x) :
    ∃ sr, x = .signerRecord sr := by
  have h := hs.fits hf hx
  cases x with
  | signerRecord sr => exact ⟨sr, rfl⟩
  | _ => exact h.elim

theorem Sound.member_of_lookup (hs : Sound D s) {m : Pubkey} {k : Bytes 32}
    (hf : D.findProgramAddress (.member m k) = some (a, b)) (hx : s.lookup a = some x) :
    ∃ mm, x = .member mm ∧ mm.multisig = m ∧ mm.keyCommitment = k := by
  have h := hs.fits hf hx
  cases x with
  | member mm => exact ⟨mm, rfl, h⟩
  | _ => exact h.elim

end Lookup

end Oblivia

import Oblivia.Chain.Provenance
/-!
# Inactive contracts

A contract can be marked inactive, though no instruction does it. Creating an agreement on a
contract and counting a signer for one check the mark; recording a signature and finalizing an
agreement do not. So on a store whose accounts are where their fields say (`Bound`), an inactive
contract is left alone except by the calls that pass every other check of these two (`Admitted`).
-/

namespace Oblivia

open Finmap

variable {D : Pda} {groth16 : Groth16Verifier} {s s' : Store} {a : Pubkey}

/-- The account is where its fields say, and the account it is bound to is there; its contract may
be inactive. -/
inductive BoundAccount (D : Pda) (s : Store) (a : Pubkey) : Account → Prop
  | registry {r : ContractRegistry} (address : D.findProgramAddress .registry = some (a, r.bump)) :
      BoundAccount D s a (.registry r)
  | contract {c : Contract}
      (address : D.findProgramAddress (.contract c.contractHash) = some (a, c.bump)) :
      BoundAccount D s a (.contract c)
  | signature {sg : ObliviaSignature} {c : Contract}
      (contract : s.lookup sg.contract = some (.contract c))
      (address : D.findProgramAddress (.signature sg.contract sg.keyCommitment
        sg.signatureCommitment) = some (a, sg.bump)) : BoundAccount D s a (.signature sg)
  | signerRecord {sr : SignerRecord} {c : Contract}
      (contract : s.lookup sr.contract = some (.contract c))
      (address : D.findProgramAddress (.signerRecord c.contractHash sr.keyCommitment)
        = some (a, sr.bump)) : BoundAccount D s a (.signerRecord sr)
  | multisig {ms : MultiSigContract} {c : Contract}
      (contract : s.lookup ms.contract = some (.contract c))
      (address : D.findProgramAddress (.multisig c.contractHash ms.threshold ms.maxSigners)
        = some (a, ms.bump)) : BoundAccount D s a (.multisig ms)
  | member {mm : MultiSigMember} {ms : MultiSigContract}
      (multisig : s.lookup mm.multisig = some (.multisig ms))
      (address : D.findProgramAddress (.member mm.multisig mm.keyCommitment) = some (a, mm.bump)) :
      BoundAccount D s a (.member mm)

def Bound (D : Pda) (s : Store) : Prop := ∀ a x, s.lookup a = some x → BoundAccount D s a x

theorem Placed.bound {x : Account} (h : Placed D s a x) : BoundAccount D s a x := by
  cases h with
  | registry h => exact .registry h
  | contract h _ _ => exact .contract h
  | signature h hc _ _ _ => exact .signature hc h
  | signerRecord hc h _ _ => exact .signerRecord hc h
  | multisig hc h => exact .multisig hc h
  | member hm h _ _ _ => exact .member hm h

theorem Reachable.bound (h : Reachable D groth16 s) : Bound D s :=
  fun a x hx => (h.sound.placed a x hx).bound

/-- The store with the contract at `a` marked inactive. -/
def deactivate (a : Pubkey) (c : Contract) (s : Store) : Store :=
  s.insert a (.contract { c with active := false })

/-- Marking a contract inactive keeps the bindings. -/
theorem Bound.deactivate {c : Contract} (hs : Bound D s) (hc : s.lookup a = some (.contract c)) :
    Bound D (deactivate a c s) := by
  have hcontract {b : Pubkey} {d : Contract} (hd : s.lookup b = some (.contract d)) :
      ∃ d', (Oblivia.deactivate a c s).lookup b = some (.contract d')
        ∧ d'.contractHash = d.contractHash := by
    by_cases hb : b = a
    · subst hb
      rw [hc, Option.some.injEq, Account.contract.injEq] at hd
      exact ⟨_, lookup_insert _, by rw [hd]⟩
    · exact ⟨d, (lookup_insert_of_ne _ hb).trans hd, rfl⟩
  have hmultisig {b : Pubkey} {ms : MultiSigContract} (hms : s.lookup b = some (.multisig ms)) :
      (Oblivia.deactivate a c s).lookup b = some (.multisig ms) := by
    refine (lookup_insert_of_ne _ ?_).trans hms
    rintro rfl
    rw [hc] at hms
    cases hms
  intro b x hx
  by_cases hb : b = a
  · subst hb
    rw [Oblivia.deactivate, lookup_insert, Option.some.injEq] at hx
    subst hx
    cases hs b _ hc with
    | contract h => exact .contract h
  · rw [Oblivia.deactivate, lookup_insert_of_ne _ hb] at hx
    cases hs b x hx with
    | registry h => exact .registry h
    | contract h => exact .contract h
    | signature hd h =>
      obtain ⟨d', hd', -⟩ := hcontract hd
      exact .signature hd' h
    | signerRecord hd h =>
      obtain ⟨d', hd', hhash⟩ := hcontract hd
      exact .signerRecord hd' (hhash ▸ h)
    | multisig hd h =>
      obtain ⟨d', hd', hhash⟩ := hcontract hd
      exact .multisig hd' (hhash ▸ h)
    | member hm h => exact .member (hmultisig hm) h

/-- The slot holds an agreement on the contract at `a`. -/
def AgreementOn (s : Store) (a : Pubkey) (m : AccountMeta) : Prop :=
  ∃ ms, s.lookup m.key = some (.multisig ms) ∧ ms.contract = a

/-- The instruction would record a signature for the contract at `a`, create an agreement on it,
or count a signer toward such an agreement or finalize it. -/
def Instruction.ActsOn (s : Store) (a : Pubkey) : Instruction → Prop
  | .submitSignature acc _ _ => acc.contract.key = a
  | .createMultisig acc _ _ _ => acc.contract.key = a
  | .submitMultisigSignature acc _ _ => acc.contract.key = a ∨ AgreementOn s a acc.multisig
  | .verifyGroth16V2 acc _ => acc.contract.key = a
  | .recordVerifiedMultisig acc _ _ => acc.contract.key = a ∨ AgreementOn s a acc.multisig
  | .finalizeMultisig acc _ => acc.contract.key = a ∨ AgreementOn s a acc.multisig
  | _ => False

variable (D groth16 s a) in
/-- A signature that is recorded for the contract whether it is active or not: its accounts are
new, those in the other slots are as they must be, and its proof is for the contract's hash. -/
structure AdmittedSignature (rt : Runtime) (acc : VerifyGroth16V2) (args : ProofArgs)
    (c : Contract) (r : ContractRegistry) (signatureBump signerRecordBump : UInt8) : Prop where
  contract : acc.contract.key = a
  registry : s.lookup acc.registry.key = some (.registry r)
  muts : acc.registry.isWritable = true ∧ acc.contract.isWritable = true
  signature : Fresh D rt s (.signature a args.keyCommitment args.signatureCommitment)
    acc.signature signatureBump
  signerRecord : Fresh D rt s (.signerRecord c.contractHash args.keyCommitment)
    acc.signerRecord signerRecordBump
  flags : payerFlags acc.payer acc.systemProgram
  proof : verifyContractBoundProof groth16 c.contractHash args = .ok ()
  contractCount : c.signatureCount ≠ 18446744073709551615
  registryCount : r.totalSignatures ≠ 18446744073709551615

variable (s a) in
/-- An agreement on the contract that is finalized whether the contract is active or not. -/
structure AdmittedClosing (acc : FinalizeMultiSig) (contractHash : Bytes 32) (c : Contract)
    (ms : MultiSigContract) : Prop where
  contract : acc.contract.key = a
  hash : contractHash = c.contractHash
  multisig : s.lookup acc.multisig.key = some (.multisig ms)
  bound : ms.contract = a
  multisigMut : acc.multisig.isWritable = true
  pending : ms.finalized = false
  met : ms.threshold ≤ ms.signaturesCollected

variable (D groth16 s a) in
/-- The calls that get past all that is checked. -/
inductive Admitted (c : Contract) : Call → Prop
  | verifyGroth16V2 {rt : Runtime} {acc : VerifyGroth16V2} {args : ProofArgs}
      {r : ContractRegistry} {sb rb : UInt8}
      (h : AdmittedSignature D groth16 s a rt acc args c r sb rb) :
      Admitted c ⟨rt, .verifyGroth16V2 acc args⟩
  | finalizeMultisig {rt : Runtime} {acc : FinalizeMultiSig} {hash : Bytes 32}
      {ms : MultiSigContract} (h : AdmittedClosing s a acc hash c ms) :
      Admitted c ⟨rt, .finalizeMultisig acc hash⟩

section Admitted

variable {c : Contract} {call : Call} (hs : Bound D s) (hc : s.lookup a = some (.contract c))
include hs hc

theorem Bound.contract_address : D.findProgramAddress (.contract c.contractHash)
    = some (a, c.bump) := by
  cases hs a _ hc with
  | contract h => exact h

/-- The agreement in the slot is on the contract at `a` exactly if the hash is that contract's. -/
theorem FinalizeGuard.admitted {acc : FinalizeMultiSig} {hash : Bytes 32} {d : Contract}
    {ms : MultiSigContract} (g : FinalizeGuard D s acc hash d ms)
    (ha : acc.contract.key = a ∨ AgreementOn s a acc.multisig) :
    AdmittedClosing s a acc hash c ms := by
  cases hs _ _ g.multisig with
  | @multisig _ e he haddress =>
    have hhash : hash = e.contractHash := by
      have h := (Pda.derivation_inj g.multisigAddress (Pda.derive_of_find haddress)).1
      exact (Derivation.multisig.inj h).1
    have hslot : hash = d.contractHash := by
      have h := (Pda.derivation_inj g.contractAddress
        (Pda.derive_of_find (hs.contract_address g.contract))).1
      exact Derivation.contract.inj h
    have hsame : acc.contract.key = ms.contract := by
      have h := hs.contract_address g.contract
      rw [← hslot, hhash, hs.contract_address he] at h
      exact (Prod.ext_iff.1 (Option.some.inj h)).1.symm
    have hkey : acc.contract.key = a := by
      rcases ha with ha | ⟨ms', hms', ha⟩
      · exact ha
      · rw [g.multisig, Option.some.injEq, Account.multisig.injEq] at hms'
        rw [hsame, hms', ha]
    have hcontract := g.contract
    rw [hkey, hc, Option.some.injEq, Account.contract.injEq] at hcontract
    exact ⟨hkey, hcontract ▸ hslot, g.multisig, hsame ▸ hkey, g.multisigMut, g.pending, g.met⟩

theorem AdmittedClosing.guard {acc : FinalizeMultiSig} {hash : Bytes 32} {ms : MultiSigContract}
    (h : AdmittedClosing s a acc hash c ms) : FinalizeGuard D s acc hash c ms := by
  obtain ⟨rfl, rfl, hms, hbound, hmut, hpending, hmet⟩ := h
  refine ⟨hc, Pda.derive_of_find (hs.contract_address hc), hms, ?_, hmut, hpending, hmet⟩
  cases hs _ _ hms with
  | multisig he haddress =>
    rw [hbound, hc, Option.some.injEq, Account.contract.injEq] at he
    exact he ▸ Pda.derive_of_find haddress

omit hs in
theorem VerifyGuard.admitted {rt : Runtime} {acc : VerifyGroth16V2} {args : ProofArgs}
    {r : ContractRegistry} {d : Contract} {sb rb : UInt8}
    (g : VerifyGuard D groth16 rt s acc args r d sb rb) (ha : acc.contract.key = a) :
    AdmittedSignature D groth16 s a rt acc args c r sb rb := by
  subst ha
  have hcontract := g.contract
  rw [hc, Option.some.injEq, Account.contract.injEq] at hcontract
  subst hcontract
  exact ⟨rfl, g.registry, g.muts, g.signature, g.signerRecord, g.flags, g.proof, g.contractCount,
    g.registryCount⟩

theorem AdmittedSignature.guard {rt : Runtime} {acc : VerifyGroth16V2} {args : ProofArgs}
    {r : ContractRegistry} {sb rb : UInt8}
    (h : AdmittedSignature D groth16 s a rt acc args c r sb rb) :
    VerifyGuard D groth16 rt s acc args r c sb rb := by
  obtain ⟨rfl, hr, hmuts, hsig, hrec, hflags, hproof, hcount, hcount'⟩ := h
  have haddress : D.derive .registry r.bump = some acc.registry.key := by
    cases hs _ _ hr with
    | registry h => exact Pda.derive_of_find h
  exact ⟨hr, haddress, hc, Pda.derive_of_find (hs.contract_address hc), hmuts, hsig, hrec, hflags,
    hproof, hcount, hcount'⟩

/-- What takes effect on an inactive contract was admitted. -/
theorem Effect.admitted (h : Effect D groth16 s call s') (hinactive : c.active = false)
    (ha : call.ix.ActsOn s a) : Admitted D groth16 s a c call := by
  have hactive {m : AccountMeta} {d : Contract} (hd : s.lookup m.key = some (.contract d))
      (hm : m.key = a) : d.active = false := by
    rw [hm, hc, Option.some.injEq, Account.contract.injEq] at hd
    exact hd ▸ hinactive
  cases h with
  | initializeRegistry | registerContract | verifySignature => exact ha.elim
  | createMultisig g => exact absurd g.active (by simp [hactive g.contract ha])
  | verifyGroth16V2 g => exact .verifyGroth16V2 (g.admitted hc ha)
  | recordVerifiedMultisig g =>
    refine absurd g.active (Bool.eq_false_iff.1 (hactive g.contract (ha.elim id ?_)))
    rintro ⟨ms, hms, rfl⟩
    rw [g.multisig, Option.some.injEq, Account.multisig.injEq] at hms
    exact hms ▸ g.multisigBound.symm
  | finalizeMultisig g => exact .finalizeMultisig (g.admitted hs hc ha)

theorem Admitted.exists_effect (h : Admitted D groth16 s a c call) :
    ∃ s', Effect D groth16 s call s' := by
  cases h with
  | verifyGroth16V2 h => exact ⟨_, .verifyGroth16V2 (h.guard hs hc)⟩
  | finalizeMultisig h => exact ⟨_, .finalizeMultisig (h.guard hs hc)⟩

end Admitted

/-- Exactly the calls that are not admitted leave an inactive contract alone. -/
theorem inactive_closed_iff {c : Contract} {call : Call} (hs : Bound D s)
    (hc : s.lookup a = some (.contract c)) (hinactive : c.active = false)
    (ha : call.ix.ActsOn s a) :
    ((∃ e, exec D groth16 s call = .error e) ∧ commit D groth16 s [call] = s)
      ↔ ¬ Admitted D groth16 s a c call := by
  constructor
  · rintro ⟨⟨e, he⟩, -⟩ h
    obtain ⟨s', h⟩ := h.exists_effect hs hc
    rw [exec_eq_ok.2 h] at he
    cases he
  · intro h
    rcases hx : exec D groth16 s call with e | s'
    · have hbatch : Batch.exec (exec D groth16) s [call] = .error e := by
        rw [Batch.exec, hx]
        rfl
      exact ⟨⟨e, rfl⟩, Batch.commit_of_error hbatch⟩
    · exact absurd ((exec_eq_ok.1 hx).admitted hs hc hinactive ha) h

section Sample

/-- The contract of the sample is registered and then marked inactive. -/
def sampleInactive : Store :=
  deactivate sampleContract ⟨sampleHash, 1700000000, 0, true, 255⟩
    (run samplePda sampleVerifier ∅ (sampleSetup.take 2))

theorem bound_sampleInactive : Bound samplePda sampleInactive :=
  Bound.deactivate (Reachable.bound ⟨sampleSetup.take 2, rfl⟩) (by decide +kernel)

theorem lookup_sampleInactive : sampleInactive.lookup sampleContract
    = some (.contract ⟨sampleHash, 1700000000, 0, false, 255⟩) := lookup_insert _

/-- No agreement is created on the inactive contract of the sample. -/
theorem inactive_closed_sample : (∃ e, exec samplePda sampleVerifier sampleInactive ⟨sampleRuntime,
      .createMultisig (.of sampleContract sampleMultisig samplePayer) sampleHash 2 3⟩ = .error e)
    ∧ commit samplePda sampleVerifier sampleInactive [⟨sampleRuntime,
      .createMultisig (.of sampleContract sampleMultisig samplePayer) sampleHash 2 3⟩]
      = sampleInactive := by
  refine (inactive_closed_iff bound_sampleInactive lookup_sampleInactive rfl ?_).2 nofun
  exact rfl

/-- The first key of the sample signs the inactive contract. -/
def sampleInactiveSign : Call :=
  ⟨sampleRuntime, .verifyGroth16V2 (.of sampleRegistry sampleContract
    (.ofNat 32 0x83134ad81eefe3f988bccb2fc7b8ccac5472b4aad4616cddbf0b020f2b269e3e)
    (.ofNat 32 0xf7de36d5fda7ffeced026e6870ed00a1c142b0a400fccfcaa9004291461994c6) samplePayer)
    (sampleProof 1)⟩

/-- A signature for an inactive contract is recorded. -/
theorem inactive_signed : ¬ ∀ (D : Pda) (groth16 : Groth16Verifier) (s : Store) (a : Pubkey)
    (c : Contract) (call : Call), Bound D s → s.lookup a = some (.contract c) →
    c.active = false → call.ix.ActsOn s a →
    (∃ e, exec D groth16 s call = .error e) ∧ commit D groth16 s [call] = s := by
  intro h
  obtain ⟨⟨e, he⟩, -⟩ := h samplePda sampleVerifier sampleInactive sampleContract _
    sampleInactiveSign bound_sampleInactive lookup_sampleInactive rfl rfl
  have hok : (exec samplePda sampleVerifier sampleInactive sampleInactiveSign).isOk = true := by
    decide +kernel
  rw [he] at hok
  cases hok

end Sample

end Oblivia

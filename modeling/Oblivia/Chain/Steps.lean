import Oblivia.Chain.Program
/-!
# What a step can do

For each instruction that can succeed, its guard, which names everything it needs of the store,
the slots and the arguments, and the store it leaves. An instruction succeeds exactly on its
guard (`verifyGroth16V2_eq_ok` and its siblings), and a step is one of the seven (`exec_eq_ok`).
-/

namespace Oblivia

/-- The payer signs and can be charged, and the system program is in its slot. -/
def payerFlags (payer systemProgram : AccountMeta) : Prop :=
  payer.isSigner = true ∧ payer.isWritable = true ∧ systemProgram.key = systemProgramId

section Guards

variable (D : Pda) (groth16 : Groth16Verifier) (rt : Runtime) (s : Store)

/-- The slot of an account to create: its derived address, where there is no account yet. -/
structure Fresh (d : Derivation) (m : AccountMeta) (bump : UInt8) : Prop where
  address : D.findProgramAddress d = some (m.key, bump)
  free : s.lookup m.key = none
  funded : rt.payerFunded = true
  writable : m.isWritable = true

structure InitializeGuard (acc : Initialize) (bump : UInt8) : Prop where
  registry : Fresh D rt s .registry acc.registry bump
  flags : payerFlags acc.authority acc.systemProgram

structure RegisterGuard (acc : RegisterContract) (contractHash : Bytes 32) (r : ContractRegistry)
    (bump : UInt8) : Prop where
  registry : s.lookup acc.registry.key = some (.registry r)
  registryAddress : D.derive .registry r.bump = some acc.registry.key
  registryMut : acc.registry.isWritable = true
  contract : Fresh D rt s (.contract contractHash) acc.contract bump
  flags : payerFlags acc.payer acc.systemProgram
  nonzero : contractHash ≠ Bytes.zero 32
  count : r.totalContracts ≠ 18446744073709551615

structure VerifySignatureGuard (acc : VerifySignature) (c : Contract) (sg : ObliviaSignature) :
    Prop where
  contract : s.lookup acc.contract.key = some (.contract c)
  signature : s.lookup acc.signature.key = some (.signature sg)
  contractAddress : D.derive (.contract c.contractHash) c.bump = some acc.contract.key
  signatureAddress : D.derive (.signature acc.contract.key sg.keyCommitment
    sg.signatureCommitment) sg.bump = some acc.signature.key
  bound : sg.contract = acc.contract.key
  active : c.active = true

structure CreateGuard (acc : CreateMultiSig) (contractHash : Bytes 32)
    (threshold maxSigners : UInt8) (c : Contract) (bump : UInt8) : Prop where
  contract : s.lookup acc.contract.key = some (.contract c)
  contractAddress : D.derive (.contract contractHash) c.bump = some acc.contract.key
  multisig : Fresh D rt s (.multisig contractHash threshold maxSigners) acc.multisig bump
  flags : payerFlags acc.payer acc.systemProgram
  positive : 0 < threshold
  bounded : threshold ≤ maxSigners
  active : c.active = true

structure VerifyGuard (acc : VerifyGroth16V2) (args : ProofArgs) (r : ContractRegistry)
    (c : Contract) (signatureBump signerRecordBump : UInt8) : Prop where
  registry : s.lookup acc.registry.key = some (.registry r)
  registryAddress : D.derive .registry r.bump = some acc.registry.key
  contract : s.lookup acc.contract.key = some (.contract c)
  contractAddress : D.derive (.contract c.contractHash) c.bump = some acc.contract.key
  muts : acc.registry.isWritable = true ∧ acc.contract.isWritable = true
  signature : Fresh D rt s (.signature acc.contract.key args.keyCommitment
    args.signatureCommitment) acc.signature signatureBump
  signerRecord : Fresh D rt s (.signerRecord c.contractHash args.keyCommitment)
    acc.signerRecord signerRecordBump
  flags : payerFlags acc.payer acc.systemProgram
  proof : verifyContractBoundProof groth16 c.contractHash args = .ok ()
  contractCount : c.signatureCount ≠ 18446744073709551615
  registryCount : r.totalSignatures ≠ 18446744073709551615

structure RecordGuard (acc : RecordVerifiedMultiSig) (contractHash keyCommitment : Bytes 32)
    (r : ContractRegistry) (c : Contract) (ms : MultiSigContract) (sr : SignerRecord)
    (sg : ObliviaSignature) (bump : UInt8) : Prop where
  registry : s.lookup acc.registry.key = some (.registry r)
  registryAddress : D.derive .registry r.bump = some acc.registry.key
  contract : s.lookup acc.contract.key = some (.contract c)
  contractAddress : D.derive (.contract contractHash) c.bump = some acc.contract.key
  multisig : s.lookup acc.multisig.key = some (.multisig ms)
  multisigAddress : D.derive (.multisig contractHash ms.threshold ms.maxSigners) ms.bump
    = some acc.multisig.key
  multisigBound : ms.contract = acc.contract.key
  muts : acc.registry.isWritable = true ∧ acc.contract.isWritable = true
    ∧ acc.multisig.isWritable = true
  signerRecord : s.lookup acc.signerRecord.key = some (.signerRecord sr)
  signerRecordAddress : D.derive (.signerRecord contractHash keyCommitment) sr.bump
    = some acc.signerRecord.key
  signerRecordBound : sr.contract = acc.contract.key
  signerRecordKey : sr.keyCommitment = keyCommitment
  signature : s.lookup acc.signature.key = some (.signature sg)
  signatureAddress : D.derive (.signature acc.contract.key keyCommitment
    sg.signatureCommitment) sg.bump = some acc.signature.key
  signatureBound : sg.contract = acc.contract.key
  signatureKey : sg.keyCommitment = keyCommitment
  member : Fresh D rt s (.member acc.multisig.key keyCommitment) acc.multisigMember bump
  flags : payerFlags acc.payer acc.systemProgram
  active : c.active = true
  pending : ms.finalized = false
  room : ms.signaturesCollected < ms.maxSigners
  collected : ms.signaturesCollected ≠ 255

structure FinalizeGuard (acc : FinalizeMultiSig) (contractHash : Bytes 32) (c : Contract)
    (ms : MultiSigContract) : Prop where
  contract : s.lookup acc.contract.key = some (.contract c)
  contractAddress : D.derive (.contract contractHash) c.bump = some acc.contract.key
  multisig : s.lookup acc.multisig.key = some (.multisig ms)
  multisigAddress : D.derive (.multisig contractHash ms.threshold ms.maxSigners) ms.bump
    = some acc.multisig.key
  multisigMut : acc.multisig.isWritable = true
  pending : ms.finalized = false
  met : ms.threshold ≤ ms.signaturesCollected

end Guards

section Stores

variable (rt : Runtime) (s : Store)

def newRegistry (acc : Initialize) (bump : UInt8) : ContractRegistry where
  authority := acc.authority.key
  totalContracts := 0
  totalSignatures := 0
  bump

def newContract (contractHash : Bytes 32) (bump : UInt8) : Contract where
  contractHash
  timestamp := rt.now
  signatureCount := 0
  active := true
  bump

def newMultisig (acc : CreateMultiSig) (threshold maxSigners bump : UInt8) :
    MultiSigContract where
  contract := acc.contract.key
  threshold
  signaturesCollected := 0
  maxSigners
  finalized := false
  finalizedAt := 0
  bump

def newSignature (acc : VerifyGroth16V2) (args : ProofArgs) (bump : UInt8) :
    ObliviaSignature where
  keyCommitment := args.keyCommitment
  signatureCommitment := args.signatureCommitment
  contract := acc.contract.key
  timestamp := rt.now
  bump

def newSignerRecord (acc : VerifyGroth16V2) (args : ProofArgs) (bump : UInt8) :
    SignerRecord where
  contract := acc.contract.key
  keyCommitment := args.keyCommitment
  timestamp := rt.now
  bump

def newMember (acc : RecordVerifiedMultiSig) (keyCommitment : Bytes 32) (bump : UInt8) :
    MultiSigMember where
  multisig := acc.multisig.key
  keyCommitment
  timestamp := rt.now
  bump

def ContractRegistry.registered (r : ContractRegistry) : ContractRegistry :=
  { r with totalContracts := r.totalContracts + 1 }

def ContractRegistry.signed (r : ContractRegistry) : ContractRegistry :=
  { r with totalSignatures := r.totalSignatures + 1 }

def Contract.signed (c : Contract) : Contract :=
  { c with signatureCount := c.signatureCount + 1 }

/-- The agreement with one more key counted. -/
def MultiSigContract.counted (ms : MultiSigContract) : MultiSigContract :=
  collect rt.now ms (ms.signaturesCollected + 1)

def MultiSigContract.closed (ms : MultiSigContract) : MultiSigContract :=
  { ms with finalized := true, finalizedAt := rt.now }

def initializeStore (acc : Initialize) (bump : UInt8) : Store :=
  s.insert acc.registry.key (.registry (newRegistry acc bump))

def registerStore (acc : RegisterContract) (contractHash : Bytes 32) (r : ContractRegistry)
    (bump : UInt8) : Store :=
  (s.insert acc.contract.key (.contract (newContract rt contractHash bump))).insert
    acc.registry.key (.registry r.registered)

def createStore (acc : CreateMultiSig) (threshold maxSigners bump : UInt8) : Store :=
  s.insert acc.multisig.key (.multisig (newMultisig acc threshold maxSigners bump))

def verifyStore (acc : VerifyGroth16V2) (args : ProofArgs) (r : ContractRegistry) (c : Contract)
    (signatureBump signerRecordBump : UInt8) : Store :=
  (((s.insert acc.signature.key (.signature (newSignature rt acc args signatureBump))).insert
      acc.signerRecord.key (.signerRecord (newSignerRecord rt acc args signerRecordBump))).insert
      acc.contract.key (.contract c.signed)).insert acc.registry.key (.registry r.signed)

def recordStore (acc : RecordVerifiedMultiSig) (keyCommitment : Bytes 32) (ms : MultiSigContract)
    (bump : UInt8) : Store :=
  (s.insert acc.multisigMember.key (.member (newMember rt acc keyCommitment bump))).insert
    acc.multisig.key (.multisig (ms.counted rt))

def finalizeStore (acc : FinalizeMultiSig) (ms : MultiSigContract) : Store :=
  s.insert acc.multisig.key (.multisig (ms.closed rt))

end Stores

section Proof

theorem contractHashLimbs_inj {h h' : Bytes 32}
    (he : contractHashLimbs h = contractHashLimbs h') : h = h' := by
  have h₁ : List.replicate 16 0 ++ h.toList.take 16 = List.replicate 16 0 ++ h'.toList.take 16 :=
    congrArg (fun p => p.1.toList) he
  have h₂ : List.replicate 16 0 ++ h.toList.drop 16 = List.replicate 16 0 ++ h'.toList.drop 16 :=
    congrArg (fun p => p.2.toList) he
  rw [List.append_cancel_left_eq] at h₁ h₂
  rw [← Bytes.toList_inj, ← List.take_append_drop 16 h.toList, h₁, h₂, List.take_append_drop]

/-- Acceptance: the public inputs are the arguments and the limbs of the hash, and the verifier
accepts the proof for them. -/
theorem verifyContractBoundProof_eq_ok {groth16 : Groth16Verifier} {h : Bytes 32}
    {args : ProofArgs} {u : Unit} :
    verifyContractBoundProof groth16 h args = .ok u ↔
      inputs args.pubInputs 2 = (contractHashLimbs h).1
        ∧ inputs args.pubInputs 3 = (contractHashLimbs h).2
        ∧ inputs args.pubInputs 0 = args.keyCommitment
        ∧ inputs args.pubInputs 1 = args.signatureCommitment
        ∧ groth16 args.proofA args.proofB args.proofC (inputs args.pubInputs) = true := by
  simp only [verifyContractBoundProof, Batch.bind_eq_ok, require_eq_ok, exists_const, and_assoc]

/-- Public inputs are accepted for one contract hash. -/
theorem contractHash_eq_of_pubInputs {groth16 : Groth16Verifier} {h h' : Bytes 32}
    {args args' : ProofArgs} {u u' : Unit} (ha : verifyContractBoundProof groth16 h args = .ok u)
    (ha' : verifyContractBoundProof groth16 h' args' = .ok u')
    (hp : args.pubInputs = args'.pubInputs) :
    h = h' ∧ args.keyCommitment = args'.keyCommitment := by
  obtain ⟨h₂, h₃, h₀, -⟩ := verifyContractBoundProof_eq_ok.1 ha
  obtain ⟨h₂', h₃', h₀', -⟩ := verifyContractBoundProof_eq_ok.1 ha'
  rw [hp] at h₂ h₃ h₀
  exact ⟨contractHashLimbs_inj (Prod.ext (h₂.symm.trans h₂') (h₃.symm.trans h₃')),
    h₀.symm.trans h₀'⟩

end Proof

section Spec

variable {D : Pda} {groth16 : Groth16Verifier} {rt : Runtime} {s s' : Store}

theorem init_eq_ok_iff {d : Derivation} {m : AccountMeta} {b : UInt8} :
    init D rt s d m = .ok b ↔ Fresh D rt s d m b := by
  rw [init_eq_ok]
  exact ⟨fun ⟨h₁, h₂, h₃, h₄⟩ => ⟨h₁, h₂, h₃, h₄⟩, fun ⟨h₁, h₂, h₃, h₄⟩ => ⟨h₁, h₂, h₃, h₄⟩⟩

theorem initializeRegistry_eq_ok {acc : Initialize} :
    initializeRegistry D rt acc s = .ok s' ↔
      ∃ b, InitializeGuard D rt s acc b ∧ initializeStore s acc b = s' := by
  simp only [initializeRegistry, Batch.bind_eq_ok, Batch.pure_eq_ok, checkSigner_eq_ok,
    checkSystemProgram_eq_ok, init_eq_ok_iff, checkMut_eq_ok, exists_const]
  constructor
  · rintro ⟨h₁, h₂, b, h₃, h₄, rfl⟩
    exact ⟨b, ⟨h₃, h₁, h₄, h₂⟩, rfl⟩
  · rintro ⟨b, ⟨h₃, h₁, h₄, h₂⟩, rfl⟩
    exact ⟨h₁, h₂, b, h₃, h₄, rfl⟩

theorem registerContract_eq_ok {acc : RegisterContract} {h : Bytes 32} :
    registerContract D rt acc h s = .ok s' ↔
      ∃ r b, RegisterGuard D rt s acc h r b ∧ registerStore rt s acc h r b = s' := by
  simp only [registerContract, Batch.bind_eq_ok, Batch.pure_eq_ok, load_eq_ok,
    checkSigner_eq_ok, checkSystemProgram_eq_ok, init_eq_ok_iff, checkSeeds_eq_ok, checkMut_eq_ok,
    require_eq_ok, succU64_eq_ok, Account.asRegistry_eq_some, exists_eq_right, exists_const]
  constructor
  · rintro ⟨r, hr, h₁, h₂, b, hc, h₃, h₄, h₅, h₆, n, ⟨h₇, rfl⟩, rfl⟩
    exact ⟨r, b, ⟨hr, h₃, h₄, hc, ⟨h₁, h₅, h₂⟩, h₆, h₇⟩, rfl⟩
  · rintro ⟨r, b, ⟨hr, h₃, h₄, hc, ⟨h₁, h₅, h₂⟩, h₆, h₇⟩, rfl⟩
    exact ⟨r, hr, h₁, h₂, b, hc, h₃, h₄, h₅, h₆, _, ⟨h₇, rfl⟩, rfl⟩

theorem verifySignature_eq_ok {acc : VerifySignature} :
    verifySignature D acc s = .ok s' ↔
      ∃ c sg, VerifySignatureGuard D s acc c sg ∧ s = s' := by
  simp only [verifySignature, Batch.bind_eq_ok, Batch.pure_eq_ok, load_eq_ok, checkSeeds_eq_ok,
    require_eq_ok, Account.asContract_eq_some, Account.asSignature_eq_some, exists_eq_right,
    exists_const]
  constructor
  · rintro ⟨c, hc, sg, hsg, h₁, h₂, h₃, h₄, -, rfl⟩
    exact ⟨c, sg, ⟨hc, hsg, h₁, h₂, h₃, h₄⟩, rfl⟩
  · rintro ⟨c, sg, ⟨hc, hsg, h₁, h₂, h₃, h₄⟩, rfl⟩
    exact ⟨c, hc, sg, hsg, h₁, h₂, h₃, h₄, h₃, rfl⟩

theorem createMultisig_eq_ok {acc : CreateMultiSig} {h : Bytes 32} {t n : UInt8} :
    createMultisig D rt acc h t n s = .ok s' ↔
      ∃ c b, CreateGuard D rt s acc h t n c b ∧ createStore s acc t n b = s' := by
  simp only [createMultisig, Batch.bind_eq_ok, Batch.pure_eq_ok, load_eq_ok, checkSigner_eq_ok,
    checkSystemProgram_eq_ok, init_eq_ok_iff, checkSeeds_eq_ok, checkMut_eq_ok, require_eq_ok,
    Account.asContract_eq_some, exists_eq_right, exists_const]
  constructor
  · rintro ⟨c, hc, h₁, h₂, b, hb, h₃, h₄, h₅, h₆, h₇, rfl⟩
    exact ⟨c, b, ⟨hc, h₃, hb, ⟨h₁, h₄, h₂⟩, h₅, h₆, h₇⟩, rfl⟩
  · rintro ⟨c, b, ⟨hc, h₃, hb, ⟨h₁, h₄, h₂⟩, h₅, h₆, h₇⟩, rfl⟩
    exact ⟨c, hc, h₁, h₂, b, hb, h₃, h₄, h₅, h₆, h₇, rfl⟩

theorem verifyGroth16V2_eq_ok {acc : VerifyGroth16V2} {args : ProofArgs} :
    verifyGroth16V2 D groth16 rt acc args s = .ok s' ↔
      ∃ r c sb rb, VerifyGuard D groth16 rt s acc args r c sb rb
        ∧ verifyStore rt s acc args r c sb rb = s' := by
  simp only [verifyGroth16V2, Batch.bind_eq_ok, Batch.pure_eq_ok, load_eq_ok, checkSigner_eq_ok,
    checkSystemProgram_eq_ok, init_eq_ok_iff, checkSeeds_eq_ok, checkMut_eq_ok, succU64_eq_ok,
    Account.asRegistry_eq_some, Account.asContract_eq_some, exists_eq_right, exists_const]
  constructor
  · rintro ⟨r, hr, c, hc, h₁, h₂, sb, hsb, rb, hrb, h₃, h₄, h₅, h₆, h₇, ⟨⟩, hp, -, ⟨h₈, rfl⟩,
      -, ⟨h₉, rfl⟩, rfl⟩
    exact ⟨r, c, sb, rb, ⟨hr, h₃, hc, h₅, ⟨h₄, h₆⟩, hsb, hrb, ⟨h₁, h₇, h₂⟩, hp, h₈, h₉⟩, rfl⟩
  · rintro ⟨r, c, sb, rb, ⟨hr, h₃, hc, h₅, ⟨h₄, h₆⟩, hsb, hrb, ⟨h₁, h₇, h₂⟩, hp, h₈, h₉⟩, rfl⟩
    exact ⟨r, hr, c, hc, h₁, h₂, sb, hsb, rb, hrb, h₃, h₄, h₅, h₆, h₇, (), hp, _, ⟨h₈, rfl⟩, _,
      ⟨h₉, rfl⟩, rfl⟩

theorem recordVerifiedMultisig_eq_ok {acc : RecordVerifiedMultiSig} {h k : Bytes 32} :
    recordVerifiedMultisig D rt acc h k s = .ok s' ↔
      ∃ r c ms sr sg b, RecordGuard D rt s acc h k r c ms sr sg b
        ∧ recordStore rt s acc k ms b = s' := by
  simp only [recordVerifiedMultisig, Batch.bind_eq_ok, Batch.pure_eq_ok, load_eq_ok,
    checkSigner_eq_ok, checkSystemProgram_eq_ok, init_eq_ok_iff, checkSeeds_eq_ok, checkMut_eq_ok,
    require_eq_ok, succU8_eq_ok, Account.asRegistry_eq_some, Account.asContract_eq_some,
    Account.asMultisig_eq_some, Account.asSignerRecord_eq_some, Account.asSignature_eq_some,
    exists_eq_right, exists_const, Bool.not_eq_true']
  constructor
  · rintro ⟨r, hr, c, hc, ms, hms, sr, hsr, sg, hsg, h₁, h₂, b, hb, h₃, h₄, h₅, h₆, h₇, h₈, h₉,
      h₁₀, h₁₁, h₁₂, h₁₃, h₁₄, h₁₅, h₁₆, h₁₇, h₁₈, h₁₉, -, ⟨h₂₀, rfl⟩, rfl⟩
    exact ⟨r, c, ms, sr, sg, b, ⟨hr, h₃, hc, h₅, hms, h₇, h₉, ⟨h₄, h₆, h₈⟩, hsr, h₁₀, h₁₁, h₁₂,
      hsg, h₁₃, h₁₄, h₁₅, hb, ⟨h₁, h₁₆, h₂⟩, h₁₇, h₁₈, h₁₉, h₂₀⟩, rfl⟩
  · rintro ⟨r, c, ms, sr, sg, b, ⟨hr, h₃, hc, h₅, hms, h₇, h₉, ⟨h₄, h₆, h₈⟩, hsr, h₁₀, h₁₁, h₁₂,
      hsg, h₁₃, h₁₄, h₁₅, hb, ⟨h₁, h₁₆, h₂⟩, h₁₇, h₁₈, h₁₉, h₂₀⟩, rfl⟩
    exact ⟨r, hr, c, hc, ms, hms, sr, hsr, sg, hsg, h₁, h₂, b, hb, h₃, h₄, h₅, h₆, h₇, h₈, h₉,
      h₁₀, h₁₁, h₁₂, h₁₃, h₁₄, h₁₅, h₁₆, h₁₇, h₁₈, h₁₉, _, ⟨h₂₀, rfl⟩, rfl⟩

/-- The two errors that come from counting: the agreement is open, and full or at the largest
count. -/
theorem recordVerifiedMultisig_error {acc : RecordVerifiedMultiSig} {h k : Bytes 32}
    {e : ErrorCode} (he : e = .arithmeticOverflow ∨ e = .duplicateSignature)
    (hx : recordVerifiedMultisig D rt acc h k s = .error e) :
    ∃ ms, s.lookup acc.multisig.key = some (.multisig ms) ∧ ms.finalized = false
      ∧ (ms.maxSigners ≤ ms.signaturesCollected ∨ ms.signaturesCollected = 255) := by
  have hl {α : Type} (view : Account → Option α) (m) : load view s m ≠ .error e := fun hl => by
    rcases load_error hl with h | h <;> rcases he with h' | h' <;> rw [h] at h' <;> cases h'
  have hi (d m) : init D rt s d m ≠ .error e := fun hi => by
    rcases init_error hi with h | h | h | h | h <;> rcases he with h' | h' <;> rw [h] at h' <;>
      cases h'
  rcases he with rfl | rfl <;>
  simp only [recordVerifiedMultisig, Batch.bind_eq_error, hl, hi, require_eq_error, checkSigner,
    checkMut, checkSystemProgram, checkSeeds, reduceCtorEq, and_false, false_or, succU8,
    load_eq_ok, Account.asMultisig_eq_some, exists_eq_right, require_eq_ok, exists_const, pure,
    Except.pure, or_false, Bool.not_eq_true'] at hx
  · obtain ⟨_, -, _, -, ms, hms, _, -, _, -, -, -, _, -, -, -, -, -, -, -, -, -, -, -, -, -, -, -,
      -, hf, -, hc, -⟩ := hx
    exact ⟨ms, hms, hf, .inr (not_not.1 hc)⟩
  · obtain ⟨_, -, _, -, ms, hms, _, -, _, -, -, -, _, -, -, -, -, -, -, -, -, -, -, -, -, -, -, -,
      -, hf, hc, -⟩ := hx
    exact ⟨ms, hms, hf, .inl (UInt8.not_lt.1 hc)⟩

theorem finalizeMultisig_eq_ok {acc : FinalizeMultiSig} {h : Bytes 32} :
    finalizeMultisig D rt acc h s = .ok s' ↔
      ∃ c ms, FinalizeGuard D s acc h c ms ∧ finalizeStore rt s acc ms = s' := by
  simp only [finalizeMultisig, Batch.bind_eq_ok, Batch.pure_eq_ok, load_eq_ok, checkSeeds_eq_ok,
    checkMut_eq_ok, require_eq_ok, Account.asContract_eq_some, Account.asMultisig_eq_some,
    exists_eq_right, exists_const, Bool.not_eq_true']
  constructor
  · rintro ⟨c, hc, ms, hms, h₁, h₂, h₃, h₄, h₅, rfl⟩
    exact ⟨c, ms, ⟨hc, h₁, hms, h₂, h₃, h₄, h₅⟩, rfl⟩
  · rintro ⟨c, ms, ⟨hc, h₁, hms, h₂, h₃, h₄, h₅⟩, rfl⟩
    exact ⟨c, hc, ms, hms, h₁, h₂, h₃, h₄, h₅, rfl⟩

theorem submitSignature_ne_ok {acc : SubmitSignature} {k sg : Bytes 32} :
    submitSignature D rt acc k sg s ≠ .ok s' := by
  simp [submitSignature, Batch.bind_eq_ok]

theorem submitMultisigSignature_ne_ok {acc : SubmitMultiSigSignature} {k sg : Bytes 32} :
    submitMultisigSignature D rt acc k sg s ≠ .ok s' := by
  simp [submitMultisigSignature, Batch.bind_eq_ok]

variable (D groth16) in
/-- The steps of the program: an instruction, its guard, and the store it leaves. -/
inductive Effect (s : Store) : Call → Store → Prop
  | initializeRegistry {rt : Runtime} {acc : Initialize} {b : UInt8}
      (g : InitializeGuard D rt s acc b) :
      Effect s ⟨rt, .initializeRegistry acc⟩ (initializeStore s acc b)
  | registerContract {rt : Runtime} {acc : RegisterContract} {h : Bytes 32}
      {r : ContractRegistry} {b : UInt8} (g : RegisterGuard D rt s acc h r b) :
      Effect s ⟨rt, .registerContract acc h⟩ (registerStore rt s acc h r b)
  | verifySignature {rt : Runtime} {acc : VerifySignature} {c : Contract}
      {sg : ObliviaSignature} (g : VerifySignatureGuard D s acc c sg) :
      Effect s ⟨rt, .verifySignature acc⟩ s
  | createMultisig {rt : Runtime} {acc : CreateMultiSig} {h : Bytes 32} {t n : UInt8}
      {c : Contract} {b : UInt8} (g : CreateGuard D rt s acc h t n c b) :
      Effect s ⟨rt, .createMultisig acc h t n⟩ (createStore s acc t n b)
  | verifyGroth16V2 {rt : Runtime} {acc : VerifyGroth16V2} {args : ProofArgs}
      {r : ContractRegistry} {c : Contract} {sb rb : UInt8}
      (g : VerifyGuard D groth16 rt s acc args r c sb rb) :
      Effect s ⟨rt, .verifyGroth16V2 acc args⟩ (verifyStore rt s acc args r c sb rb)
  | recordVerifiedMultisig {rt : Runtime} {acc : RecordVerifiedMultiSig} {h k : Bytes 32}
      {r : ContractRegistry} {c : Contract} {ms : MultiSigContract} {sr : SignerRecord}
      {sg : ObliviaSignature} {b : UInt8} (g : RecordGuard D rt s acc h k r c ms sr sg b) :
      Effect s ⟨rt, .recordVerifiedMultisig acc h k⟩ (recordStore rt s acc k ms b)
  | finalizeMultisig {rt : Runtime} {acc : FinalizeMultiSig} {h : Bytes 32} {c : Contract}
      {ms : MultiSigContract} (g : FinalizeGuard D s acc h c ms) :
      Effect s ⟨rt, .finalizeMultisig acc h⟩ (finalizeStore rt s acc ms)

/-- A call succeeds exactly by one of the steps. -/
theorem exec_eq_ok {call : Call} : exec D groth16 s call = .ok s' ↔ Effect D groth16 s call s' := by
  constructor
  · obtain ⟨rt, ix⟩ := call
    intro h
    cases ix with
    | initializeRegistry acc =>
      obtain ⟨b, g, rfl⟩ := initializeRegistry_eq_ok.1 h
      exact .initializeRegistry g
    | registerContract acc hash =>
      obtain ⟨r, b, g, rfl⟩ := registerContract_eq_ok.1 h
      exact .registerContract g
    | submitSignature acc k sg => exact absurd h submitSignature_ne_ok
    | verifySignature acc =>
      obtain ⟨c, sg, g, rfl⟩ := verifySignature_eq_ok.1 h
      exact .verifySignature g
    | createMultisig acc hash t n =>
      obtain ⟨c, b, g, rfl⟩ := createMultisig_eq_ok.1 h
      exact .createMultisig g
    | submitMultisigSignature acc k sg => exact absurd h submitMultisigSignature_ne_ok
    | verifyGroth16V2 acc args =>
      obtain ⟨r, c, sb, rb, g, rfl⟩ := verifyGroth16V2_eq_ok.1 h
      exact .verifyGroth16V2 g
    | recordVerifiedMultisig acc hash k =>
      obtain ⟨r, c, ms, sr, sg, b, g, rfl⟩ := recordVerifiedMultisig_eq_ok.1 h
      exact .recordVerifiedMultisig g
    | finalizeMultisig acc hash =>
      obtain ⟨c, ms, g, rfl⟩ := finalizeMultisig_eq_ok.1 h
      exact .finalizeMultisig g
  · intro h
    cases h with
    | initializeRegistry g => exact initializeRegistry_eq_ok.2 ⟨_, g, rfl⟩
    | registerContract g => exact registerContract_eq_ok.2 ⟨_, _, g, rfl⟩
    | verifySignature g => exact verifySignature_eq_ok.2 ⟨_, _, g, rfl⟩
    | createMultisig g => exact createMultisig_eq_ok.2 ⟨_, _, g, rfl⟩
    | verifyGroth16V2 g => exact verifyGroth16V2_eq_ok.2 ⟨_, _, _, _, g, rfl⟩
    | recordVerifiedMultisig g =>
      exact recordVerifiedMultisig_eq_ok.2 ⟨_, _, _, _, _, _, g, rfl⟩
    | finalizeMultisig g => exact finalizeMultisig_eq_ok.2 ⟨_, _, g, rfl⟩

end Spec

end Oblivia

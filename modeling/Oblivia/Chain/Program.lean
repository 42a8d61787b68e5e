import Oblivia.Chain.Anchor
/-!
# The nine instructions

Each instruction reads the accounts its slots name, creates those it is declared to create, and
writes the accounts back; an error leaves the store as it was. Slots and arguments are the
caller's.
-/

namespace Oblivia

structure Initialize where
  registry : AccountMeta
  authority : AccountMeta
  systemProgram : AccountMeta
  deriving DecidableEq

structure RegisterContract where
  registry : AccountMeta
  contract : AccountMeta
  payer : AccountMeta
  systemProgram : AccountMeta
  deriving DecidableEq

structure SubmitSignature where
  registry : AccountMeta
  contract : AccountMeta
  signature : AccountMeta
  signerRecord : AccountMeta
  payer : AccountMeta
  systemProgram : AccountMeta
  deriving DecidableEq

structure VerifySignature where
  contract : AccountMeta
  signature : AccountMeta
  deriving DecidableEq

structure CreateMultiSig where
  contract : AccountMeta
  multisig : AccountMeta
  payer : AccountMeta
  systemProgram : AccountMeta
  deriving DecidableEq

structure SubmitMultiSigSignature where
  registry : AccountMeta
  contract : AccountMeta
  signature : AccountMeta
  multisig : AccountMeta
  multisigMember : AccountMeta
  payer : AccountMeta
  systemProgram : AccountMeta
  deriving DecidableEq

structure VerifyGroth16V2 where
  registry : AccountMeta
  contract : AccountMeta
  signature : AccountMeta
  signerRecord : AccountMeta
  payer : AccountMeta
  systemProgram : AccountMeta
  deriving DecidableEq

structure RecordVerifiedMultiSig where
  registry : AccountMeta
  contract : AccountMeta
  multisig : AccountMeta
  signerRecord : AccountMeta
  signature : AccountMeta
  multisigMember : AccountMeta
  payer : AccountMeta
  systemProgram : AccountMeta
  deriving DecidableEq

structure FinalizeMultiSig where
  contract : AccountMeta
  multisig : AccountMeta
  deriving DecidableEq

/-- The arguments of `verify_groth16_v2`. -/
structure ProofArgs where
  proofA : Bytes 64
  proofB : Bytes 128
  proofC : Bytes 64
  pubInputs : Bytes 128
  keyCommitment : Bytes 32
  signatureCommitment : Bytes 32
  deriving DecidableEq

inductive Instruction
  | initializeRegistry (acc : Initialize)
  | registerContract (acc : RegisterContract) (contractHash : Bytes 32)
  | submitSignature (acc : SubmitSignature) (keyCommitment signatureCommitment : Bytes 32)
  | verifySignature (acc : VerifySignature)
  | createMultisig (acc : CreateMultiSig) (contractHash : Bytes 32) (threshold maxSigners : UInt8)
  | submitMultisigSignature (acc : SubmitMultiSigSignature)
      (keyCommitment signatureCommitment : Bytes 32)
  | verifyGroth16V2 (acc : VerifyGroth16V2) (args : ProofArgs)
  | recordVerifiedMultisig (acc : RecordVerifiedMultiSig) (contractHash keyCommitment : Bytes 32)
  | finalizeMultisig (acc : FinalizeMultiSig) (contractHash : Bytes 32)
  deriving DecidableEq

-- Named, so that a literal of `Fin 4` is the same term in every definition.
instance neZero_four : NeZero 4 := ⟨by decide⟩

/-- `Groth16Verifier::new` and `verify` under the program's verifying key: whether both accept
the proof points and the four public inputs. -/
abbrev Groth16Verifier := Bytes 64 → Bytes 128 → Bytes 64 → (Fin 4 → Bytes 32) → Bool

/-- The order of the BN254 scalar field. -/
def scalarModulus : ℕ :=
  21888242871839275222246405745257275088548364400416034343698204186575808495617

section Proof

/-- The first and the last 16 bytes of a contract hash, each as the last 16 of 32 bytes. -/
def contractHashLimbs (hash : Bytes 32) : Bytes 32 × Bytes 32 :=
  (⟨List.replicate 16 0 ++ hash.toList.take 16, by simp⟩,
    ⟨List.replicate 16 0 ++ hash.toList.drop 16, by simp⟩)

/-- The public inputs, 32 bytes each. -/
def inputs (pubInputs : Bytes 128) (i : Fin 4) : Bytes 32 :=
  pubInputs.slice (i * 32) 32 (by omega)

def verifyContractBoundProof (groth16 : Groth16Verifier) (contractHash : Bytes 32)
    (args : ProofArgs) : Except ErrorCode Unit := do
  let (low, high) := contractHashLimbs contractHash
  let inp := inputs args.pubInputs
  require (inp 2 = low ∧ inp 3 = high) .invalidProof
  require (inp 0 = args.keyCommitment ∧ inp 1 = args.signatureCommitment) .invalidProof
  require (groth16 args.proofA args.proofB args.proofC inp) .invalidProof

end Proof

variable (D : Pda) (groth16 : Groth16Verifier) (rt : Runtime)

def initializeRegistry (acc : Initialize) (s : Store) : Except ErrorCode Store := do
  checkSigner acc.authority
  checkSystemProgram acc.systemProgram
  let bump ← init D rt s .registry acc.registry
  checkMut acc.authority
  return s.insert acc.registry.key (.registry {
    authority := acc.authority.key, totalContracts := 0, totalSignatures := 0, bump })

def registerContract (acc : RegisterContract) (contractHash : Bytes 32) (s : Store) :
    Except ErrorCode Store := do
  let registry ← load Account.asRegistry s acc.registry
  checkSigner acc.payer
  checkSystemProgram acc.systemProgram
  let bump ← init D rt s (.contract contractHash) acc.contract
  checkSeeds D .registry registry.bump acc.registry
  checkMut acc.registry
  checkMut acc.payer
  require (contractHash ≠ Bytes.zero 32) .invalidContractHash
  let totalContracts ← succU64 registry.totalContracts
  return (s.insert acc.contract.key (.contract {
      contractHash, timestamp := rt.now, signatureCount := 0, active := true, bump })).insert
    acc.registry.key (.registry { registry with totalContracts })

/-- Disabled: fails whatever its accounts. -/
def submitSignature (acc : SubmitSignature) (keyCommitment signatureCommitment : Bytes 32)
    (s : Store) : Except ErrorCode Store := do
  let registry ← load Account.asRegistry s acc.registry
  let contract ← load Account.asContract s acc.contract
  checkSigner acc.payer
  checkSystemProgram acc.systemProgram
  let _ ← init D rt s (.signature acc.contract.key keyCommitment signatureCommitment)
    acc.signature
  let _ ← init D rt s (.signerRecord contract.contractHash keyCommitment) acc.signerRecord
  checkSeeds D .registry registry.bump acc.registry
  checkMut acc.registry
  checkSeeds D (.contract contract.contractHash) contract.bump acc.contract
  checkMut acc.contract
  checkMut acc.payer
  .error .proofBindingUnavailable

def verifySignature (acc : VerifySignature) (s : Store) : Except ErrorCode Store := do
  let contract ← load Account.asContract s acc.contract
  let signature ← load Account.asSignature s acc.signature
  checkSeeds D (.contract contract.contractHash) contract.bump acc.contract
  checkSeeds D (.signature acc.contract.key signature.keyCommitment signature.signatureCommitment)
    signature.bump acc.signature
  require (signature.contract = acc.contract.key) .constraintRaw
  require contract.active .contractInactive
  require (signature.contract = acc.contract.key) .invalidSignatureCommitment
  return s

def createMultisig (acc : CreateMultiSig) (contractHash : Bytes 32)
    (threshold maxSigners : UInt8) (s : Store) : Except ErrorCode Store := do
  let contract ← load Account.asContract s acc.contract
  checkSigner acc.payer
  checkSystemProgram acc.systemProgram
  let bump ← init D rt s (.multisig contractHash threshold maxSigners) acc.multisig
  checkSeeds D (.contract contractHash) contract.bump acc.contract
  checkMut acc.payer
  require (threshold > 0) .invalidMultisigConfig
  require (maxSigners ≥ threshold) .invalidMultisigConfig
  require contract.active .contractInactive
  return s.insert acc.multisig.key (.multisig {
    contract := acc.contract.key, threshold, signaturesCollected := 0, maxSigners,
    finalized := false, finalizedAt := 0, bump })

/-- Disabled: fails whatever its accounts. -/
def submitMultisigSignature (acc : SubmitMultiSigSignature)
    (keyCommitment signatureCommitment : Bytes 32) (s : Store) : Except ErrorCode Store := do
  let registry ← load Account.asRegistry s acc.registry
  let contract ← load Account.asContract s acc.contract
  let multisig ← load Account.asMultisig s acc.multisig
  checkSigner acc.payer
  checkSystemProgram acc.systemProgram
  let _ ← init D rt s (.signature acc.contract.key keyCommitment signatureCommitment)
    acc.signature
  let _ ← init D rt s (.member acc.multisig.key keyCommitment) acc.multisigMember
  checkSeeds D .registry registry.bump acc.registry
  checkMut acc.registry
  checkSeeds D (.contract contract.contractHash) contract.bump acc.contract
  checkMut acc.contract
  checkSeeds D (.multisig contract.contractHash multisig.threshold multisig.maxSigners)
    multisig.bump acc.multisig
  checkMut acc.multisig
  checkMut acc.payer
  .error .proofBindingUnavailable

def verifyGroth16V2 (acc : VerifyGroth16V2) (args : ProofArgs) (s : Store) :
    Except ErrorCode Store := do
  let registry ← load Account.asRegistry s acc.registry
  let contract ← load Account.asContract s acc.contract
  checkSigner acc.payer
  checkSystemProgram acc.systemProgram
  let signatureBump ← init D rt s
    (.signature acc.contract.key args.keyCommitment args.signatureCommitment) acc.signature
  let signerRecordBump ← init D rt s (.signerRecord contract.contractHash args.keyCommitment)
    acc.signerRecord
  checkSeeds D .registry registry.bump acc.registry
  checkMut acc.registry
  checkSeeds D (.contract contract.contractHash) contract.bump acc.contract
  checkMut acc.contract
  checkMut acc.payer
  verifyContractBoundProof groth16 contract.contractHash args
  let signatureCount ← succU64 contract.signatureCount
  let totalSignatures ← succU64 registry.totalSignatures
  return (((s.insert acc.signature.key (.signature {
        keyCommitment := args.keyCommitment, signatureCommitment := args.signatureCommitment,
        contract := acc.contract.key, timestamp := rt.now, bump := signatureBump })).insert
      acc.signerRecord.key (.signerRecord {
        contract := acc.contract.key, keyCommitment := args.keyCommitment,
        timestamp := rt.now, bump := signerRecordBump })).insert
      acc.contract.key (.contract { contract with signatureCount })).insert
      acc.registry.key (.registry { registry with totalSignatures })

/-- The agreement after one more key is counted, finalized when that meets its threshold. -/
def collect (now : Int64) (multisig : MultiSigContract) (signaturesCollected : UInt8) :
    MultiSigContract :=
  if signaturesCollected ≥ multisig.threshold then
    { multisig with signaturesCollected, finalized := true, finalizedAt := now }
  else { multisig with signaturesCollected }

def recordVerifiedMultisig (acc : RecordVerifiedMultiSig) (contractHash keyCommitment : Bytes 32)
    (s : Store) : Except ErrorCode Store := do
  let registry ← load Account.asRegistry s acc.registry
  let contract ← load Account.asContract s acc.contract
  let multisig ← load Account.asMultisig s acc.multisig
  let signerRecord ← load Account.asSignerRecord s acc.signerRecord
  let signature ← load Account.asSignature s acc.signature
  checkSigner acc.payer
  checkSystemProgram acc.systemProgram
  let memberBump ← init D rt s (.member acc.multisig.key keyCommitment) acc.multisigMember
  checkSeeds D .registry registry.bump acc.registry
  checkMut acc.registry
  checkSeeds D (.contract contractHash) contract.bump acc.contract
  checkMut acc.contract
  checkSeeds D (.multisig contractHash multisig.threshold multisig.maxSigners) multisig.bump
    acc.multisig
  checkMut acc.multisig
  require (multisig.contract = acc.contract.key) .constraintHasOne
  checkSeeds D (.signerRecord contractHash keyCommitment) signerRecord.bump acc.signerRecord
  require (signerRecord.contract = acc.contract.key) .constraintHasOne
  require (signerRecord.keyCommitment = keyCommitment) .invalidKeyCommitment
  checkSeeds D (.signature acc.contract.key keyCommitment signature.signatureCommitment)
    signature.bump acc.signature
  require (signature.contract = acc.contract.key) .constraintHasOne
  require (signature.keyCommitment = keyCommitment) .invalidKeyCommitment
  checkMut acc.payer
  require contract.active .contractInactive
  require (!multisig.finalized) .contractInactive
  require (multisig.signaturesCollected < multisig.maxSigners) .duplicateSignature
  let signaturesCollected ← succU8 multisig.signaturesCollected
  return (s.insert acc.multisigMember.key (.member {
      multisig := acc.multisig.key, keyCommitment, timestamp := rt.now,
      bump := memberBump })).insert
    acc.multisig.key (.multisig (collect rt.now multisig signaturesCollected))

def finalizeMultisig (acc : FinalizeMultiSig) (contractHash : Bytes 32) (s : Store) :
    Except ErrorCode Store := do
  let contract ← load Account.asContract s acc.contract
  let multisig ← load Account.asMultisig s acc.multisig
  checkSeeds D (.contract contractHash) contract.bump acc.contract
  checkSeeds D (.multisig contractHash multisig.threshold multisig.maxSigners) multisig.bump
    acc.multisig
  checkMut acc.multisig
  require (!multisig.finalized) .contractInactive
  require (multisig.signaturesCollected ≥ multisig.threshold) .invalidSignatureCommitment
  return s.insert acc.multisig.key (.multisig {
    multisig with finalized := true, finalizedAt := rt.now })

/-- An instruction and what the runtime supplies to it. -/
structure Call where
  rt : Runtime
  ix : Instruction
  deriving DecidableEq

def exec (s : Store) (call : Call) : Except ErrorCode Store :=
  match call.ix with
  | .initializeRegistry acc => initializeRegistry D call.rt acc s
  | .registerContract acc h => registerContract D call.rt acc h s
  | .submitSignature acc k sg => submitSignature D call.rt acc k sg s
  | .verifySignature acc => verifySignature D acc s
  | .createMultisig acc h t n => createMultisig D call.rt acc h t n s
  | .submitMultisigSignature acc k sg => submitMultisigSignature D call.rt acc k sg s
  | .verifyGroth16V2 acc args => verifyGroth16V2 D groth16 call.rt acc args s
  | .recordVerifiedMultisig acc h k => recordVerifiedMultisig D call.rt acc h k s
  | .finalizeMultisig acc h => finalizeMultisig D call.rt acc h s

end Oblivia

import Oblivia.Client.AgreementCreation
import Oblivia.Client.Proving
import Oblivia.Lib.Utf16
/-!
# The functions of the SDK

What an application calls: a contract is signed, alone or as one of the signers of an agreement, and
an agreement is created or finalized. Each function checks its arguments, proves what there is to
prove on its own machine, and then submits it to the network.
-/

namespace Oblivia

namespace Sdk

/-- The content of a contract: a string, a `Uint8Array` or something else. -/
inductive ContractData
  | string (text : Utf16)
  | bytes (l : List UInt8)
  | other

/-- The bytes of a contract that are hashed. -/
def validateContractData : ContractData → Except String (List UInt8)
  | .string text => .ok (Utf16.encode text)
  | .bytes l => .ok l
  | .other => .error "contractData must be a string or Uint8Array"

structure Signature where
  verified : Bool
  transaction : Text
  keyCommitment : Bytes 32
  signatureCommitment : Bytes 32
  contractHash : Bytes 32
  identityRevealed : Bool
  dataTransmitted : Bool

structure Agreement where
  contractHash : Bytes 32
  threshold : ℤ
  maxSigners : ℤ
  multisigAddress : Text
  transaction : Option Text

structure Finalization where
  finalized : Bool
  identityRevealed : Bool
  transaction : Option Text

section Submissions

variable (D : Pda) (keypair : Option Pubkey)

def submitVerifiedGroth16 (contractHash : Bytes 32) (proof : ProofArgs) : Task Text := do
  let payer ← getKeypair keypair
  let key := proof.keyCommitment
  let sig := proof.signatureCommitment
  let (registry, _) ← call (findProgramAddressSync D [registrySeed])
  let (contract, _) ← call (findProgramAddressSync D [contractSeed, contractHash.toList])
  let (signature, _) ← call (findProgramAddressSync D
    [signatureSeed, contract.toList, key.toList, sig.toList])
  let (signerRecord, _) ← call (findProgramAddressSync D
    [Bytes.utf8 "oblivia_signer_record", contractHash.toList, key.toList])
  send id [.verifyGroth16V2 (.of registry contract signature signerRecord payer) proof]

/-- Builds the instructions of `submitVerifiedMultiSig` and sends them as one transaction. -/
def sendVerifiedMultiSig (contractHash : Bytes 32) (threshold maxSigners : ℤ)
    (proof : ProofArgs) : Task Text := do
  let payer ← getKeypair keypair
  -- the clock is the network's, it is no part of what is sent
  let calls ← call
    (submitVerifiedMultiSig D payer ⟨0, true⟩ contractHash threshold maxSigners proof)
  let transaction := calls.map (·.ix)
  transaction.forM fun ix => await id (.request (Rpc.build ix))
  send id transaction

/-- Nothing is sent for an agreement that is finalized already. -/
def sendFinalizeMultisig (contractHash : Bytes 32) (threshold maxSigners : ℤ) :
    Task (Option Text) := do
  let _ ← getKeypair keypair
  let seeds ← call (multisigSeeds contractHash threshold maxSigners)
  let (multisigPda, _) ← call (findProgramAddressSync D seeds)
  let (contractPda, _) ← call (findProgramAddressSync D [contractSeed, contractHash.toList])
  let existing ← await id (.request (Rpc.fetchMultisig multisigPda))
  if existing.finalized then
    return none
  else
    let tx ← send id [.finalizeMultisig (.of contractPda multisigPda) contractHash]
    return some tx

end Submissions

section Functions

variable (D : Pda) (coder : Coder) (base58 : Pubkey → Text) (keypair : Option Pubkey)
  (sha256 : List UInt8 → Bytes 32) (P : Snarkjs)

def hashContract (contractData : ContractData) : Except String (Bytes 32) := do
  return sha256 (← validateContractData contractData)

/-- `generateProof`, for a contract of either kind. -/
def generateDataProof (signerSecret : ByteSource) (contractData : ContractData)
    (timestamp : Text) : Except String (Bytes 32 × ProofArgs) := do
  let contract ← validateContractData contractData
  generateProof sha256 P signerSecret contract timestamp

/-- What is reported of a signature. -/
def Signature.of (transaction : Text) (contractHash : Bytes 32) (proof : ProofArgs) : Signature :=
  ⟨true, transaction, proof.keyCommitment, proof.signatureCommitment, contractHash, false, false⟩

def signContract (signerSecret : ByteSource) (contractData : ContractData) (timestamp : Text) :
    Task Signature := do
  let (contractHash, proof) ← call
    (generateDataProof sha256 P signerSecret contractData timestamp)
  let _ ← registerContract D coder keypair contractHash
  let transaction ← submitVerifiedGroth16 D keypair contractHash proof
  return .of transaction contractHash proof

def createMultiSigContract (contractData : ContractData) (threshold maxSigners : ℤ) :
    Task Agreement := do
  call (validateMultisigConfig threshold maxSigners)
  let contractHash ← call (hashContract sha256 contractData)
  let (multisigPda, tx) ← createAgreement D coder keypair contractHash threshold maxSigners
  return ⟨contractHash, threshold, maxSigners, base58 multisigPda, tx⟩

def signMultiSig (signerSecret : ByteSource) (contractData : ContractData)
    (threshold maxSigners : ℤ) (timestamp : Text) : Task Signature := do
  call (validateMultisigConfig threshold maxSigners)
  let (contractHash, proof) ← call
    (generateDataProof sha256 P signerSecret contractData timestamp)
  let transaction ← sendVerifiedMultiSig D keypair contractHash threshold maxSigners proof
  return .of transaction contractHash proof

def finalizeMultiSigContract (contractData : ContractData) (threshold maxSigners : ℤ) :
    Task Finalization := do
  call (validateMultisigConfig threshold maxSigners)
  let contractHash ← call (hashContract sha256 contractData)
  let transaction ← sendFinalizeMultisig D keypair contractHash threshold maxSigners
  return ⟨true, false, transaction⟩

end Functions

end Sdk

end Oblivia

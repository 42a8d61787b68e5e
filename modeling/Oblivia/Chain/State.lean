import Oblivia.Lib.Bytes
import Oblivia.Lib.FiniteMap
/-!
# The program's accounts

The account types the program stores, its errors, and the store: the accounts the program owns,
by address.  An address that is missing from the store holds no account of the program; it may
still hold lamports.
-/

namespace Oblivia

abbrev Pubkey := Bytes 32

structure ContractRegistry where
  authority : Pubkey
  totalContracts : UInt64
  totalSignatures : UInt64
  bump : UInt8
  deriving DecidableEq

structure Contract where
  contractHash : Bytes 32
  timestamp : Int64
  signatureCount : UInt64
  active : Bool
  bump : UInt8
  deriving DecidableEq

structure ObliviaSignature where
  keyCommitment : Bytes 32
  signatureCommitment : Bytes 32
  contract : Pubkey
  timestamp : Int64
  bump : UInt8
  deriving DecidableEq

/-- An M-of-N agreement on a contract. -/
structure MultiSigContract where
  contract : Pubkey
  threshold : UInt8
  signaturesCollected : UInt8
  maxSigners : UInt8
  finalized : Bool
  finalizedAt : Int64
  bump : UInt8
  deriving DecidableEq

/-- A key counted for an agreement; that it exists keeps the key from being counted twice. -/
structure MultiSigMember where
  multisig : Pubkey
  keyCommitment : Bytes 32
  timestamp : Int64
  bump : UInt8
  deriving DecidableEq

/-- A key that signed a contract; that it exists keeps the key from signing it twice. -/
structure SignerRecord where
  contract : Pubkey
  keyCommitment : Bytes 32
  timestamp : Int64
  bump : UInt8
  deriving DecidableEq

/-- An account of the program, told from the other types by its discriminator. -/
inductive Account
  | registry (r : ContractRegistry)
  | contract (c : Contract)
  | signature (sg : ObliviaSignature)
  | multisig (ms : MultiSigContract)
  | member (mm : MultiSigMember)
  | signerRecord (sr : SignerRecord)
  deriving DecidableEq

namespace Account

def asRegistry : Account → Option ContractRegistry
  | .registry r => some r
  | _ => none

def asContract : Account → Option Contract
  | .contract c => some c
  | _ => none

def asSignature : Account → Option ObliviaSignature
  | .signature sg => some sg
  | _ => none

def asMultisig : Account → Option MultiSigContract
  | .multisig ms => some ms
  | _ => none

def asSignerRecord : Account → Option SignerRecord
  | .signerRecord sr => some sr
  | _ => none

variable {a : Account}

@[simp]
theorem asRegistry_eq_some {r : ContractRegistry} : a.asRegistry = some r ↔ a = .registry r := by
  cases a <;> simp [asRegistry]

@[simp]
theorem asContract_eq_some {c : Contract} : a.asContract = some c ↔ a = .contract c := by
  cases a <;> simp [asContract]

@[simp]
theorem asSignature_eq_some {sg : ObliviaSignature} :
    a.asSignature = some sg ↔ a = .signature sg := by
  cases a <;> simp [asSignature]

@[simp]
theorem asMultisig_eq_some {ms : MultiSigContract} : a.asMultisig = some ms ↔ a = .multisig ms := by
  cases a <;> simp [asMultisig]

@[simp]
theorem asSignerRecord_eq_some {sr : SignerRecord} :
    a.asSignerRecord = some sr ↔ a = .signerRecord sr := by
  cases a <;> simp [asSignerRecord]

end Account

abbrev Store := Finmap fun _ : Pubkey => Account

/-- `ObliviaError`, then the checks of Anchor and of the runtime that the program runs into. -/
inductive ErrorCode
  | contractInactive
  | invalidContractHash
  | invalidKeyCommitment
  | invalidSignatureCommitment
  | duplicateSignature
  | pairingFailed
  | invalidProof
  | proofBindingUnavailable
  | invalidMultisigConfig
  /-- No account of the program at the address. -/
  | accountNotInitialized
  | accountDiscriminatorMismatch
  | accountNotSigner
  | invalidProgramId
  | constraintMut
  | constraintHasOne
  | constraintRaw
  | constraintSeeds
  /-- No bump gives an address off the curve. -/
  | noViableBump
  | accountAlreadyInUse
  | insufficientFunds
  /-- Overflow checks are on in the release profile: an overflow aborts the transaction. -/
  | arithmeticOverflow
  deriving DecidableEq

end Oblivia

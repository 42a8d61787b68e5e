import Oblivia.Client.AccountState
import Oblivia.Lib.Codec
/-!
# The bytes of the accounts

How the program writes each type of account, which is what the interface file tells the coder of
the clients. The coder reads back every account it is for and no account of another type
(`decode_bytes`), and the space the program allocates is the size it expects (`size_layout`).
-/

namespace Oblivia

open Codec

namespace ContractRegistry

def LEN : ℕ := 8 + 32 + 8 + 8 + 1

def discriminator : List UInt8 := [33, 63, 29, 131, 98, 227, 26, 231]

def fields : Codec ContractRegistry :=
  (bytes 32).pair (u64.pair (u64.pair u8)) |>.via
    (fun r => (r.authority, r.totalContracts, r.totalSignatures, r.bump))
    (fun (authority, totalContracts, totalSignatures, bump) =>
      { authority, totalContracts, totalSignatures, bump }) fun _ => rfl

def layout : Codec ContractRegistry := fields.tagged discriminator

end ContractRegistry

namespace Contract

def LEN : ℕ := 8 + 32 + 8 + 8 + 1 + 1

def discriminator : List UInt8 := [172, 138, 115, 242, 121, 67, 183, 26]

def fields : Codec Contract :=
  (bytes 32).pair (i64.pair (u64.pair (bool.pair u8))) |>.via
    (fun c => (c.contractHash, c.timestamp, c.signatureCount, c.active, c.bump))
    (fun (contractHash, timestamp, signatureCount, active, bump) =>
      { contractHash, timestamp, signatureCount, active, bump }) fun _ => rfl

def layout : Codec Contract := fields.tagged discriminator

end Contract

namespace ObliviaSignature

def LEN : ℕ := 8 + 32 + 32 + 32 + 8 + 1

def discriminator : List UInt8 := [222, 143, 111, 193, 23, 145, 230, 110]

def fields : Codec ObliviaSignature :=
  (bytes 32).pair ((bytes 32).pair ((bytes 32).pair (i64.pair u8))) |>.via
    (fun sg => (sg.keyCommitment, sg.signatureCommitment, sg.contract, sg.timestamp, sg.bump))
    (fun (keyCommitment, signatureCommitment, contract, timestamp, bump) =>
      { keyCommitment, signatureCommitment, contract, timestamp, bump }) fun _ => rfl

def layout : Codec ObliviaSignature := fields.tagged discriminator

end ObliviaSignature

namespace MultiSigContract

def LEN : ℕ := 8 + 32 + 1 + 1 + 1 + 1 + 8 + 1

def discriminator : List UInt8 := [63, 126, 229, 134, 199, 15, 113, 209]

def fields : Codec MultiSigContract :=
  (bytes 32).pair (u8.pair (u8.pair (u8.pair (bool.pair (i64.pair u8))))) |>.via
    (fun ms => (ms.contract, ms.threshold, ms.signaturesCollected, ms.maxSigners, ms.finalized,
      ms.finalizedAt, ms.bump))
    (fun (contract, threshold, signaturesCollected, maxSigners, finalized, finalizedAt, bump) =>
      { contract, threshold, signaturesCollected, maxSigners, finalized, finalizedAt, bump })
    fun _ => rfl

def layout : Codec MultiSigContract := fields.tagged discriminator

end MultiSigContract

namespace MultiSigMember

def LEN : ℕ := 8 + 32 + 32 + 8 + 1

def discriminator : List UInt8 := [231, 101, 142, 4, 93, 241, 157, 60]

def fields : Codec MultiSigMember :=
  (bytes 32).pair ((bytes 32).pair (i64.pair u8)) |>.via
    (fun mm => (mm.multisig, mm.keyCommitment, mm.timestamp, mm.bump))
    (fun (multisig, keyCommitment, timestamp, bump) =>
      { multisig, keyCommitment, timestamp, bump }) fun _ => rfl

def layout : Codec MultiSigMember := fields.tagged discriminator

end MultiSigMember

namespace SignerRecord

def LEN : ℕ := 8 + 32 + 32 + 8 + 1

def discriminator : List UInt8 := [76, 168, 87, 131, 126, 74, 27, 58]

def fields : Codec SignerRecord :=
  (bytes 32).pair ((bytes 32).pair (i64.pair u8)) |>.via
    (fun sr => (sr.contract, sr.keyCommitment, sr.timestamp, sr.bump))
    (fun (contract, keyCommitment, timestamp, bump) =>
      { contract, keyCommitment, timestamp, bump }) fun _ => rfl

def layout : Codec SignerRecord := fields.tagged discriminator

end SignerRecord

/-- What an account holds. -/
def Account.bytes : Account → List UInt8
  | .registry r => ContractRegistry.layout.encode r
  | .contract c => Contract.layout.encode c
  | .signature sg => ObliviaSignature.layout.encode sg
  | .multisig ms => MultiSigContract.layout.encode ms
  | .member mm => MultiSigMember.layout.encode mm
  | .signerRecord sr => SignerRecord.layout.encode sr

/-- The coder of the interface file. -/
def idlCoder : Coder where
  contract := ⟨"Contract", Contract.layout.size, Contract.layout.decode⟩
  multisig := ⟨"MultiSigContract", MultiSigContract.layout.size, MultiSigContract.layout.decode⟩

/-- The program allocates as many bytes as an account of the type takes. -/
theorem size_layout : ContractRegistry.layout.size = ContractRegistry.LEN
    ∧ Contract.layout.size = Contract.LEN ∧ ObliviaSignature.layout.size = ObliviaSignature.LEN
    ∧ MultiSigContract.layout.size = MultiSigContract.LEN
    ∧ MultiSigMember.layout.size = MultiSigMember.LEN
    ∧ SignerRecord.layout.size = SignerRecord.LEN :=
  ⟨rfl, rfl, rfl, rfl, rfl, rfl⟩

section Coder

variable {α : Type} {tag : List UInt8} {c : Codec α}

theorem decode_contract_tagged (h : tag.length = 8 ∧ tag ≠ Contract.discriminator) (a : α) :
    idlCoder.contract.decode ((c.tagged tag).encode a) = none :=
  decode_tagged_ne h.1 h.2 c Contract.fields a

theorem decode_multisig_tagged (h : tag.length = 8 ∧ tag ≠ MultiSigContract.discriminator)
    (a : α) : idlCoder.multisig.decode ((c.tagged tag).encode a) = none :=
  decode_tagged_ne h.1 h.2 c MultiSigContract.fields a

/-- The coder reads the accounts of the type it is for, and no others. -/
theorem decode_bytes (a : Account) : idlCoder.contract.decode a.bytes = a.asContract
    ∧ idlCoder.multisig.decode a.bytes = a.asMultisig := by
  cases a with
  | contract c =>
    exact ⟨Contract.layout.decode_encode c, decode_multisig_tagged (by decide) c⟩
  | multisig ms =>
    exact ⟨decode_contract_tagged (by decide) ms, MultiSigContract.layout.decode_encode ms⟩
  | _ x => exact ⟨decode_contract_tagged (by decide) x, decode_multisig_tagged (by decide) x⟩

end Coder

theorem idlCoder_encodes : idlCoder.Encodes Account.bytes where
  contract_size := Contract.layout.length_encode
  contract c := (decode_bytes (.contract c)).1
  multisig_size := MultiSigContract.layout.length_encode
  multisig ms := (decode_bytes (.multisig ms)).2

end Oblivia

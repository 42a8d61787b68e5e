import Oblivia.Chain.Program
/-!
# The transactions of the clients

The SDK and the relay derive the accounts of an instruction on their own, from seeds they spell
out themselves, and fill its slots with the flags of the program's interface file. What they derive
is what the program derives (`findProgramAddressSync_seeds`), and for a signature on an agreement
both build the same two instructions (`multisigSign_eq_ok`).
-/

namespace Oblivia

/-- `PublicKey.findProgramAddressSync` under the program's id: the nonces from `n` down to 1. -/
def findNonce (D : Pda) (seeds : List (List UInt8)) : ℕ → Except String (Pubkey × UInt8)
  | 0 => .error "Unable to find a viable program address nonce"
  | n + 1 => match D.create (seeds.flatten ++ [UInt8.ofNat (n + 1)]) with
    | some address => .ok (address, UInt8.ofNat (n + 1))
    | none => findNonce D seeds n

def findProgramAddressSync (D : Pda) (seeds : List (List UInt8)) :
    Except String (Pubkey × UInt8) := findNonce D seeds 255

theorem findNonce_seeds (D : Pda) (d : Derivation) (p : Pubkey × UInt8) : ∀ n,
    findNonce D d.seeds n = .ok p ↔ D.findFrom d n = some p
  | 0 => by simp [findNonce, Pda.findFrom]
  | n + 1 => by
    unfold findNonce Pda.findFrom Pda.derive Derivation.preimage
    rcases D.create (d.seeds.flatten ++ [UInt8.ofNat (n + 1)]) with _ | a
    · exact findNonce_seeds D d p n
    · simp

/-- The clients find the addresses the program finds. -/
theorem findProgramAddressSync_seeds {D : Pda} {d : Derivation} {p : Pubkey × UInt8} :
    findProgramAddressSync D d.seeds = .ok p ↔ D.findProgramAddress d = some p :=
  findNonce_seeds D d p 255

def validateMultisigConfig (threshold maxSigners : ℤ) : Except String Unit :=
  if threshold < 1 ∨ maxSigners < threshold ∨ maxSigners > 255 then
    .error "Multisig requires integer values: 1 <= threshold <= maxSigners <= 255"
  else .ok ()

def multisigSeeds (hash : Bytes 32) (threshold maxSigners : ℤ) :
    Except String (List (List UInt8)) := do
  validateMultisigConfig threshold maxSigners
  return [Bytes.utf8 "oblivia_multisig", hash.toList, [UInt8.ofNat threshold.toNat],
    [UInt8.ofNat maxSigners.toNat]]

section Slots

def readonly (key : Pubkey) : AccountMeta := ⟨key, false, false⟩
def writable (key : Pubkey) : AccountMeta := ⟨key, false, true⟩
def signer (key : Pubkey) : AccountMeta := ⟨key, true, true⟩

def Initialize.of (registry authority : Pubkey) : Initialize :=
  ⟨writable registry, signer authority, readonly systemProgramId⟩

def RegisterContract.of (registry contract payer : Pubkey) : RegisterContract :=
  ⟨writable registry, writable contract, signer payer, readonly systemProgramId⟩

def CreateMultiSig.of (contract multisig payer : Pubkey) : CreateMultiSig :=
  ⟨readonly contract, writable multisig, signer payer, readonly systemProgramId⟩

def VerifyGroth16V2.of (registry contract signature signerRecord payer : Pubkey) :
    VerifyGroth16V2 :=
  ⟨writable registry, writable contract, writable signature, writable signerRecord, signer payer,
    readonly systemProgramId⟩

def RecordVerifiedMultiSig.of
    (registry contract multisig signerRecord signature multisigMember payer : Pubkey) :
    RecordVerifiedMultiSig :=
  ⟨writable registry, writable contract, writable multisig, readonly signerRecord,
    readonly signature, writable multisigMember, signer payer, readonly systemProgramId⟩

def FinalizeMultiSig.of (contract multisig : Pubkey) : FinalizeMultiSig :=
  ⟨readonly contract, writable multisig⟩

end Slots

namespace Sdk

def registrySeed : List UInt8 := Bytes.utf8 "oblivia_registry"
def contractSeed : List UInt8 := Bytes.utf8 "oblivia_contract"
def signatureSeed : List UInt8 := Bytes.utf8 "oblivia_signature"
def multisigMemberSeed : List UInt8 := Bytes.utf8 "oblivia_multisig_member"

/-- The agreement is read first, and nothing is sent when it is finalized. -/
def finalizeMultisig (D : Pda) (rt : Runtime) (s : Store) (hash : Bytes 32)
    (threshold maxSigners : ℤ) : Except String (Option (Except ErrorCode Store)) := do
  let (multisig, _) ← findProgramAddressSync D (← multisigSeeds hash threshold maxSigners)
  let (contract, _) ← findProgramAddressSync D [contractSeed, hash.toList]
  let existing ← ((s.lookup multisig).bind Account.asMultisig).elim
    (.error "Account does not exist or has no data") .ok
  if existing.finalized then return none
  return some (Oblivia.finalizeMultisig D rt (.of contract multisig) hash s)

/-- The transaction that proves a signature and counts it. -/
def submitVerifiedMultiSig (D : Pda) (payer : Pubkey) (rt : Runtime) (hash : Bytes 32)
    (threshold maxSigners : ℤ) (proof : ProofArgs) : Except String (List Call) := do
  let key := proof.keyCommitment
  let sig := proof.signatureCommitment
  let (registry, _) ← findProgramAddressSync D [registrySeed]
  let (contract, _) ← findProgramAddressSync D [contractSeed, hash.toList]
  let (signature, _) ← findProgramAddressSync D
    [signatureSeed, contract.toList, key.toList, sig.toList]
  let (signerRecord, _) ← findProgramAddressSync D
    [Bytes.utf8 "oblivia_signer_record", hash.toList, key.toList]
  let (multisig, _) ← findProgramAddressSync D (← multisigSeeds hash threshold maxSigners)
  let (member, _) ← findProgramAddressSync D [multisigMemberSeed, multisig.toList, key.toList]
  let verify := .verifyGroth16V2 (.of registry contract signature signerRecord payer) proof
  let record := .recordVerifiedMultisig
    (.of registry contract multisig signerRecord signature member payer) hash key
  return [⟨rt, verify⟩, ⟨rt, record⟩]

end Sdk

namespace Relay

def registrySeed : List UInt8 := Bytes.utf8 "oblivia_registry"
def contractSeed : List UInt8 := Bytes.utf8 "oblivia_contract"
def signatureSeed : List UInt8 := Bytes.utf8 "oblivia_signature"
def multisigMemberSeed : List UInt8 := Bytes.utf8 "oblivia_multisig_member"

/-- The transaction of `POST /multisig/sign`, from the parsed body. -/
def multisigSign (D : Pda) (payer : Pubkey) (rt : Runtime) (contractHashBytes : Bytes 32)
    (threshold maxSigners : ℤ) (proof : ProofArgs) : Except String (List Call) := do
  validateMultisigConfig threshold maxSigners
  let keyCommitmentBytes := proof.keyCommitment
  let sigCommitmentBytes := proof.signatureCommitment
  let (registryPda, _) ← findProgramAddressSync D [registrySeed]
  let (contractPda, _) ← findProgramAddressSync D [contractSeed, contractHashBytes.toList]
  let (signaturePda, _) ← findProgramAddressSync D
    [signatureSeed, contractPda.toList, keyCommitmentBytes.toList, sigCommitmentBytes.toList]
  let (multisigPda, _) ← findProgramAddressSync D
    (← multisigSeeds contractHashBytes threshold maxSigners)
  let (memberPda, _) ← findProgramAddressSync D
    [multisigMemberSeed, multisigPda.toList, keyCommitmentBytes.toList]
  let (signerRecord, _) ← findProgramAddressSync D
    [Bytes.utf8 "oblivia_signer_record", contractHashBytes.toList, keyCommitmentBytes.toList]
  let verify := .verifyGroth16V2
    (.of registryPda contractPda signaturePda signerRecord payer) proof
  let (signerRecord', _) ← findProgramAddressSync D
    [Bytes.utf8 "oblivia_signer_record", contractHashBytes.toList, keyCommitmentBytes.toList]
  let record := .recordVerifiedMultisig
    (.of registryPda contractPda multisigPda signerRecord' signaturePda memberPda payer)
    contractHashBytes keyCommitmentBytes
  return [⟨rt, verify⟩, ⟨rt, record⟩]

end Relay

/-- The accounts of a combined transaction, at the addresses the program derives for them. -/
structure SignAccounts (D : Pda) (hash : Bytes 32) (threshold maxSigners : UInt8)
    (key sig : Bytes 32) where
  registry : Pubkey × UInt8
  contract : Pubkey × UInt8
  signature : Pubkey × UInt8
  signerRecord : Pubkey × UInt8
  multisig : Pubkey × UInt8
  member : Pubkey × UInt8
  registry_eq : D.findProgramAddress .registry = some registry
  contract_eq : D.findProgramAddress (.contract hash) = some contract
  signature_eq : D.findProgramAddress (.signature contract.1 key sig) = some signature
  signerRecord_eq : D.findProgramAddress (.signerRecord hash key) = some signerRecord
  multisig_eq : D.findProgramAddress (.multisig hash threshold maxSigners) = some multisig
  member_eq : D.findProgramAddress (.member multisig.1 key) = some member

namespace SignAccounts

variable {D : Pda} {hash key sig : Bytes 32} {t n : UInt8}

def verify (A : SignAccounts D hash t n key sig) (payer : Pubkey) : VerifyGroth16V2 :=
  .of A.registry.1 A.contract.1 A.signature.1 A.signerRecord.1 payer

def record (A : SignAccounts D hash t n key sig) (payer : Pubkey) : RecordVerifiedMultiSig :=
  .of A.registry.1 A.contract.1 A.multisig.1 A.signerRecord.1 A.signature.1 A.member.1 payer

def transaction {proof : ProofArgs}
    (A : SignAccounts D hash t n proof.keyCommitment proof.signatureCommitment) (payer : Pubkey)
    (rt : Runtime) : List Call :=
  [⟨rt, .verifyGroth16V2 (A.verify payer) proof⟩,
    ⟨rt, .recordVerifiedMultisig (A.record payer) hash proof.keyCommitment⟩]

end SignAccounts

section Build

variable {D : Pda} {payer : Pubkey} {rt : Runtime} {hash : Bytes 32} {t n : UInt8}
  {proof : ProofArgs} {tx : List Call}

theorem validateMultisigConfig_eq_ok {u : Unit} :
    validateMultisigConfig t.toNat n.toNat = .ok u ↔ 0 < t ∧ t ≤ n := by
  have hn := n.toNat_lt
  simp only [validateMultisigConfig, UInt8.lt_iff_toNat_lt, UInt8.le_iff_toNat_le,
    UInt8.toNat_zero]
  split_ifs with h
  · simp only [false_iff, not_and]
    omega
  · simp only [true_iff]
    omega

theorem multisigSeeds_eq_ok {seeds : List (List UInt8)} :
    multisigSeeds hash t.toNat n.toNat = .ok seeds
      ↔ 0 < t ∧ t ≤ n ∧ (Derivation.multisig hash t n).seeds = seeds := by
  simp only [multisigSeeds, Batch.bind_eq_ok, Batch.pure_eq_ok, validateMultisigConfig_eq_ok,
    exists_const, Int.toNat_natCast, UInt8.ofNat_toNat, and_assoc]
  exact Iff.rfl

/-- The SDK builds the transaction on the program's addresses, for settings that are valid. -/
theorem submitVerifiedMultiSig_eq_ok :
    Sdk.submitVerifiedMultiSig D payer rt hash t.toNat n.toNat proof = .ok tx
      ↔ 0 < t ∧ t ≤ n ∧ ∃ A : SignAccounts D hash t n proof.keyCommitment
          proof.signatureCommitment, A.transaction payer rt = tx := by
  have find (d : Derivation) (p : Pubkey × UInt8) :=
    findProgramAddressSync_seeds (D := D) (d := d) (p := p)
  simp only [Sdk.submitVerifiedMultiSig, Batch.bind_eq_ok, Batch.pure_eq_ok, multisigSeeds_eq_ok]
  constructor
  · rintro ⟨r, hr, c, hc, sg, hsg, sr, hsr, _, ⟨h₁, h₂, rfl⟩, m, hm, mm, hmm, rfl⟩
    exact ⟨h₁, h₂, ⟨r, c, sg, sr, m, mm, (find .registry r).1 hr, (find (.contract hash) c).1 hc,
      (find (.signature _ _ _) sg).1 hsg, (find (.signerRecord _ _) sr).1 hsr, (find _ m).1 hm,
      (find (.member _ _) mm).1 hmm⟩, rfl⟩
  · rintro ⟨h₁, h₂, A, rfl⟩
    exact ⟨_, (find .registry _).2 A.registry_eq, _, (find (.contract hash) _).2 A.contract_eq,
      _, (find (.signature _ _ _) _).2 A.signature_eq,
      _, (find (.signerRecord _ _) _).2 A.signerRecord_eq, _, ⟨h₁, h₂, rfl⟩,
      _, (find (.multisig _ _ _) _).2 A.multisig_eq, _, (find (.member _ _) _).2 A.member_eq, rfl⟩

/-- The relay builds the transaction the SDK builds. -/
theorem multisigSign_eq_ok :
    Relay.multisigSign D payer rt hash t.toNat n.toNat proof = .ok tx
      ↔ Sdk.submitVerifiedMultiSig D payer rt hash t.toNat n.toNat proof = .ok tx := by
  have find (d : Derivation) (p : Pubkey × UInt8) :=
    findProgramAddressSync_seeds (D := D) (d := d) (p := p)
  rw [submitVerifiedMultiSig_eq_ok]
  simp only [Relay.multisigSign, Batch.bind_eq_ok, Batch.pure_eq_ok, multisigSeeds_eq_ok,
    validateMultisigConfig_eq_ok]
  constructor
  · rintro ⟨-, -, r, hr, c, hc, sg, hsg, _, ⟨h₁, h₂, rfl⟩, m, hm, mm, hmm, sr, hsr, sr', hsr', rfl⟩
    rw [hsr, Except.ok.injEq] at hsr'
    subst hsr'
    exact ⟨h₁, h₂, ⟨r, c, sg, sr, m, mm, (find .registry r).1 hr, (find (.contract hash) c).1 hc,
      (find (.signature _ _ _) sg).1 hsg, (find (.signerRecord _ _) sr).1 hsr, (find _ m).1 hm,
      (find (.member _ _) mm).1 hmm⟩, rfl⟩
  · rintro ⟨h₁, h₂, A, rfl⟩
    have hsr := (find (.signerRecord _ _) _).2 A.signerRecord_eq
    exact ⟨(), ⟨h₁, h₂⟩, _, (find .registry _).2 A.registry_eq,
      _, (find (.contract hash) _).2 A.contract_eq,
      _, (find (.signature _ _ _) _).2 A.signature_eq, _, ⟨h₁, h₂, rfl⟩,
      _, (find (.multisig _ _ _) _).2 A.multisig_eq, _, (find (.member _ _) _).2 A.member_eq,
      _, hsr, _, hsr, rfl⟩

end Build

end Oblivia

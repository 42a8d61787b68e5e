import Oblivia.Client.Encoding
/-!
# Proving in the clients

The four clients derive a signer key, build a circuit input and run the prover on it. The SDKs
check the proof they get. The pages send its bytes to the relay, in a JSON text.
-/

namespace Oblivia

structure CircuitInput where
  signerKey : Text
  contractHashLo : Text
  contractHashHi : Text
  timestamp : Text
  deriving DecidableEq

/-- The prover and verifier of the proof system, under the circuit's proving and verification
key. -/
structure Snarkjs where
  fullProve : CircuitInput → Except String (Groth16Proof × (Fin 4 → Text))
  verify : (Fin 4 → Text) → Groth16Proof → Bool

variable (sha256 : List UInt8 → Bytes 32) (P : Snarkjs) (secret : ByteSource)
  (contract : List UInt8) (timestamp : Text)

namespace Sdk

/-- `generateIntentProof`, up to the prover. -/
def circuitInput (signerKey : Text) : Except String CircuitInput := do
  let hex := Numeral.hexEncode (sha256 contract).toList
  return {
    signerKey := bigIntText (← bigInt signerKey)
    timestamp := timestamp
    contractHashLo := ← hexField (hex.take 32)
    contractHashHi := ← hexField (hex.drop 32) }

def generateIntentProof (signerKey : Text) : Except String (Bytes 32 × ProofArgs) := do
  let input ← circuitInput sha256 contract timestamp signerKey
  let (proof, publicSignals) ← P.fullProve input
  if P.verify publicSignals proof then
    return (sha256 contract, ← serializeProof proof publicSignals)
  else .error "Groth16 proof verification failed"

/-- The contract hash and the arguments of the instruction that is sent. -/
def generateProof : Except String (Bytes 32 × ProofArgs) := do
  let signerKey ← deriveSignerKey sha256 secret (.ofBytes (sha256 contract).toList)
  generateIntentProof sha256 P contract timestamp signerKey

end Sdk

namespace BrowserSdk

def toField (bytes : List UInt8) : Except String Text := hexField (paddedHex bytes)

def circuitInput : Except String CircuitInput := do
  let _ ← toSecretBytes secret
  let contractHash := (sha256 contract).toList
  let signerKey ← deriveSignerKey sha256 secret (.view 1 contractHash)
  return {
    signerKey := signerKey
    contractHashLo := ← toField (contractHash.take 16)
    contractHashHi := ← toField (contractHash.drop 16)
    timestamp := timestamp }

def generateProof : Except String (Bytes 32 × Groth16Proof × (Fin 4 → Text)) := do
  let input ← circuitInput sha256 secret contract timestamp
  let (proof, publicSignals) ← P.fullProve input
  if P.verify publicSignals proof then return (sha256 contract, proof, publicSignals)
  else .error "local Groth16 proof verification failed"

end BrowserSdk

/-- A plain array of bytes, as JSON. -/
def jsonBytes (l : List UInt8) : Json := .array (l.map fun b => .number (.ofNat b.toNat))

/-- A text of hexadecimal digits with its prefix, as JSON. -/
def jsonHex (l : List UInt8) : Json := .string ("0x".toList ++ Numeral.hexEncode l)

namespace SignPage

def contractHashLimbs (hash : List UInt8) : Except String (Text × Text) := do
  let hex := paddedHex hash
  return (← hexField (hex.take 32), ← hexField (hex.drop 32))

def anchorProof : Groth16Proof → (Fin 4 → Text) → Except String ProofArgs := serializeProof

def circuitInput : Except String CircuitInput := do
  let contractHash := (sha256 contract).toList.take 32
  let signingKey ← deriveSignerKey sha256 secret (.ofBytes contractHash)
  let (lo, hi) ← contractHashLimbs contractHash
  return {
    contractHashLo := lo
    contractHashHi := hi
    signerKey := signingKey
    timestamp := timestamp }

/-- The body `signContract` sends to `POST /sign`. -/
def requestBody (contractHash : List UInt8) (payload : ProofArgs) : Json :=
  .object
    [("contractHash".toList, jsonBytes contractHash),
      ("keyCommitment".toList, jsonHex payload.keyCommitment.toList),
      ("signatureCommitment".toList, jsonHex payload.signatureCommitment.toList),
      ("proofA".toList, jsonBytes payload.proofA.toList),
      ("proofB".toList, jsonBytes payload.proofB.toList),
      ("proofC".toList, jsonBytes payload.proofC.toList),
      ("publicInputs".toList, jsonBytes payload.pubInputs.toList)]

def requestText : Except String Text := do
  let contractHash := (sha256 contract).toList.take 32
  let input ← circuitInput sha256 secret contract timestamp
  let (proof, publicSignals) ← P.fullProve input
  let payload ← anchorProof proof publicSignals
  return (requestBody contractHash payload).stringify

end SignPage

namespace MultisigPage

def grothPayload : Groth16Proof → (Fin 4 → Text) → Except String ProofArgs := serializeProof

def hashContract : List UInt8 := (sha256 contract).toList.take 32

def circuitInput : Except String CircuitInput := do
  let currentHash := hashContract sha256 contract
  let signingKey ← deriveSignerKey sha256 secret (.ofBytes currentHash)
  let hex := paddedHex currentHash
  return {
    contractHashLo := ← hexField (hex.take 32)
    contractHashHi := ← hexField (hex.drop 32)
    signerKey := signingKey
    timestamp := timestamp }

/-- The body `doSign` sends to `POST /multisig/sign`. -/
def requestBody (currentHash : List UInt8) (threshold maxSigners : ℕ) (payload : ProofArgs) :
    Json :=
  .object
    [("contractHash".toList, jsonBytes currentHash),
      ("threshold".toList, .number (.ofNat threshold)),
      ("maxSigners".toList, .number (.ofNat maxSigners)),
      ("keyCommitment".toList, jsonHex payload.keyCommitment.toList),
      ("signatureCommitment".toList, jsonHex payload.signatureCommitment.toList),
      ("proofA".toList, jsonBytes payload.proofA.toList),
      ("proofB".toList, jsonBytes payload.proofB.toList),
      ("proofC".toList, jsonBytes payload.proofC.toList),
      ("publicInputs".toList, jsonBytes payload.pubInputs.toList)]

def requestText (threshold maxSigners : ℕ) : Except String Text := do
  let input ← circuitInput sha256 secret contract timestamp
  let (proof, publicSignals) ← P.fullProve input
  let payload ← grothPayload proof publicSignals
  return (requestBody (hashContract sha256 contract) threshold maxSigners payload).stringify

end MultisigPage

section Inputs

variable {sha256 P secret contract timestamp} {signerKey : Text} {k : ℕ}

/-- The input every client builds for a key. -/
def CircuitInput.of (k : ℕ) (hash : Bytes 32) (timestamp : Text) : CircuitInput :=
  ⟨decimal k, (limbDecimals hash).1, (limbDecimals hash).2, timestamp⟩

theorem Sdk.circuitInput_eq : Sdk.circuitInput sha256 contract timestamp (decimal k)
    = .ok (.of k (sha256 contract) timestamp) := by
  obtain ⟨hlo, hhi⟩ := hexField_digits (sha256 contract)
  simp only [circuitInput, bigInt_decimal, hlo, hhi, Batch.ok_bind]
  rfl

variable (hkey : deriveSignerKey sha256 secret (.ofBytes (sha256 contract).toList)
  = .ok (decimal k))

include hkey

theorem BrowserSdk.circuitInput_eq : BrowserSdk.circuitInput sha256 secret contract timestamp
    = .ok (.of k (sha256 contract) timestamp) := by
  obtain ⟨hlo, hhi⟩ := hexField_bytes (sha256 contract)
  obtain ⟨bytes, hbytes, -⟩ := Batch.bind_eq_ok.1 hkey
  have hview : deriveSignerKey sha256 secret (.view 1 (sha256 contract).toList)
      = .ok (decimal k) := by
    rw [← hkey, deriveSignerKey, deriveSignerKey, toContractHash_view, toContractHash_ofBytes]
  simp only [circuitInput, toField, paddedHex_eq, hbytes, hview, hlo, hhi, Batch.ok_bind]
  rfl

theorem SignPage.circuitInput_eq : SignPage.circuitInput sha256 secret contract timestamp
    = .ok (.of k (sha256 contract) timestamp) := by
  obtain ⟨hlo, hhi⟩ := hexField_digits (sha256 contract)
  have hall : (sha256 contract).toList.take 32 = (sha256 contract).toList :=
    List.take_of_length_le (by simp)
  simp only [circuitInput, SignPage.contractHashLimbs, paddedHex_eq, hall, hkey, hlo, hhi,
    Batch.ok_bind]
  rfl

theorem MultisigPage.circuitInput_eq : MultisigPage.circuitInput sha256 secret contract timestamp
    = .ok (.of k (sha256 contract) timestamp) := by
  obtain ⟨hlo, hhi⟩ := hexField_digits (sha256 contract)
  have hall : hashContract sha256 contract = (sha256 contract).toList :=
    List.take_of_length_le (by simp)
  simp only [circuitInput, paddedHex_eq, hall, hkey, hlo, hhi, Batch.ok_bind]
  rfl

end Inputs

end Oblivia

import Oblivia.Client.Proving
import Oblivia.Client.Transactions
/-!
# Requests to the relay

What the relay reads from the body of a request: the checks of every field, in the order the
handlers make them, with the status and the text of each error. A field written by a client reads
as the bytes it was written from.
-/

namespace Oblivia

namespace Relay

structure RelayError where
  status : ℕ
  message : String
  deriving DecidableEq

def validateRequestBody : Option Json → Except RelayError Json
  | some (.object fields) => .ok (.object fields)
  | _ => .error ⟨400, "Request body must be a JSON object"⟩

/-- `Number.isInteger` and its integer. -/
def integer : Option Json → Option ℤ
  | some (.number x) => x.value.bind fun y => if y.isInt then some y.num else none
  | _ => none

def validateRequestConfig (threshold maxSigners : Option Json) : Except RelayError (ℤ × ℤ) :=
  let invalid := RelayError.mk 400
    "Multisig requires integer values: 1 <= threshold <= maxSigners <= 255"
  match integer threshold, integer maxSigners with
  | some t, some n => match validateMultisigConfig t n with
    | .ok () => .ok (t, n)
    | .error message => .error ⟨400, message⟩
  | _, _ => .error invalid

/-- `/^[0-9a-fA-F]{64}$/`. -/
def IsHex64 (s : Text) : Prop := s.length = 64 ∧ ∀ c ∈ s, Numeral.digitVal c < 16

instance (s : Text) : Decidable (IsHex64 s) :=
  have := List.decidableBAll (Numeral.digitVal · < 16) s
  inferInstanceAs (Decidable (_ ∧ _))

/-- The text without the prefix `0x`. -/
def stripPrefix : Text → Text
  | '0' :: 'x' :: s => s
  | s => s

theorem length_hexDecode {s : Text} (h : IsHex64 s) : (Numeral.hexDecode s).length = 32 :=
  Numeral.length_hexDecode h.2 (by rw [h.1])

/-- The prefix is optional, and no text of 64 digits starts with it. -/
def parseHex32 (value : Option Json) (name : String) : Except RelayError (Bytes 32) :=
  let invalid := RelayError.mk 400 (name ++ " must be exactly 32 bytes of hexadecimal")
  match value with
  | some (.string s) =>
    if h : IsHex64 (stripPrefix s) then .ok ⟨Numeral.hexDecode (stripPrefix s), length_hexDecode h⟩
    else .error invalid
  | _ => .error invalid

/-- The byte an entry is. -/
def byteOf (entry : Json) : Option UInt8 :=
  (integer (some entry)).bind fun b =>
    if b < 0 ∨ b > 255 then none else some (UInt8.ofNat b.toNat)

/-- The bytes of the entries, in order. -/
def bytesOf : List Json → Option (List UInt8)
  | [] => some []
  | e :: entries => do return (← byteOf e) :: (← bytesOf entries)

def parseByteArray (value : Option Json) (length : ℕ) (name : String) :
    Except RelayError (Bytes length) :=
  let invalid := RelayError.mk 400
    (name ++ " must be an array of exactly " ++ toString length ++ " bytes")
  match value with
  | some (.array entries) =>
    match bytesOf entries with
    | some bytes => if h : bytes.length = length then .ok ⟨bytes, h⟩ else .error invalid
    | none => .error invalid
  | _ => .error invalid

def parseBytes32 (value : Option Json) (name : String) : Except RelayError (Bytes 32) :=
  parseByteArray value 32 name

/-- The body `express.json` reads from the text of a request. -/
def parseBody (text : Text) : Except RelayError Json :=
  (Json.parse text).elim (.error ⟨400, "Request body must contain valid JSON"⟩) .ok

/-- The fields both handlers read, in order. -/
def parseProof (body : Json) : Except RelayError (Bytes 32 × ProofArgs) := do
  let contractHashBytes ← parseBytes32 (body.field "contractHash") "contractHash"
  let keyCommitmentBytes ← parseHex32 (body.field "keyCommitment") "keyCommitment"
  let sigCommitmentBytes ← parseHex32 (body.field "signatureCommitment") "signatureCommitment"
  let proofA ← parseByteArray (body.field "proofA") 64 "proofA"
  let proofB ← parseByteArray (body.field "proofB") 128 "proofB"
  let proofC ← parseByteArray (body.field "proofC") 64 "proofC"
  let publicInputs ← parseByteArray (body.field "publicInputs") 128 "publicInputs"
  return (contractHashBytes, {
    proofA := proofA, proofB := proofB, proofC := proofC, pubInputs := publicInputs
    keyCommitment := keyCommitmentBytes, signatureCommitment := sigCommitmentBytes })

/-- What `POST /sign` reads. -/
def signRequest (body : Option Json) : Except RelayError (Bytes 32 × ProofArgs) := do
  let body ← validateRequestBody body
  parseProof body

/-- What `POST /multisig/create` reads. -/
def createRequest (body : Option Json) : Except RelayError ((ℤ × ℤ) × Bytes 32) := do
  let body ← validateRequestBody body
  let config ← validateRequestConfig (body.field "threshold") (body.field "maxSigners")
  return (config, ← parseBytes32 (body.field "contractHash") "contractHash")

/-- What `POST /multisig/sign` reads. -/
def multisigSignRequest (body : Option Json) :
    Except RelayError ((ℤ × ℤ) × Bytes 32 × ProofArgs) := do
  let body ← validateRequestBody body
  let config ← validateRequestConfig (body.field "threshold") (body.field "maxSigners")
  return (config, ← parseProof body)

section RoundTrip

theorem integer_ofNat {n : ℕ} (hn : n < 2 ^ 53) :
    integer (some (.number (.ofNat n))) = some (n : ℤ) := by
  simp [integer, Json.Literal.value_ofNat hn, Rat.isInt]

theorem validateRequestConfig_ofNat {t n : ℕ} (ht : 1 ≤ t) (htn : t ≤ n) (hn : n ≤ 255) :
    validateRequestConfig (some (.number (.ofNat t))) (some (.number (.ofNat n)))
      = .ok (t, n) := by
  have hvalid : validateMultisigConfig t n = .ok () := if_neg (by omega)
  simp only [validateRequestConfig, integer_ofNat (n := t) (by omega),
    integer_ofNat (n := n) (by omega), hvalid]

theorem bytesOf_jsonBytes : ∀ l : List UInt8,
    bytesOf (l.map fun b => .number (.ofNat b.toNat)) = some l
  | [] => rfl
  | b :: l => by
    have hb := b.toNat_lt
    have hbyte : byteOf (.number (.ofNat b.toNat)) = some b := by
      have hle : ¬ ((b.toNat : ℤ) < 0 ∨ (b.toNat : ℤ) > 255) := by omega
      rw [byteOf, integer_ofNat (by omega), Option.bind_some, if_neg hle]
      simp
    rw [List.map_cons, bytesOf, hbyte, bytesOf_jsonBytes l]
    rfl

theorem parseByteArray_jsonBytes {n : ℕ} (b : Bytes n) (name : String) :
    parseByteArray (some (jsonBytes b.toList)) n name = .ok b := by
  simp only [parseByteArray, jsonBytes, bytesOf_jsonBytes]
  exact dif_pos (Bytes.length_toList b)

theorem parseHex32_jsonHex (b : Bytes 32) (name : String) :
    parseHex32 (some (jsonHex b.toList)) name = .ok b := by
  have hhex : IsHex64 (Numeral.hexEncode b.toList) :=
    ⟨by rw [Numeral.length_hexEncode, Bytes.length_toList], Numeral.digitVal_hexEncode⟩
  have hok : parseHex32 (some (jsonHex b.toList)) name
      = .ok ⟨Numeral.hexDecode (Numeral.hexEncode b.toList), length_hexDecode hhex⟩ :=
    dif_pos hhex
  rw [hok]
  exact congrArg Except.ok (Bytes.toList_inj.1 (Numeral.hexDecode_hexEncode _))

/-- The fields of a proof, as the pages write them. -/
theorem parseProof_fields {body : Json} {h : Bytes 32} {payload : ProofArgs}
    (hhash : body.field "contractHash" = some (jsonBytes h.toList))
    (hkey : body.field "keyCommitment" = some (jsonHex payload.keyCommitment.toList))
    (hsig : body.field "signatureCommitment" = some (jsonHex payload.signatureCommitment.toList))
    (ha : body.field "proofA" = some (jsonBytes payload.proofA.toList))
    (hb : body.field "proofB" = some (jsonBytes payload.proofB.toList))
    (hc : body.field "proofC" = some (jsonBytes payload.proofC.toList))
    (hpub : body.field "publicInputs" = some (jsonBytes payload.pubInputs.toList)) :
    parseProof body = .ok (h, payload) := by
  simp only [parseProof, parseBytes32, hhash, hkey, hsig, ha, hb, hc, hpub,
    parseByteArray_jsonBytes, parseHex32_jsonHex, Batch.ok_bind]
  rfl

/-- The single-sign page's body reads as the hash and the proof it was built from. -/
theorem signRequest_requestBody (h : Bytes 32) (payload : ProofArgs) :
    signRequest (some (SignPage.requestBody h.toList payload)) = .ok (h, payload) :=
  parseProof_fields rfl rfl rfl rfl rfl rfl rfl

/-- The multisig page's body reads as its settings, the hash and the proof. -/
theorem multisigSignRequest_requestBody (h : Bytes 32) (payload : ProofArgs) {t n : ℕ}
    (ht : 1 ≤ t) (htn : t ≤ n) (hn : n ≤ 255) :
    multisigSignRequest (some (MultisigPage.requestBody h.toList t n payload))
      = .ok ((t, n), h, payload) := by
  have hproof : parseProof (MultisigPage.requestBody h.toList t n payload) = .ok (h, payload) :=
    parseProof_fields rfl rfl rfl rfl rfl rfl rfl
  show (validateRequestConfig (some (.number (.ofNat t))) (some (.number (.ofNat n)))).bind _ = _
  rw [validateRequestConfig_ofNat ht htn hn]
  show (parseProof (MultisigPage.requestBody h.toList t n payload)).bind _ = _
  rw [hproof]
  rfl

theorem parseBody_stringify (body : Json) : parseBody body.stringify = .ok body := by
  rw [parseBody, Json.parse_stringify]
  rfl

end RoundTrip

end Relay

end Oblivia

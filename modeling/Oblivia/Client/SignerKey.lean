import Oblivia.Chain.Program
import Oblivia.Lib.Json
/-!
# Signer keys

The private circuit input of a signer for one contract: 248 bits of a hash of the signer's secret
and the contract hash, with SHA-256 an arbitrary function. A secret and a hash come in any
container the client accepts, and only their bytes count.
-/

namespace Oblivia

/-- A JavaScript text of whole characters. -/
abbrev Text := List Char

/-- `toString` of a `BigInt` that is not negative. -/
def decimal (n : ℕ) : Text := Nat.toDigits 10 n

/-- An entry of a plain array: a finite number, no entry at all, or anything else. -/
inductive Entry
  | number (x : ℚ)
  | hole
  | other

/-- What a caller may pass where bytes are expected. -/
inductive ByteSource
  /-- A typed array with this many bytes an element, over these bytes. -/
  | view (bytesPerElement : ℕ) (bytes : List UInt8)
  | dataView (bytes : List UInt8)
  | array (entries : List Entry)
  | other

def signerKeyDomain : List UInt8 := Bytes.utf8 "oblivia/signer-key/v2"

def secretError : String :=
  "signerSecret must be a Uint8Array of at least 32 bytes from a passkey, wallet or device seed"

def hashError : String := "contractHash must be the 32-byte SHA-256 of the contract"

/-- The check `every` makes on an entry; it passes over holes. -/
def Entry.isByte : Entry → Bool
  | number x => x.isInt && 0 ≤ x && x ≤ 255
  | hole => true
  | other => false

/-- The element of a byte array made from an entry. -/
def Entry.toByte : Entry → UInt8
  | number x => UInt8.ofNat x.num.toNat
  | _ => 0

def toContractHash : ByteSource → Except String (Bytes 32)
  | .view 1 bytes => if h : bytes.length = 32 then .ok ⟨bytes, h⟩ else .error hashError
  | .array entries =>
    if h : entries.all Entry.isByte = true ∧ entries.length = 32 then
      .ok ⟨entries.map Entry.toByte, by simp [h.2]⟩
    else .error hashError
  | _ => .error hashError

def toSecretBytes : ByteSource → Except String (List UInt8)
  | .view 1 bytes =>
    if bytes.length < 32 then .error secretError
    else if bytes.all (· == 0) then .error "signerSecret must not be all zero bytes"
    else .ok bytes
  | _ => .error secretError

/-- The bytes that are hashed: domain, separator, contract hash, secret. -/
def signerKeyPreimage (hash : Bytes 32) (secret : List UInt8) : List UInt8 :=
  signerKeyDomain ++ [0] ++ hash.toList ++ secret

variable (sha256 : List UInt8 → Bytes 32)

def deriveSignerKey (secret contractHash : ByteSource) : Except String Text := do
  let bytes ← toSecretBytes secret
  let hash ← toContractHash contractHash
  let digest := sha256 (signerKeyPreimage hash bytes)
  let key := (digest.toList.take 31).foldl (fun key b => key <<< 8 ||| b.toNat) 0
  if key = 0 then .error "derived signer key is zero; use a different secret"
  else .ok (decimal key)

section Lemmas

/-- Shifting bytes in from the right reads them big-endian. -/
theorem foldl_shift (l : List UInt8) :
    l.foldl (fun key b => key <<< 8 ||| b.toNat) 0 = Bytes.beVal l := by
  induction l using List.reverseRecOn with
  | nil => rfl
  | append_singleton l b ih =>
    have hb : b.toNat < 2 ^ 8 := b.toNat_lt
    have hval : Bytes.beVal [b] = b.toNat := by simp [Bytes.beVal]
    rw [List.foldl_append, ih, List.foldl_cons, List.foldl_nil, ← Nat.shiftLeft_add_eq_or_of_lt hb,
      Nat.shiftLeft_eq, Bytes.beVal_append, hval]
    rfl

/-- The plain array of these bytes. -/
def ByteSource.ofBytes (l : List UInt8) : ByteSource :=
  .array (l.map fun b => .number b.toNat)

theorem toContractHash_view (h : Bytes 32) : toContractHash (.view 1 h.toList) = .ok h := by
  simp [toContractHash]

theorem Entry.number_byte (b : UInt8) :
    (Entry.number b.toNat).isByte = true ∧ (Entry.number b.toNat).toByte = b := by
  have hb : (b.toNat : ℚ) ≤ 255 := by exact_mod_cast Nat.le_of_lt_succ b.toNat_lt
  simp [Entry.isByte, Entry.toByte, Rat.isInt, hb]

theorem toContractHash_ofBytes (h : Bytes 32) : toContractHash (.ofBytes h.toList) = .ok h := by
  have hall : (h.toList.map fun b => Entry.number b.toNat).all Entry.isByte = true :=
    List.all_eq_true.2 fun e he => by
      obtain ⟨b, -, rfl⟩ := List.mem_map.1 he
      exact (Entry.number_byte b).1
  have hmap : (h.toList.map fun b => Entry.number b.toNat).map Entry.toByte = h.toList := by
    rw [List.map_map]
    exact (List.map_congr_left fun b _ => (Entry.number_byte b).2).trans (List.map_id _)
  have hok : toContractHash (.ofBytes h.toList)
      = .ok ⟨(h.toList.map fun b => Entry.number b.toNat).map Entry.toByte, by simp⟩ :=
    dif_pos ⟨hall, by simp⟩
  rw [hok]
  exact congrArg _ (Bytes.toList_inj.1 hmap)

/-- A derived key is the decimal of a number of at most 248 bits that is not zero. -/
theorem deriveSignerKey_eq_ok {sha256 : List UInt8 → Bytes 32} {secret contractHash : ByteSource}
    {key : Text} (h : deriveSignerKey sha256 secret contractHash = .ok key) :
    ∃ k, 0 < k ∧ k < 2 ^ 248 ∧ key = decimal k := by
  unfold deriveSignerKey at h
  obtain ⟨bytes, -, h⟩ := Batch.bind_eq_ok.1 h
  obtain ⟨hash, -, h⟩ := Batch.bind_eq_ok.1 h
  simp only [foldl_shift] at h
  split_ifs at h with h0
  have hlt := Bytes.beVal_lt ((sha256 (signerKeyPreimage hash bytes)).toList.take 31)
  refine ⟨_, Nat.pos_of_ne_zero h0, ?_, (Except.ok.inj h).symm⟩
  simpa using hlt

end Lemmas

end Oblivia

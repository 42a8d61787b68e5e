import Oblivia.Client.SignerKey
/-!
# The containers of secrets and hashes

A signer key is derived from bytes that come in typed arrays of any element type, at any place of
a buffer, or in plain arrays. A secret is viewed in place and a hash is copied element by element,
and both are the bytes that lie there; so a key depends on these bytes only, and the text that is
hashed determines them.
-/

namespace Oblivia

inductive ElementType
  | int8
  | uint8
  | uint8Clamped
  | int16
  | uint16
  | int32
  | uint32
  | float16
  | float32
  | float64
  | bigInt64
  | bigUint64
  deriving DecidableEq

def ElementType.bytesPerElement : ElementType → ℕ
  | int8 | uint8 | uint8Clamped => 1
  | int16 | uint16 | float16 => 2
  | int32 | uint32 | float32 => 4
  | float64 | bigInt64 | bigUint64 => 8

/-- The element that a byte is, for the types with one byte an element. -/
def ElementType.ofByte : ElementType → UInt8 → ℤ
  | int8, b => if b.toNat < 128 then b.toNat else b.toNat - 256
  | _, b => b.toNat

/-- `length` elements of a buffer, from `byteOffset` on. -/
structure TypedArray where
  elementType : ElementType
  buffer : List UInt8
  byteOffset : ℕ
  length : ℕ
  fits : byteOffset + length * elementType.bytesPerElement ≤ buffer.length

namespace TypedArray

def byteLength (a : TypedArray) : ℕ := a.length * a.elementType.bytesPerElement

/-- `new Uint8Array(a.buffer, a.byteOffset, a.byteLength)`. -/
def bytes (a : TypedArray) : List UInt8 := (a.buffer.drop a.byteOffset).take a.byteLength

/-- The elements, for the types with one byte an element. -/
def elements (a : TypedArray) : List ℤ :=
  ((a.buffer.drop a.byteOffset).take a.length).map a.elementType.ofByte

theorem length_elements (a : TypedArray) (hbytes : a.elementType.bytesPerElement = 1) {n : ℕ}
    (hlength : a.length = n) : a.elements.length = n := by
  have hfits := a.fits
  rw [hbytes] at hfits
  rw [elements, List.length_map, List.length_take, List.length_drop]
  omega

end TypedArray

/-- What a caller may pass as a secret or a hash. -/
inductive Container
  | typedArray (a : TypedArray)
  | dataView (bytes : List UInt8)
  | array (entries : List Entry)
  | other

/-- The element of a byte array made from an integer. -/
def toUint8 (x : ℤ) : UInt8 := UInt8.ofNat (x % 256).toNat

theorem length_map_toByte {entries : List Entry}
    (h : entries.all Entry.isByte = true ∧ entries.length = 32) :
    (entries.map Entry.toByte).length = 32 := by
  rw [List.length_map, h.2]

namespace Container

/-- A hash is copied element by element. -/
def toContractHash : Container → Except String (Bytes 32)
  | typedArray a =>
    if h : a.elementType.bytesPerElement = 1 ∧ a.length = 32 then
      .ok ⟨a.elements.map toUint8, (List.length_map _).trans (a.length_elements h.1 h.2)⟩
    else .error hashError
  | array entries =>
    if h : entries.all Entry.isByte = true ∧ entries.length = 32 then
      .ok ⟨entries.map Entry.toByte, length_map_toByte h⟩
    else .error hashError
  | _ => .error hashError

/-- A secret is viewed where it is. -/
def toSecretBytes : Container → Except String (List UInt8)
  | typedArray a =>
    if a.elementType.bytesPerElement ≠ 1 ∨ a.length < 32 then .error secretError
    else if a.bytes.all (· == 0) then .error "signerSecret must not be all zero bytes"
    else .ok a.bytes
  | _ => .error secretError

end Container

/-- `input.set(bytes, offset)`. -/
def setBytes (input bytes : List UInt8) (offset : ℕ) : List UInt8 :=
  input.take offset ++ bytes ++ input.drop (offset + bytes.length)

/-- The bytes that are hashed, put into an array of zeros one after the other. -/
def signerKeyInput (hash : Bytes 32) (bytes : List UInt8) : List UInt8 :=
  let domain := signerKeyDomain
  let input := List.replicate (domain.length + 1 + 32 + bytes.length) 0
  let input := setBytes input domain 0
  let input := input.set domain.length 0
  let input := setBytes input hash.toList (domain.length + 1)
  setBytes input bytes (domain.length + 1 + 32)

/-- The key of a signer, from containers. -/
def Container.deriveSignerKey (sha256 : List UInt8 → Bytes 32) (secret contractHash : Container) :
    Except String Text := do
  let bytes ← secret.toSecretBytes
  let hash ← contractHash.toContractHash
  let digest := sha256 (signerKeyInput hash bytes)
  let key := (digest.toList.take 31).foldl (fun key b => key <<< 8 ||| b.toNat) 0
  if key = 0 then .error "derived signer key is zero; use a different secret"
  else .ok (decimal key)

section Containers

theorem toUint8_ofByte (t : ElementType) (b : UInt8) : toUint8 (t.ofByte b) = b := by
  have hb := b.toNat_lt
  have hmod : (t.ofByte b % 256).toNat = b.toNat := by
    cases t <;> simp only [ElementType.ofByte] <;> (try split_ifs) <;> omega
  rw [toUint8, hmod]
  exact UInt8.ofNat_toNat

theorem map_toUint8_elements {a : TypedArray} (h : a.elementType.bytesPerElement = 1) :
    a.elements.map toUint8 = a.bytes := by
  have hid : toUint8 ∘ a.elementType.ofByte = id := funext (toUint8_ofByte a.elementType)
  rw [TypedArray.elements, TypedArray.bytes, TypedArray.byteLength, h, mul_one, List.map_map, hid,
    List.map_id]

/-- Bytes that are put behind others take the place of as many zeros. -/
theorem setBytes_append {l bytes : List UInt8} {n k : ℕ} (hn : l.length = n) :
    setBytes (l ++ List.replicate (bytes.length + k) 0) bytes n
      = l ++ bytes ++ List.replicate k 0 := by
  subst hn
  rw [setBytes, List.take_left, ← List.drop_drop, List.drop_left, List.drop_replicate,
    Nat.add_sub_cancel_left]

theorem signerKeyInput_eq (hash : Bytes 32) (bytes : List UInt8) :
    signerKeyInput hash bytes = signerKeyPreimage hash bytes := by
  have hzeros : List.replicate (signerKeyDomain.length + 1 + 32 + bytes.length) (0 : UInt8)
      = [] ++ List.replicate (signerKeyDomain.length + (1 + (32 + bytes.length))) 0 := by
    rw [List.nil_append]
    congr 1
    omega
  have hseparator : (signerKeyDomain ++ List.replicate (1 + (32 + bytes.length)) 0).set
      signerKeyDomain.length 0
        = signerKeyDomain ++ [0] ++ List.replicate (hash.toList.length + bytes.length) 0 := by
    rw [List.set_append_right _ _ le_rfl, Nat.sub_self, List.replicate_add, Bytes.length_toList]
    simp
  have hsecret : List.replicate bytes.length (0 : UInt8)
      = List.replicate (bytes.length + 0) 0 := rfl
  unfold signerKeyInput signerKeyPreimage
  simp only
  rw [hzeros, setBytes_append List.length_nil, List.nil_append, hseparator,
    setBytes_append (by simp), hsecret, setBytes_append (by simp), List.replicate_zero,
    List.append_nil]

/-- What lies in a container, without its place. -/
def Container.source : Container → ByteSource
  | typedArray a => .view a.elementType.bytesPerElement a.bytes
  | dataView bytes => .dataView bytes
  | array entries => .array entries
  | other => .other

theorem TypedArray.length_bytes (a : TypedArray) : a.bytes.length = a.byteLength := by
  have hfits := a.fits
  rw [bytes, List.length_take, List.length_drop, byteLength]
  omega

theorem TypedArray.length_bytes_of_byte (a : TypedArray)
    (h : a.elementType.bytesPerElement = 1) :
    a.bytes.length = a.length := by
  rw [a.length_bytes, TypedArray.byteLength, h, mul_one]

theorem refused_of_wide {k : ℕ} {bytes : List UInt8} (h : k ≠ 1) :
    Oblivia.toContractHash (.view k bytes) = .error hashError
      ∧ Oblivia.toSecretBytes (.view k bytes) = .error secretError := by
  unfold Oblivia.toContractHash Oblivia.toSecretBytes
  constructor <;> split <;> simp_all

theorem Container.toContractHash_source (c : Container) :
    c.toContractHash = Oblivia.toContractHash c.source := by
  rcases c with a | bytes | entries | _
  · by_cases hbytes : a.elementType.bytesPerElement = 1
    · simp only [toContractHash, source, Oblivia.toContractHash, hbytes, true_and,
        map_toUint8_elements hbytes, a.length_bytes_of_byte hbytes]
    · simp only [toContractHash, source, (refused_of_wide hbytes).1, hbytes, false_and,
        dite_false]
  · rfl
  · rfl
  · rfl

theorem Container.toSecretBytes_source (c : Container) :
    c.toSecretBytes = Oblivia.toSecretBytes c.source := by
  rcases c with a | bytes | entries | _
  · by_cases hbytes : a.elementType.bytesPerElement = 1
    · simp only [toSecretBytes, source, Oblivia.toSecretBytes, hbytes, ne_eq, not_true_eq_false,
        false_or, a.length_bytes_of_byte hbytes]
    · simp only [toSecretBytes, source, (refused_of_wide hbytes).2, ne_eq, hbytes,
        not_false_eq_true, true_or, if_true]
  · rfl
  · rfl
  · rfl

/-- A key depends on what lies in the containers. -/
theorem Container.deriveSignerKey_source (sha256 : List UInt8 → Bytes 32)
    (secret contractHash : Container) : secret.deriveSignerKey sha256 contractHash
      = Oblivia.deriveSignerKey sha256 secret.source contractHash.source := by
  simp only [Container.deriveSignerKey, Oblivia.deriveSignerKey, toContractHash_source,
    toSecretBytes_source, signerKeyInput_eq]

end Containers

section Keys

/-- The container holds this secret: as many bytes as it needs to have, and not all of them
zero. -/
structure Container.HoldsSecret (c : Container) (secret : List UInt8) : Prop where
  view : ∃ a, c = .typedArray a ∧ a.elementType.bytesPerElement = 1 ∧ a.bytes = secret
  length : 32 ≤ secret.length
  nonzero : ∃ b ∈ secret, b ≠ 0

/-- An entry of a plain array is this byte; a hole counts as zero. -/
def Entry.Is (b : UInt8) : Entry → Prop
  | number x => x = b.toNat
  | hole => b = 0
  | other => False

/-- The container holds this hash. -/
def Container.HoldsHash (hash : Bytes 32) : Container → Prop
  | typedArray a => a.elementType.bytesPerElement = 1 ∧ a.bytes = hash.toList
  | array entries => List.Forall₂ (fun b e => Entry.Is b e) hash.toList entries
  | _ => False

variable {c : Container} {secret : List UInt8} {hash : Bytes 32}

theorem Container.toSecretBytes_eq_ok :
    c.toSecretBytes = .ok secret ↔ c.HoldsSecret secret := by
  constructor
  · intro h
    rcases c with a | bytes | entries | _
    · simp only [toSecretBytes] at h
      split_ifs at h with hlength hzero
      obtain rfl := Except.ok.inj h
      rw [not_or, not_not] at hlength
      refine ⟨⟨a, rfl, hlength.1, rfl⟩, ?_, ?_⟩
      · rw [a.length_bytes_of_byte hlength.1]
        omega
      · simpa using hzero
    all_goals cases h
  · rintro ⟨⟨a, rfl, hbytes, rfl⟩, hlength, b, hb, hne⟩
    rw [a.length_bytes_of_byte hbytes] at hlength
    have hzero : ¬a.bytes.all (· == 0) = true := by
      rw [List.all_eq_true]
      exact fun hall => hne (by simpa using hall b hb)
    simp [toSecretBytes, hbytes, not_lt.2 hlength, hzero]

theorem Entry.is_iff {e : Entry} {b : UInt8} : e.Is b ↔ e.isByte = true ∧ e.toByte = b := by
  have hb := b.toNat_lt
  rcases e with x | _ | _
  · simp only [Is, isByte, toByte, Bool.and_eq_true, decide_eq_true_eq]
    constructor
    · rintro rfl
      have hle : (b.toNat : ℚ) ≤ 255 := by exact_mod_cast Nat.le_of_lt_succ hb
      simp [Rat.isInt, hle]
    · rintro ⟨⟨⟨hint, hnonneg⟩, hle⟩, rfl⟩
      have hx : x = (x.num : ℚ) := Rat.ext rfl (by simpa [Rat.isInt] using hint)
      have hnonneg' : 0 ≤ x.num := by simpa using hnonneg
      have hle' : x.num ≤ 255 := by
        rw [hx] at hle
        exact_mod_cast hle
      have hlt : x.num.toNat < 256 := by omega
      have hnum : (x.num.toNat : ℤ) = x.num := Int.toNat_of_nonneg hnonneg'
      rw [UInt8.toNat_ofNat_of_lt' hlt, hx, ← hnum]
      norm_cast
  · simp [Is, isByte, toByte, eq_comm]
  · simp [Is, isByte]

/-- The entries of a plain array, all at once. -/
theorem forall₂_is_iff : ∀ {l : List UInt8} {entries : List Entry},
    List.Forall₂ (fun b e => Entry.Is b e) l entries
      ↔ entries.all Entry.isByte = true ∧ entries.map Entry.toByte = l
  | l, [] => by simp [eq_comm]
  | [], e :: entries => by simp
  | b :: l, e :: entries => by
    rw [List.forall₂_cons, Entry.is_iff, forall₂_is_iff]
    simp only [List.all_cons, Bool.and_eq_true, List.map_cons, List.cons.injEq]
    tauto

theorem Container.toContractHash_eq_ok :
    c.toContractHash = .ok hash ↔ c.HoldsHash hash := by
  rcases c with a | bytes | entries | _
  · have hlength := hash.length_toList
    constructor
    · intro h
      simp only [toContractHash] at h
      split_ifs at h with haccepted
      obtain rfl := Except.ok.inj h
      exact ⟨haccepted.1, (map_toUint8_elements haccepted.1).symm⟩
    · rintro ⟨hbytes, hhash⟩
      have haccepted : a.elementType.bytesPerElement = 1 ∧ a.length = 32 :=
        ⟨hbytes, by rw [← a.length_bytes_of_byte hbytes, hhash, hlength]⟩
      simp only [toContractHash, dif_pos haccepted]
      refine congrArg _ (Bytes.toList_inj.1 ?_)
      exact (map_toUint8_elements hbytes).trans hhash
  · simp [toContractHash, HoldsHash]
  · have hlength := hash.length_toList
    simp only [HoldsHash, forall₂_is_iff]
    constructor
    · intro h
      simp only [toContractHash] at h
      split_ifs at h with haccepted
      obtain rfl := Except.ok.inj h
      exact ⟨haccepted.1, rfl⟩
    · rintro ⟨hall, hhash⟩
      have haccepted : entries.all Entry.isByte = true ∧ entries.length = 32 :=
        ⟨hall, by rw [← hlength, ← hhash, List.length_map]⟩
      simp only [toContractHash, dif_pos haccepted]
      exact congrArg _ (Bytes.toList_inj.1 hhash)
  · simp [toContractHash, HoldsHash]

/-- A key in the range of the circuit's input, as the text of its number. -/
structure IsKey (number : ℕ) (key : Text) : Prop where
  positive : 0 < number
  bits : number < 2 ^ 248
  field : number < scalarModulus
  digits : ∀ c ∈ key, c.isDigit = true
  leading : key.head? ≠ some '0'
  value : Numeral.value 10 key = number

/-- The number that is made of a digest. -/
def digestNumber (digest : Bytes 32) : ℕ := Bytes.beVal (digest.toList.take 31)

theorem isKey_decimal {n : ℕ} (hpos : 0 < n) (hbits : n < 2 ^ 248) : IsKey n (decimal n) where
  positive := hpos
  bits := hbits
  field := hbits.trans (by norm_num [scalarModulus])
  digits := Json.isDigit_toDigits
  leading := Json.head_toDigits hpos
  value := Numeral.value_toDigits (by norm_num) (by norm_num) n

theorem digestNumber_eq_zero {digest : Bytes 32} :
    digestNumber digest = 0 ↔ ∀ b ∈ digest.toList.take 31, b = 0 := by
  rw [← List.eq_replicate_length]
  refine ⟨fun h => Bytes.beVal_inj (by simp) ?_, fun h => ?_⟩
  · rw [Bytes.beVal_replicate_zero]
    exact h
  · rw [digestNumber, h, Bytes.beVal_replicate_zero]

/-- Whatever SHA-256 is: a secret and a hash, in whatever containers, derive the number that the
first 31 bytes of the digest are, unless these bytes are zero; a number in the range of the
circuit's input. The containers that are accepted are those that hold a secret and a hash, and the
bytes that are hashed tell both. -/
theorem signer_keys (sha256 : List UInt8 → Bytes 32) :
    (∀ (c d : Container) (secret : List UInt8) (hash : Bytes 32),
      c.HoldsSecret secret → d.HoldsHash hash →
      (((∃ message, c.deriveSignerKey sha256 d = .error message)
          ↔ ∀ b ∈ (sha256 (signerKeyInput hash secret)).toList.take 31, b = 0)
        ∧ ∀ key, c.deriveSignerKey sha256 d = .ok key →
          IsKey (digestNumber (sha256 (signerKeyInput hash secret))) key))
    ∧ (∀ (c c' d d' : Container) (secret : List UInt8) (hash : Bytes 32),
      c.HoldsSecret secret → c'.HoldsSecret secret → d.HoldsHash hash → d'.HoldsHash hash →
      c.deriveSignerKey sha256 d = c'.deriveSignerKey sha256 d')
    ∧ (∀ (c : Container) secret, c.toSecretBytes = .ok secret ↔ c.HoldsSecret secret)
    ∧ (∀ (d : Container) hash, d.toContractHash = .ok hash ↔ d.HoldsHash hash)
    ∧ ∀ hash hash' secret secret', signerKeyInput hash secret = signerKeyInput hash' secret' →
      hash = hash' ∧ secret = secret' := by
  have hderive {c d : Container} {secret : List UInt8} {hash : Bytes 32}
      (hc : c.HoldsSecret secret) (hd : d.HoldsHash hash) : c.deriveSignerKey sha256 d
        = if digestNumber (sha256 (signerKeyInput hash secret)) = 0 then
            .error "derived signer key is zero; use a different secret"
          else .ok (decimal (digestNumber (sha256 (signerKeyInput hash secret)))) := by
    rw [Container.deriveSignerKey, Container.toSecretBytes_eq_ok.2 hc, Batch.ok_bind,
      Container.toContractHash_eq_ok.2 hd, Batch.ok_bind]
    simp only [foldl_shift]
    rfl
  refine ⟨fun c d secret hash hc hd => ?_, fun c c' d d' secret hash hc hc' hd hd' => ?_,
    fun c secret => Container.toSecretBytes_eq_ok, fun d hash => Container.toContractHash_eq_ok,
    fun hash hash' secret secret' h => ?_⟩
  · rw [hderive hc hd, ← digestNumber_eq_zero]
    have hbits : digestNumber (sha256 (signerKeyInput hash secret)) < 2 ^ 248 := by
      have hlt := Bytes.beVal_lt ((sha256 (signerKeyInput hash secret)).toList.take 31)
      simpa [digestNumber] using hlt
    split_ifs with hzero
    · simp [hzero]
    · refine ⟨by simp [hzero], fun key hkey => ?_⟩
      rw [← Except.ok.inj hkey]
      exact isKey_decimal (Nat.pos_of_ne_zero hzero) hbits
  · rw [hderive hc hd, hderive hc' hd']
  · simp only [signerKeyInput_eq, signerKeyPreimage, List.append_assoc] at h
    exact Bytes.append_eq_append.1 (List.append_cancel_left (List.append_cancel_left h))

end Keys

end Oblivia

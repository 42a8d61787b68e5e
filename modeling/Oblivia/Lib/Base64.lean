import Mathlib.Data.List.DropRight
import Oblivia.Lib.Bytes
/-!
# Base64

The standard alphabet with padding, in which every three bytes are four digits of six bits, and
the two functions of a browser that encode and decode a text of bytes. Digits are decoded with the
padding that completes the last four of them, and the bits of bytes are those bytes again.
-/

namespace Base64

def alphabet : List Char :=
  "ABCDEFGHIJKLMNOPQRSTUVWXYZabcdefghijklmnopqrstuvwxyz0123456789+/".toList

def digit (n : ℕ) : Char := alphabet.getD n '='

def digitVal (c : Char) : Option ℕ := alphabet.idxOf? c

/-- The bits of the bytes, six at a time; the last six are filled up with zeros. -/
def sextets : List UInt8 → List ℕ
  | [] => []
  | [a] => [a.toNat / 4, a.toNat % 4 * 16]
  | [a, b] => [a.toNat / 4, a.toNat % 4 * 16 + b.toNat / 16, b.toNat % 16 * 4]
  | a :: b :: c :: l => a.toNat / 4 :: (a.toNat % 4 * 16 + b.toNat / 16)
    :: (b.toNat % 16 * 4 + c.toNat / 64) :: c.toNat % 64 :: sextets l

/-- The bytes of the bits; the bits left over at the end are dropped. -/
def octets : List ℕ → List UInt8
  | p :: q :: r :: s :: l => UInt8.ofNat (p * 4 + q / 16) :: UInt8.ofNat (q % 16 * 16 + r / 4)
    :: UInt8.ofNat (r % 4 * 64 + s) :: octets l
  | [p, q, r] => [UInt8.ofNat (p * 4 + q / 16), UInt8.ofNat (q % 16 * 16 + r / 4)]
  | [p, q] => [UInt8.ofNat (p * 4 + q / 16)]
  | _ => []

def encode (bytes : List UInt8) : List Char :=
  (sextets bytes).map digit ++ List.replicate ((3 - bytes.length % 3) % 3) '='

/-- One or two signs of padding at the end. -/
def dropPadding (cs : List Char) : List Char :=
  match cs.reverse with
  | '=' :: '=' :: l => l.reverse
  | '=' :: l => l.reverse
  | _ => cs

def isSpace (c : Char) : Bool := ['\t', '\n', '\x0C', '\r', ' '].contains c

/-- The forgiving decoding: spaces count for nothing and the padding may be left out. -/
def decode (cs : List Char) : Option (List UInt8) :=
  let cs := cs.filter (!isSpace ·)
  let cs := if cs.length % 4 = 0 then dropPadding cs else cs
  if cs.length % 4 = 1 then none else (cs.mapM digitVal).map octets

/-- The text that has a byte in each character. -/
def binary (bytes : List UInt8) : List Char := bytes.map fun b => Char.ofNat b.toNat

def invalidCharacter : String := "InvalidCharacterError"

def btoa (cs : List Char) : Except String (List Char) :=
  if cs.all (·.toNat ≤ 255) then .ok (encode (cs.map fun c => UInt8.ofNat c.toNat))
  else .error invalidCharacter

def atob (cs : List Char) : Except String (List Char) :=
  match decode cs with
  | some bytes => .ok (binary bytes)
  | none => .error invalidCharacter

theorem digit_spec : ∀ n < 64, digitVal (digit n) = some n ∧ digit n ≠ '='
    ∧ isSpace (digit n) = false := by
  decide +kernel

theorem sextets_lt (bytes : List UInt8) : ∀ n ∈ sextets bytes, n < 64 := by
  induction bytes using sextets.induct with
  | case1 => simp [sextets]
  | case2 a =>
    have ha := a.toNat_lt
    simp only [sextets, List.forall_mem_cons]
    exact ⟨by omega, by omega, by simp⟩
  | case3 a b =>
    have ha := a.toNat_lt
    have hb := b.toNat_lt
    simp only [sextets, List.forall_mem_cons]
    exact ⟨by omega, by omega, by omega, by simp⟩
  | case4 a b c l ih =>
    have ha := a.toNat_lt
    have hb := b.toNat_lt
    have hc := c.toNat_lt
    simp only [sextets, List.forall_mem_cons]
    exact ⟨by omega, by omega, by omega, by omega, ih⟩

/-- Never one digit more than a multiple of four. -/
theorem length_sextets_mod (bytes : List UInt8) :
    (sextets bytes).length % 4 ≠ 1
      ∧ (4 - (sextets bytes).length % 4) % 4 = (3 - bytes.length % 3) % 3 := by
  induction bytes using sextets.induct with
  | case1 => decide
  | case2 a => exact ⟨by simp [sextets], by simp [sextets]⟩
  | case3 a b => exact ⟨by simp [sextets], by simp [sextets]⟩
  | case4 a b c l ih =>
    simp only [sextets, List.length_cons]
    omega

theorem ofNat_eq {a : UInt8} {n : ℕ} (h : n = a.toNat) : UInt8.ofNat n = a := by
  rw [h, UInt8.ofNat_toNat]

theorem octets_sextets (bytes : List UInt8) : octets (sextets bytes) = bytes := by
  induction bytes using sextets.induct with
  | case1 => rfl
  | case2 a =>
    have ha := a.toNat_lt
    rw [sextets, octets, ofNat_eq (a := a) (by omega)]
  | case3 a b =>
    have ha := a.toNat_lt
    have hb := b.toNat_lt
    rw [sextets, octets, ofNat_eq (a := a) (by omega), ofNat_eq (a := b) (by omega)]
  | case4 a b c l ih =>
    have ha := a.toNat_lt
    have hb := b.toNat_lt
    have hc := c.toNat_lt
    rw [sextets, octets, ofNat_eq (a := a) (by omega), ofNat_eq (a := b) (by omega),
      ofNat_eq (a := c) (by omega), ih]

theorem mapM_digitVal : ∀ {ds : List ℕ}, (∀ n ∈ ds, n < 64) → (ds.map digit).mapM digitVal = some ds
  | [], _ => rfl
  | n :: ds, h => by
    obtain ⟨hn, hds⟩ := List.forall_mem_cons.1 h
    simp [(digit_spec n hn).1, mapM_digitVal hds]

theorem dropPadding_append {cs : List Char} (h : ∀ c ∈ cs, c ≠ '=') :
    ∀ {n : ℕ}, n ≤ 2 → dropPadding (cs ++ List.replicate n '=') = cs
  | 0, _ => by
    rcases List.eq_nil_or_concat cs with rfl | ⟨l, c, rfl⟩
    · rfl
    · have hc : c ≠ '=' := h c (by simp)
      simp [dropPadding, hc]
  | 1, _ => by
    rcases List.eq_nil_or_concat cs with rfl | ⟨l, c, rfl⟩
    · rfl
    · have hc : c ≠ '=' := h c (by simp)
      simp [dropPadding, hc]
  | 2, _ => by simp [dropPadding, List.replicate]

/-- Digits with the padding that completes the last four. -/
theorem decode_padded {ds : List ℕ} (hds : ∀ n ∈ ds, n < 64) (hlength : ds.length % 4 ≠ 1) :
    decode (ds.map digit ++ List.replicate ((4 - ds.length % 4) % 4) '=') = some (octets ds) := by
  have hspace : (ds.map digit ++ List.replicate ((4 - ds.length % 4) % 4) '=').filter (!isSpace ·)
      = ds.map digit ++ List.replicate ((4 - ds.length % 4) % 4) '=' := by
    refine List.filter_eq_self.2 fun c hc => ?_
    rcases List.mem_append.1 hc with hc | hc
    · obtain ⟨n, hn, rfl⟩ := List.mem_map.1 hc
      simp [(digit_spec n (hds n hn)).2.2]
    · rw [(List.mem_replicate.1 hc).2]
      decide
  have hpad : ∀ c ∈ ds.map digit, c ≠ '=' := by
    intro c hc
    obtain ⟨n, hn, rfl⟩ := List.mem_map.1 hc
    exact (digit_spec n (hds n hn)).2.1
  have hmod : (ds.map digit ++ List.replicate ((4 - ds.length % 4) % 4) '=').length % 4 = 0 := by
    rw [List.length_append, List.length_map, List.length_replicate]
    omega
  simp only [decode, hspace, hmod, if_true]
  rw [dropPadding_append hpad (by omega), List.length_map, if_neg hlength, mapM_digitVal hds]
  rfl

theorem encode_eq (bytes : List UInt8) : encode bytes = (sextets bytes).map digit
    ++ List.replicate ((4 - (sextets bytes).length % 4) % 4) '=' := by
  rw [encode, (length_sextets_mod bytes).2]

theorem toNat_binary (b : UInt8) : (Char.ofNat b.toNat).toNat = b.toNat := by
  have hb := b.toNat_lt
  rw [Char.ofNat, dif_pos (by omega : Nat.isValidChar b.toNat)]
  rfl

theorem map_binary (bytes : List UInt8) :
    (binary bytes).map (fun c => UInt8.ofNat c.toNat) = bytes := by
  rw [binary, List.map_map]
  refine (List.map_congr_left fun b _ => ?_).trans bytes.map_id
  exact ofNat_eq (toNat_binary b)

theorem btoa_binary (bytes : List UInt8) : btoa (binary bytes) = .ok (encode bytes) := by
  have hall : (binary bytes).all (·.toNat ≤ 255) = true := by
    refine List.all_eq_true.2 fun c hc => ?_
    obtain ⟨b, -, rfl⟩ := List.mem_map.1 hc
    have hb := b.toNat_lt
    rw [toNat_binary]
    exact decide_eq_true (by omega)
  rw [btoa, if_pos hall, map_binary]

end Base64

import Mathlib.Tactic.Common
/-!
# Texts of UTF-16 code units

The texts of a page are lists of code units, in which a surrogate may be missing its other half. To
encode such a text, a surrogate that is not of a pair is replaced by U+FFFD.
-/

abbrev Utf16 := List UInt16

namespace Utf16

def isHigh (u : UInt16) : Bool := 0xD800 ≤ u && u < 0xDC00

def isLow (u : UInt16) : Bool := 0xDC00 ≤ u && u < 0xE000

/-- The character of a code unit that is not of a pair. -/
def single (u : UInt16) : Char :=
  if isHigh u || isLow u then Char.ofNat 0xFFFD else Char.ofNat u.toNat

def pair (u v : UInt16) : Char :=
  Char.ofNat (0x10000 + (u.toNat - 0xD800) * 0x400 + (v.toNat - 0xDC00))

def chars : Utf16 → List Char
  | [] => []
  | [u] => [single u]
  | u :: v :: l =>
    if isHigh u && isLow v then pair u v :: chars l else single u :: chars (v :: l)

/-- `new TextEncoder().encode(…)`. -/
def encode (l : Utf16) : List UInt8 := (chars l).flatMap String.utf8EncodeChar

/-- A pair, a half of one, and a letter. -/
example : encode [0xD83D, 0xDE00, 0xD83D, 0x61]
    = [0xF0, 0x9F, 0x98, 0x80, 0xEF, 0xBF, 0xBD, 0x61] := by decide

/-- Every surrogate is of a pair. -/
def isWellFormed : Utf16 → Bool
  | [] => true
  | [u] => !(isHigh u || isLow u)
  | u :: v :: l =>
    if isHigh u && isLow v then isWellFormed l
    else !(isHigh u || isLow u) && isWellFormed (v :: l)

def ofChar (c : Char) : Utf16 :=
  if c.toNat < 0x10000 then [UInt16.ofNat c.toNat]
  else
    [UInt16.ofNat (0xD800 + (c.toNat - 0x10000) / 0x400),
      UInt16.ofNat (0xDC00 + (c.toNat - 0x10000) % 0x400)]

def ofChars (cs : List Char) : Utf16 := cs.flatMap ofChar

theorem isHigh_iff {u : UInt16} : isHigh u = true ↔ 0xD800 ≤ u.toNat ∧ u.toNat < 0xDC00 := by
  simp [isHigh, UInt16.le_iff_toNat_le, UInt16.lt_iff_toNat_lt]

theorem isLow_iff {u : UInt16} : isLow u = true ↔ 0xDC00 ≤ u.toNat ∧ u.toNat < 0xE000 := by
  simp [isLow, UInt16.le_iff_toNat_le, UInt16.lt_iff_toNat_lt]

theorem toNat_char {n : ℕ} (h : n < 0xD800 ∨ 0xDFFF < n ∧ n < 0x110000) :
    (Char.ofNat n).toNat = n := by
  rw [Char.ofNat, dif_pos h]
  rfl

theorem ofChar_single {u : UInt16} (h : (isHigh u || isLow u) = false) :
    ofChar (single u) = [u] := by
  have hu := u.toNat_lt
  have hhigh : ¬isHigh u = true := by simp_all
  have hlow : ¬isLow u = true := by simp_all
  rw [isHigh_iff] at hhigh
  rw [isLow_iff] at hlow
  have hsingle : single u = Char.ofNat u.toNat := if_neg (by simp [h])
  rw [hsingle, ofChar, toNat_char (by omega), if_pos (by omega), UInt16.ofNat_toNat]

theorem ofChar_pair {u v : UInt16} (hu : isHigh u = true) (hv : isLow v = true) :
    ofChar (pair u v) = [u, v] := by
  rw [isHigh_iff] at hu
  rw [isLow_iff] at hv
  have hpair : (pair u v).toNat - 0x10000 = (u.toNat - 0xD800) * 0x400 + (v.toNat - 0xDC00)
      ∧ ¬(pair u v).toNat < 0x10000 := by
    rw [pair, toNat_char (by omega)]
    omega
  have hfst : 0xD800 + ((u.toNat - 0xD800) * 0x400 + (v.toNat - 0xDC00)) / 0x400 = u.toNat := by
    omega
  have hsnd : 0xDC00 + ((u.toNat - 0xD800) * 0x400 + (v.toNat - 0xDC00)) % 0x400 = v.toNat := by
    omega
  rw [ofChar, if_neg hpair.2, hpair.1, hfst, hsnd, UInt16.ofNat_toNat, UInt16.ofNat_toNat]

/-- A text without halves of pairs is the text of its characters. -/
theorem ofChars_chars {l : Utf16} (h : isWellFormed l = true) : ofChars (chars l) = l := by
  induction l using chars.induct with
  | case1 => rfl
  | case2 u =>
    have hu : (isHigh u || isLow u) = false := by simpa [isWellFormed] using h
    simp [chars, ofChars, ofChar_single hu]
  | case3 u v l hpair ih =>
    obtain ⟨hu, hv⟩ := Bool.and_eq_true_iff.1 hpair
    rw [isWellFormed, if_pos hpair] at h
    rw [chars, if_pos hpair, ofChars, List.flatMap_cons, ofChar_pair hu hv, ← ofChars, ih h]
    rfl
  | case4 u v l hpair ih =>
    rw [isWellFormed, if_neg hpair] at h
    obtain ⟨hu, hrest⟩ := Bool.and_eq_true_iff.1 h
    rw [chars, if_neg hpair, ofChars, List.flatMap_cons, ofChar_single (by simpa using hu),
      ← ofChars, ih hrest]
    rfl

/-- A character is one code unit, which is no half of a pair, or a pair. -/
theorem ofChar_cases (c : Char) :
    (∃ u, ofChar c = [u] ∧ isHigh u = false ∧ single u = c)
      ∨ ∃ u v, ofChar c = [u, v] ∧ isHigh u = true ∧ isLow v = true ∧ pair u v = c := by
  have hvalid : c.toNat < 0xD800 ∨ 0xDFFF < c.toNat ∧ c.toNat < 0x110000 := c.valid
  have hsize : UInt16.size = 0x10000 := rfl
  unfold ofChar
  split_ifs with hc
  · have hu : (UInt16.ofNat c.toNat).toNat = c.toNat := UInt16.toNat_ofNat_of_lt' hc
    generalize UInt16.ofNat c.toNat = u at hu
    have hhigh : isHigh u = false := by
      rw [Bool.eq_false_iff, ne_eq, isHigh_iff]
      omega
    have hlow : isLow u = false := by
      rw [Bool.eq_false_iff, ne_eq, isLow_iff]
      omega
    exact .inl ⟨u, rfl, hhigh, by simp [single, hhigh, hlow, hu]⟩
  · have hu : (UInt16.ofNat (0xD800 + (c.toNat - 0x10000) / 0x400)).toNat
        = 0xD800 + (c.toNat - 0x10000) / 0x400 := UInt16.toNat_ofNat_of_lt' (by omega)
    have hv : (UInt16.ofNat (0xDC00 + (c.toNat - 0x10000) % 0x400)).toNat
        = 0xDC00 + (c.toNat - 0x10000) % 0x400 := UInt16.toNat_ofNat_of_lt' (by omega)
    generalize UInt16.ofNat (0xD800 + (c.toNat - 0x10000) / 0x400) = u at hu
    generalize UInt16.ofNat (0xDC00 + (c.toNat - 0x10000) % 0x400) = v at hv
    refine .inr ⟨u, v, rfl, isHigh_iff.2 (by omega), isLow_iff.2 (by omega), ?_⟩
    have hpair : 0x10000 + (u.toNat - 0xD800) * 0x400 + (v.toNat - 0xDC00) = c.toNat := by omega
    rw [pair, hpair, Char.ofNat_toNat]

theorem chars_ofChar_append (c : Char) (l : Utf16) : chars (ofChar c ++ l) = c :: chars l := by
  rcases ofChar_cases c with ⟨u, heq, hhigh, rfl⟩ | ⟨u, v, heq, hhigh, hlow, rfl⟩
  · rw [heq]
    rcases l with _ | ⟨v, l⟩
    · simp [chars]
    · simp [chars, hhigh]
  · rw [heq]
    simp [chars, hhigh, hlow]

/-- The characters of a text of characters are those. -/
theorem chars_ofChars (cs : List Char) : chars (ofChars cs) = cs := by
  induction cs with
  | nil => rfl
  | cons c cs ih =>
    rw [ofChars, List.flatMap_cons, chars_ofChar_append, ← ofChars, ih]

end Utf16

import Mathlib.Tactic.IntervalCases
import Oblivia.Lib.Bytes
/-!
# Numerals

Numbers in bases up to sixteen as texts of digits, byte strings as texts of two hexadecimal digits
a byte, and reading both back.
-/

namespace Numeral

/-- The digit a character is, in either case, and 16 for any other character. -/
def digitVal (c : Char) : ℕ :=
  if '0' ≤ c ∧ c ≤ '9' then c.toNat - 48
  else if 'a' ≤ c ∧ c ≤ 'f' then c.toNat - 87
  else if 'A' ≤ c ∧ c ≤ 'F' then c.toNat - 55
  else 16

/-- One digit or more, all of them below the base. -/
def IsNumeral (b : ℕ) (l : List Char) : Prop := l ≠ [] ∧ ∀ c ∈ l, digitVal c < b

instance (b : ℕ) (l : List Char) : Decidable (IsNumeral b l) :=
  have := List.decidableBAll (digitVal · < b) l
  inferInstanceAs (Decidable (_ ∧ _))

/-- The number a text of digits is, most significant digit first. -/
def value (b : ℕ) (l : List Char) : ℕ := l.foldl (fun n c => b * n + digitVal c) 0

theorem digitVal_digitChar : ∀ {d : ℕ}, d < 16 → digitVal (Nat.digitChar d) = d := by decide

/-- A character that is a decimal digit is the digit of its value. -/
theorem digitChar_digitVal {c : Char} (h : digitVal c < 10) : Nat.digitChar (digitVal c) = c := by
  unfold digitVal at *
  split_ifs at * with h₁ h₂ h₃
  · have hlo : 48 ≤ c.toNat := h₁.1
    have hhi : c.toNat ≤ 57 := h₁.2
    have hc : c = Char.ofNat c.toNat := (Char.ofNat_toNat c).symm
    rw [hc]
    generalize c.toNat = n at *
    interval_cases n <;> rfl
  · have hlo : 97 ≤ c.toNat := h₂.1
    omega
  · have hlo : 65 ≤ c.toNat := h₃.1
    omega
  · omega

theorem value_append (b : ℕ) (l l' : List Char) :
    value b (l ++ l') = value b l * b ^ l'.length + value b l' := by
  have hfold (n : ℕ) : ∀ l' : List Char,
      l'.foldl (fun n c => b * n + digitVal c) n = n * b ^ l'.length + value b l' := by
    intro l'
    induction l' using List.reverseRecOn with
    | nil => simp [value]
    | append_singleton l' c ih =>
      rw [value, List.foldl_append, List.foldl_append, ih, ← value, List.length_append]
      simp only [List.foldl_cons, List.foldl_nil, List.length_singleton]
      ring
  rw [value, List.foldl_append, hfold, ← value]

theorem value_singleton {b d : ℕ} (hd : d < 16) : value b [Nat.digitChar d] = d := by
  simp [value, digitVal_digitChar hd]

theorem value_toDigits {b : ℕ} (hb : 1 < b) (hb' : b ≤ 16) (n : ℕ) :
    value b (Nat.toDigits b n) = n := by
  induction n using Nat.strong_induction_on with
  | _ n ih =>
    rw [Nat.toDigits_eq_if hb]
    split_ifs with hn
    · exact value_singleton (by omega)
    · have hmod : n % b < b := Nat.mod_lt _ (by omega)
      rw [value_append, ih _ (Nat.div_lt_self (by omega) hb), value_singleton (by omega)]
      simpa [Nat.mul_comm] using Nat.div_add_mod n b

theorem isNumeral_toDigits {b : ℕ} (hb : 1 < b) (hb' : b ≤ 16) (n : ℕ) :
    IsNumeral b (Nat.toDigits b n) := by
  refine ⟨Nat.toDigits_ne_nil, ?_⟩
  induction n using Nat.strong_induction_on with
  | _ n ih =>
    intro c hc
    have hmod : n % b < b := Nat.mod_lt _ (by omega)
    rw [Nat.toDigits_eq_if hb] at hc
    split_ifs at hc with hn
    · rw [List.mem_singleton.1 hc, digitVal_digitChar (by omega)]
      exact hn
    · rcases List.mem_append.1 hc with hc | hc
      · exact ih _ (Nat.div_lt_self (by omega) hb) c hc
      · rw [List.mem_singleton.1 hc, digitVal_digitChar (by omega)]
        exact hmod

section Hex

/-- The two digits of a byte. -/
def hexByte (b : UInt8) : List Char := [Nat.digitChar (b.toNat / 16), Nat.digitChar (b.toNat % 16)]

def hexEncode (l : List UInt8) : List Char := l.flatMap hexByte

/-- The bytes that pairs of digits are, up to the first pair that is none. -/
def hexDecode : List Char → List UInt8
  | c :: c' :: l =>
    if digitVal c < 16 ∧ digitVal c' < 16 then
      UInt8.ofNat (16 * digitVal c + digitVal c') :: hexDecode l
    else []
  | _ => []

theorem digitVal_hexByte (b : UInt8) :
    digitVal (Nat.digitChar (b.toNat / 16)) = b.toNat / 16
      ∧ digitVal (Nat.digitChar (b.toNat % 16)) = b.toNat % 16 := by
  have hb := b.toNat_lt
  exact ⟨digitVal_digitChar (by omega), digitVal_digitChar (by omega)⟩

@[simp]
theorem length_hexEncode (l : List UInt8) : (hexEncode l).length = 2 * l.length := by
  simp [hexEncode, hexByte, List.length_flatMap, Nat.mul_comm]

theorem digitVal_hexEncode {l : List UInt8} : ∀ c ∈ hexEncode l, digitVal c < 16 := by
  intro c hc
  obtain ⟨b, -, hc⟩ := List.mem_flatMap.1 hc
  have hb := b.toNat_lt
  obtain ⟨hhi, hlo⟩ := digitVal_hexByte b
  simp only [hexByte, List.mem_cons, List.not_mem_nil, or_false] at hc
  rcases hc with rfl | rfl <;> omega

theorem hexDecode_hexEncode : ∀ l, hexDecode (hexEncode l) = l
  | [] => rfl
  | b :: l => by
    have hb := b.toNat_lt
    obtain ⟨hhi, hlo⟩ := digitVal_hexByte b
    have hsum : 16 * (b.toNat / 16) + b.toNat % 16 = b.toNat := by omega
    show hexDecode (_ :: _ :: hexEncode l) = _
    rw [hexDecode, hhi, hlo, if_pos (by omega), hsum, UInt8.ofNat_toNat, hexDecode_hexEncode l]

theorem length_hexDecode : ∀ {n : ℕ} {l : List Char}, (∀ c ∈ l, digitVal c < 16) →
    l.length = 2 * n → (hexDecode l).length = n
  | 0, [], _, _ => rfl
  | n + 1, c :: c' :: l, h, hl => by
    have hc : digitVal c < 16 ∧ digitVal c' < 16 := ⟨h _ (by simp), h _ (by simp)⟩
    have hlen : l.length = 2 * n := by
      simp only [List.length_cons] at hl
      omega
    rw [hexDecode, if_pos hc, List.length_cons,
      length_hexDecode (fun d hd => h d (by simp [hd])) hlen]

theorem take_hexEncode : ∀ (n : ℕ) (l : List UInt8),
    (hexEncode l).take (2 * n) = hexEncode (l.take n)
  | 0, l => by simp [hexEncode]
  | n + 1, [] => by simp [hexEncode]
  | n + 1, b :: l => by
    show (_ :: _ :: hexEncode l).take (2 * n + 2) = _ :: _ :: hexEncode (l.take n)
    rw [List.take_succ_cons, List.take_succ_cons, take_hexEncode n l]

theorem drop_hexEncode : ∀ (n : ℕ) (l : List UInt8),
    (hexEncode l).drop (2 * n) = hexEncode (l.drop n)
  | 0, l => by simp
  | n + 1, [] => by simp [hexEncode]
  | n + 1, b :: l => by
    show (_ :: _ :: hexEncode l).drop (2 * n + 2) = hexEncode (l.drop n)
    rw [List.drop_succ_cons, List.drop_succ_cons, drop_hexEncode n l]

theorem value_hexEncode (l : List UInt8) : value 16 (hexEncode l) = Bytes.beVal l := by
  induction l using List.reverseRecOn with
  | nil => rfl
  | append_singleton l b ih =>
    have hb := b.toNat_lt
    have hbyte : value 16 (hexEncode [b]) = b.toNat := by
      obtain ⟨hhi, hlo⟩ := digitVal_hexByte b
      simp only [hexEncode, hexByte, List.flatMap_cons, List.flatMap_nil, List.append_nil, value,
        List.foldl_cons, List.foldl_nil, hhi, hlo]
      omega
    have hsplit : hexEncode (l ++ [b]) = hexEncode l ++ hexEncode [b] := by simp [hexEncode]
    have hval : Bytes.beVal [b] = b.toNat := by simp [Bytes.beVal]
    rw [hsplit, value_append, ih, hbyte, Bytes.beVal_append, hval]
    simp

end Hex

end Numeral

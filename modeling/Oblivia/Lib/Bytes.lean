import Mathlib.Data.Vector.Basic
import Mathlib.Data.List.TakeDrop
import Mathlib.Data.Nat.Digits.Lemmas
import Mathlib.Tactic.Ring
import Mathlib.Tactic.Linarith
/-!
# Byte strings and big-endian numbers

Byte strings of a fixed length, cutting them and joining them, and the big-endian reading of a
byte string as a number with its inverse.
-/

/-- Exactly `n` bytes. -/
abbrev Bytes (n : ℕ) := List.Vector UInt8 n

namespace Bytes

/-- The UTF-8 bytes of a text. -/
def utf8 (s : String) : List UInt8 := s.toUTF8.data.toList

def zero (n : ℕ) : Bytes n := ⟨List.replicate n 0, by simp⟩

/-- The `n` bytes from offset `i` on. -/
def slice {m : ℕ} (b : Bytes m) (i n : ℕ) (h : i + n ≤ m) : Bytes n :=
  ⟨(b.toList.drop i).take n, by simp; omega⟩

@[simp]
theorem length_toList {n : ℕ} (b : Bytes n) : b.toList.length = n := b.2

def append {m n : ℕ} (b : Bytes m) (b' : Bytes n) : Bytes (m + n) :=
  ⟨b.toList ++ b'.toList, by simp⟩

theorem toList_inj {n : ℕ} {b b' : Bytes n} : b.toList = b'.toList ↔ b = b' :=
  ⟨fun h => Subtype.ext h, congrArg _⟩

/-- Joined byte strings whose first parts are as long as each other are joined from equal
parts. -/
theorem append_eq_append {n : ℕ} {b b' : Bytes n} {l l' : List UInt8} :
    b.toList ++ l = b'.toList ++ l' ↔ b = b' ∧ l = l' := by
  refine ⟨fun h => ?_, fun ⟨h₁, h₂⟩ => by rw [h₁, h₂]⟩
  obtain ⟨h₁, h₂⟩ := List.append_inj h (by simp)
  exact ⟨toList_inj.1 h₁, h₂⟩

/-- The number a byte string is, most significant byte first. -/
def beVal (l : List UInt8) : ℕ := Nat.ofDigits 256 (l.reverse.map UInt8.toNat)

def toNat {n : ℕ} (b : Bytes n) : ℕ := beVal b.toList

theorem beVal_append (l l' : List UInt8) :
    beVal (l ++ l') = beVal l * 256 ^ l'.length + beVal l' := by
  simp only [beVal, List.reverse_append, List.map_append, Nat.ofDigits_append, List.length_map,
    List.length_reverse]
  ring

theorem digits_lt (l : List UInt8) : ∀ d ∈ l.reverse.map UInt8.toNat, d < 256 := by
  intro d hd
  obtain ⟨b, -, rfl⟩ := List.mem_map.1 hd
  exact b.toNat_lt

theorem beVal_lt (l : List UInt8) : beVal l < 256 ^ l.length := by
  have h := Nat.ofDigits_lt_base_pow_length (b := 256) (l := l.reverse.map UInt8.toNat)
    (by norm_num) (digits_lt l)
  simpa [beVal] using h

theorem beVal_replicate_zero (n : ℕ) : beVal (List.replicate n 0) = 0 := by
  induction n with
  | zero => rfl
  | succ n ih =>
    rw [List.replicate_succ', beVal_append, ih]
    rfl

theorem beVal_inj {l l' : List UInt8} (hl : l.length = l'.length) (h : beVal l = beVal l') :
    l = l' := by
  have hd := Nat.ofDigits_inj_of_len_eq (by norm_num) (by simp [hl]) (digits_lt l) (digits_lt l') h
  have hi : Function.Injective UInt8.toNat := fun a b h => UInt8.toNat_inj.1 h
  exact List.reverse_injective (hi.list_map hd)

theorem toNat_inj {n : ℕ} {b b' : Bytes n} (h : b.toNat = b'.toNat) : b = b' :=
  toList_inj.1 (beVal_inj (by simp) h)

theorem toNat_lt {n : ℕ} (b : Bytes n) : b.toNat < 256 ^ n := by
  simpa [toNat] using beVal_lt b.toList

/-- The last `n` base-256 digits of a number, most significant first. -/
def beList : ℕ → ℕ → List UInt8
  | 0, _ => []
  | n + 1, k => beList n (k / 256) ++ [UInt8.ofNat k]

theorem length_beList : ∀ n k, (beList n k).length = n
  | 0, _ => rfl
  | n + 1, k => by simp [beList, length_beList n]

def ofNat (n k : ℕ) : Bytes n := ⟨beList n k, length_beList n k⟩

theorem beVal_beList : ∀ n k, beVal (beList n k) = k % 256 ^ n
  | 0, k => by simp [beList, beVal, Nat.mod_one]
  | n + 1, k => by
    have hd : beVal [UInt8.ofNat k] = k % 256 := by simp [beVal]
    rw [beList, beVal_append, beVal_beList n, hd, List.length_singleton, pow_one, Nat.pow_succ,
      Nat.mul_comm (256 ^ n), Nat.mod_mul]
    ring

theorem toNat_ofNat {n k : ℕ} (h : k < 256 ^ n) : (ofNat n k).toNat = k := by
  rw [toNat, ofNat, List.Vector.toList_mk, beVal_beList, Nat.mod_eq_of_lt h]

theorem ofNat_toNat {n : ℕ} (b : Bytes n) : ofNat n b.toNat = b :=
  toNat_inj (toNat_ofNat b.toNat_lt)

end Bytes

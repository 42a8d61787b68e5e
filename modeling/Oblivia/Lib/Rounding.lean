import Mathlib.Algebra.Order.Field.Power
import Mathlib.Algebra.Order.Floor.Ring
import Mathlib.Data.Int.Log
import Mathlib.Data.Rat.Floor
import Mathlib.Tactic.Linarith
import Mathlib.Tactic.Positivity
import Mathlib.Tactic.Ring
/-!
# Binary floating point

The non-negative numbers of a binary format: rationals of a given number of significant bits, above
a least exponent, and infinity. A rational is rounded to the nearest of them, of two to the even
one, and is off by no more than half of its last place (`abs_nearest_sub_le`), which is a fixed
part of it unless it is very small (`abs_nearest_sub_le_mul`). An integer is rounded with its sign:
it stays as it is up to a power of two, and beyond it (`roundInt_cases`).
-/

/-- The nearest integer, of two the even one. -/
def roundEven (x : ℚ) : ℤ :=
  if Int.fract x < 1 / 2 then ⌊x⌋
  else if 1 / 2 < Int.fract x then ⌊x⌋ + 1
  else if Even ⌊x⌋ then ⌊x⌋
  else ⌊x⌋ + 1

theorem roundEven_cases (x : ℚ) :
    (roundEven x = ⌊x⌋ ∧ Int.fract x ≤ 1 / 2) ∨ (roundEven x = ⌊x⌋ + 1 ∧ 1 / 2 ≤ Int.fract x) := by
  unfold roundEven
  split_ifs with h₁ h₂ h₃
  · exact .inl ⟨rfl, h₁.le⟩
  · exact .inr ⟨rfl, h₂.le⟩
  · exact .inl ⟨rfl, not_lt.1 h₂⟩
  · exact .inr ⟨rfl, not_lt.1 h₁⟩

theorem abs_roundEven_sub_le (x : ℚ) : |(roundEven x : ℚ) - x| ≤ 1 / 2 := by
  have hx := Int.floor_add_fract x
  have h₀ := Int.fract_nonneg x
  have h₁ := Int.fract_lt_one x
  rw [abs_le]
  rcases roundEven_cases x with ⟨h, hf⟩ | ⟨h, hf⟩
  · rw [h]
    constructor <;> linarith
  · rw [h]
    push_cast
    constructor <;> linarith

theorem roundEven_intCast (n : ℤ) : roundEven n = n := by
  simp [roundEven]

theorem floor_le_roundEven (x : ℚ) : ⌊x⌋ ≤ roundEven x := by
  rcases roundEven_cases x with ⟨h, -⟩ | ⟨h, -⟩ <;> omega

theorem roundEven_neg (x : ℚ) : roundEven (-x) = -roundEven x := by
  by_cases hx : Int.fract x = 0
  · obtain ⟨n, rfl⟩ := Int.fract_eq_zero_iff.1 hx
    rw [← Int.cast_neg, roundEven_intCast, roundEven_intCast]
  · have hfract := Int.fract_neg hx
    have hfloor : ⌊-x⌋ = -⌊x⌋ - 1 := by
      have h := Int.floor_add_fract (-x)
      rw [hfract] at h
      have h' := Int.floor_add_fract x
      exact_mod_cast (by linarith : (⌊-x⌋ : ℚ) = -⌊x⌋ - 1)
    have heven : Even (-⌊x⌋ - 1) ↔ ¬ Even ⌊x⌋ := by
      rw [Int.even_sub_one, even_neg]
    unfold roundEven
    rw [hfract, hfloor]
    simp only [heven]
    split_ifs <;> first | omega | linarith

structure FloatFormat where
  /-- The number of significant bits. -/
  precision : ℕ
  /-- The exponent of the least positive number. -/
  minExponent : ℤ
  /-- The exponent of the least power of two that is infinite. -/
  maxExponent : ℤ

namespace FloatFormat

def binary64 : FloatFormat := ⟨53, -1074, 1024⟩

variable (F : FloatFormat)

/-- The value of a number's last place. -/
def ulp (x : ℚ) : ℚ := 2 ^ max (Int.log 2 x + 1 - F.precision) F.minExponent

def nearest (x : ℚ) : ℚ := roundEven (x / F.ulp x) * F.ulp x

variable {F} {x : ℚ}

theorem ulp_pos : 0 < F.ulp x := by
  unfold ulp
  positivity

theorem abs_nearest_sub_le : |F.nearest x - x| ≤ F.ulp x / 2 := by
  have hu : 0 < F.ulp x := ulp_pos
  have hx : F.nearest x - x = (roundEven (x / F.ulp x) - x / F.ulp x) * F.ulp x := by
    rw [sub_mul, div_mul_cancel₀ x hu.ne', nearest]
  rw [hx, abs_mul, abs_of_pos hu]
  have h := mul_le_mul_of_nonneg_right (abs_roundEven_sub_le (x / F.ulp x)) hu.le
  linarith

/-- Above the numbers of few bits, the last place is a fixed part of the number. -/
theorem ulp_le (h : 2 ^ (F.minExponent + F.precision - 1) ≤ x) :
    F.ulp x ≤ x * 2 ^ (1 - F.precision : ℤ) := by
  have hx : 0 < x := lt_of_lt_of_le (by positivity) h
  have hlog : F.minExponent ≤ Int.log 2 x + 1 - F.precision := by
    have := (Int.zpow_le_iff_le_log (b := 2) (by omega) hx).1 (by exact_mod_cast h)
    omega
  have hpow : (2 : ℚ) ^ Int.log 2 x ≤ x := by
    exact_mod_cast Int.zpow_log_le_self (b := 2) (by omega) hx
  rw [ulp, max_eq_left hlog, add_sub_assoc, zpow_add₀ (by norm_num)]
  exact mul_le_mul_of_nonneg_right hpow (by positivity)

/-- The relative error of rounding. -/
theorem abs_nearest_sub_le_mul (h : 2 ^ (F.minExponent + F.precision - 1) ≤ x) :
    |F.nearest x - x| ≤ x * 2 ^ (-F.precision : ℤ) := by
  have hu := ulp_le h
  rw [sub_eq_add_neg, zpow_add₀ (by norm_num), zpow_one] at hu
  have := abs_nearest_sub_le (F := F) (x := x)
  linarith

/-- The relative error of a product with a rounded factor, itself rounded. -/
theorem abs_nearest_mul_sub_le {c : ℚ} (hc : 0 < c)
    (hx : 2 ^ (F.minExponent + F.precision - 1) ≤ x)
    (hxc : 2 ^ (F.minExponent + F.precision - 1) ≤ F.nearest x * c) :
    |F.nearest (F.nearest x * c) - x * c|
      ≤ x * c * (2 ^ (-F.precision : ℤ) * (2 + 2 ^ (-F.precision : ℤ))) := by
  have hpos : (0 : ℚ) < 2 ^ (-F.precision : ℤ) := by positivity
  have h₁ := abs_nearest_sub_le_mul hx
  have h₂ := abs_nearest_sub_le_mul hxc
  generalize (2 : ℚ) ^ (-F.precision : ℤ) = ε at *
  generalize F.nearest x = y at *
  -- the first error, in the product
  have h₃ : |y * c - x * c| ≤ x * c * ε := by
    rw [← sub_mul, abs_mul, abs_of_pos hc]
    calc |y - x| * c ≤ x * ε * c := mul_le_mul_of_nonneg_right h₁ hc.le
      _ = x * c * ε := by ring
  have h₄ : y * c * ε ≤ (x * c + x * c * ε) * ε :=
    mul_le_mul_of_nonneg_right (by linarith [(abs_le.1 h₃).2]) hpos.le
  calc |F.nearest (y * c) - x * c| ≤ |F.nearest (y * c) - y * c| + |y * c - x * c| :=
        abs_sub_le _ _ _
    _ ≤ (x * c + x * c * ε) * ε + x * c * ε := add_le_add (h₂.trans h₄) h₃
    _ = x * c * (ε * (2 + ε)) := by ring

theorem nearest_zero : F.nearest 0 = 0 := by
  simp [nearest, roundEven]

section Integers

/-- An integer rounded to the format's bits, without a greatest exponent. -/
def roundInt (F : FloatFormat) (n : ℤ) : ℤ :=
  let u : ℤ := 2 ^ (n.natAbs.log2 + 1 - F.precision)
  roundEven (n / u) * u

variable {n : ℤ}

theorem log2_lt {k p : ℕ} (h : k < 2 ^ p) (hp : 1 ≤ p) : k.log2 + 1 ≤ p := by
  rcases Nat.eq_zero_or_pos k with rfl | hk
  · simpa using hp
  · exact (Nat.log2_lt hk.ne').2 h

theorem roundInt_of_dvd (h : 2 ^ (n.natAbs.log2 + 1 - F.precision) ∣ n) : F.roundInt n = n := by
  obtain ⟨k, hk⟩ := h
  have hpos : (2 : ℚ) ^ (n.natAbs.log2 + 1 - F.precision) ≠ 0 := by positivity
  have hquot : (n : ℚ) / (2 ^ (n.natAbs.log2 + 1 - F.precision) : ℤ) = k := by
    rw [div_eq_iff (by exact_mod_cast hpos), mul_comm]
    exact_mod_cast hk
  simp only [roundInt]
  rw [hquot, roundEven_intCast, mul_comm]
  exact hk.symm

/-- An integer of no more bits than the format has is one of its numbers. -/
theorem roundInt_of_le (hp : 1 ≤ F.precision) (h : n.natAbs ≤ 2 ^ F.precision) :
    F.roundInt n = n := by
  refine roundInt_of_dvd ?_
  rcases h.lt_or_eq with h | h
  · rw [Nat.sub_eq_zero_of_le (log2_lt h hp), pow_zero]
    exact one_dvd n
  · rw [h, Nat.log2_two_pow, Nat.add_sub_cancel_left, pow_one, ← Int.dvd_natAbs, h]
    exact_mod_cast dvd_pow_self 2 (by omega)

/-- A power of two is one of the format's numbers, and rounding takes none across it. -/
theorem le_roundInt (hp : 1 ≤ F.precision) (h : 2 ^ F.precision ≤ n) :
    2 ^ F.precision ≤ F.roundInt n := by
  obtain ⟨k, rfl⟩ := Int.eq_ofNat_of_zero_le (le_trans (by positivity) h)
  have hk : 2 ^ F.precision ≤ k := by exact_mod_cast h
  have hk0 : k ≠ 0 := by
    have hpos : 0 < 2 ^ F.precision := by positivity
    omega
  have hlog : F.precision ≤ k.log2 := (Nat.le_log2 hk0).2 hk
  -- the integer without its excess bits
  have hfloor : (2 : ℤ) ^ (F.precision - 1) ≤ ⌊(k : ℚ) / (2 : ℤ) ^ (k.log2 + 1 - F.precision)⌋ := by
    rw [Int.le_floor, le_div_iff₀ (by positivity)]
    have hpow : 2 ^ (F.precision - 1) * 2 ^ (k.log2 + 1 - F.precision) ≤ k := by
      rw [← pow_add, show F.precision - 1 + (k.log2 + 1 - F.precision) = k.log2 by omega]
      exact Nat.log2_self_le hk0
    exact_mod_cast hpow
  calc (2 : ℤ) ^ F.precision ≤ 2 ^ (F.precision - 1 + (k.log2 + 1 - F.precision)) :=
        pow_le_pow_right₀ (by norm_num) (by omega)
    _ = 2 ^ (F.precision - 1) * 2 ^ (k.log2 + 1 - F.precision) := pow_add _ _ _
    _ ≤ F.roundInt k := by
      have hround := hfloor.trans (floor_le_roundEven _)
      simpa [roundInt] using mul_le_mul_of_nonneg_right hround
        (pow_nonneg (by norm_num : (0 : ℤ) ≤ 2) (k.log2 + 1 - F.precision))

theorem roundInt_neg : F.roundInt (-n) = -F.roundInt n := by
  simp only [roundInt, Int.natAbs_neg, Int.cast_neg, neg_div, roundEven_neg, neg_mul]

/-- Rounding leaves the integers up to a power of two, and keeps the others beyond it. -/
theorem roundInt_cases (hp : 1 ≤ F.precision) (n : ℤ) :
    (n.natAbs ≤ 2 ^ F.precision ∧ F.roundInt n = n)
      ∨ (2 ^ F.precision < n ∧ 2 ^ F.precision ≤ F.roundInt n)
      ∨ (n < -2 ^ F.precision ∧ F.roundInt n ≤ -2 ^ F.precision) := by
  by_cases h : n.natAbs ≤ 2 ^ F.precision
  · exact .inl ⟨h, roundInt_of_le hp h⟩
  have habs : (2 : ℤ) ^ F.precision < |n| := by
    rw [Int.abs_eq_natAbs]
    exact_mod_cast not_le.1 h
  rcases lt_abs.1 habs with hpos | hneg
  · exact .inr (.inl ⟨hpos, le_roundInt hp hpos.le⟩)
  · have hround := le_roundInt hp hneg.le
    rw [roundInt_neg] at hround
    exact .inr (.inr ⟨by omega, by omega⟩)

theorem nearest_natCast_of_lt {k : ℕ} (hmin : F.minExponent ≤ 0) (hp : 1 ≤ F.precision)
    (hk : k < 2 ^ F.precision) : F.nearest k = k := by
  have hlog : Int.log 2 (k : ℚ) + 1 - F.precision ≤ 0 := by
    have hbits := log2_lt hk hp
    rw [Int.log_natCast, ← Nat.log2_eq_log_two]
    omega
  obtain ⟨e, he⟩ := Int.eq_ofNat_of_zero_le (neg_nonneg.2 (max_le hlog hmin))
  have hulp : F.ulp k = 1 / 2 ^ e := by
    rw [ulp, ← neg_neg (max _ _), he, zpow_neg]
    simp
  have hmul : (k : ℚ) / F.ulp k = ((k * 2 ^ e : ℕ) : ℤ) := by
    rw [hulp]
    push_cast
    field_simp
  rw [nearest, hmul, roundEven_intCast, ← hmul, div_mul_cancel₀ _ ulp_pos.ne']

/-- Both ways of rounding agree. -/
theorem nearest_natCast (hmin : F.minExponent ≤ 0) (hp : 1 ≤ F.precision) (k : ℕ) :
    F.nearest k = F.roundInt k := by
  by_cases hk : k < 2 ^ F.precision
  · rw [nearest_natCast_of_lt hmin hp hk, roundInt_of_le (n := k) hp hk.le, Int.cast_natCast]
  · have hk0 : k ≠ 0 := by
      rintro rfl
      exact hk (by positivity)
    have hlog : F.precision ≤ k.log2 := (Nat.le_log2 hk0).2 (not_lt.1 hk)
    have hbits : Int.log 2 (k : ℚ) + 1 - F.precision = (k.log2 + 1 - F.precision : ℕ) := by
      rw [Int.log_natCast, ← Nat.log2_eq_log_two]
      omega
    rw [nearest, ulp, hbits, max_eq_left (by omega), zpow_natCast]
    simp [roundInt]

end Integers

end FloatFormat

/-- A non-negative number, or infinity. -/
inductive Double
  | finite (x : ℚ)
  | infinite
  deriving DecidableEq

namespace Double

def ofRat (F : FloatFormat) (x : ℚ) : Double :=
  if F.nearest x < 2 ^ F.maxExponent then .finite (F.nearest x) else .infinite

theorem ofRat_natCast {n : ℕ} (hn : n < 2 ^ 53) : ofRat .binary64 n = .finite n := by
  have hnearest : FloatFormat.binary64.nearest n = n :=
    FloatFormat.nearest_natCast_of_lt (by decide) (by decide) hn
  have hmax : (n : ℚ) < 2 ^ FloatFormat.binary64.maxExponent :=
    calc (n : ℚ) < 2 ^ (53 : ℤ) := by exact_mod_cast hn
      _ ≤ 2 ^ FloatFormat.binary64.maxExponent := zpow_le_zpow_right₀ (by norm_num) (by decide)
  rw [ofRat, hnearest, if_pos hmax]

/-- The product with a positive factor, rounded. -/
def scale (F : FloatFormat) (c : ℚ) : Double → Double
  | .finite x => ofRat F (x * c)
  | .infinite => .infinite

/-- The nearest integer, of two the greater one. -/
def toInteger : Double → Double
  | .finite x => .finite ⌊x + 1 / 2⌋
  | .infinite => .infinite

end Double

import Oblivia.Lib.Bytes
/-!
# Long division

Division of a number in base `b`, a list of digits with the most significant first, by `d`, digit
by digit. Leading zeros of the quotient are left out. Dividing again and again gives the digits of
the number in base `d`, the least significant first.
-/

namespace LongDivision

variable (b d : ℕ)

/-- The next digit of the quotient, unless it is a leading zero, and the next remainder. -/
def step (acc : List ℕ × ℕ) (digit : ℕ) : List ℕ × ℕ :=
  let n := acc.2 * b + digit
  (if acc.1 ≠ [] ∨ n / d ≠ 0 then acc.1 ++ [n / d] else acc.1, n % d)

/-- Quotient and remainder. -/
def divide (digits : List ℕ) : List ℕ × ℕ := digits.foldl (step b d) ([], 0)

/-- The number that digits are. -/
def value (digits : List ℕ) : ℕ := Nat.ofDigits b digits.reverse

theorem value_append_singleton (digits : List ℕ) (x : ℕ) :
    value b (digits ++ [x]) = value b digits * b + x := by
  simp [value, Nat.ofDigits_cons, Nat.mul_comm, Nat.add_comm]

theorem divide_append_singleton (digits : List ℕ) (x : ℕ) :
    divide b d (digits ++ [x]) = step b d (divide b d digits) x := by
  simp [divide]

theorem value_step (acc : List ℕ × ℕ) (digit : ℕ) :
    value b (step b d acc digit).1 * d + (step b d acc digit).2
      = (value b acc.1 * d + acc.2) * b + digit := by
  have hdiv : d * ((acc.2 * b + digit) / d) + (acc.2 * b + digit) % d = acc.2 * b + digit :=
    Nat.div_add_mod _ d
  unfold step
  dsimp only
  split_ifs with h
  · rw [value_append_singleton]
    calc (value b acc.1 * b + (acc.2 * b + digit) / d) * d + (acc.2 * b + digit) % d
        = value b acc.1 * b * d + (d * ((acc.2 * b + digit) / d) + (acc.2 * b + digit) % d) := by
          ring
      _ = (value b acc.1 * d + acc.2) * b + digit := by
          rw [hdiv]
          ring
  · -- the digit left out is zero, and so is the quotient so far
    obtain ⟨hnil, hzero⟩ := not_or.1 h
    rw [not_not.1 hzero, mul_zero, zero_add] at hdiv
    rw [not_not.1 hnil, hdiv]
    simp [value]

variable {b d}

theorem divide_remainder_lt (hd : 0 < d) (digits : List ℕ) : (divide b d digits).2 < d := by
  induction digits using List.reverseRecOn with
  | nil => exact hd
  | append_singleton digits x ih =>
    rw [divide_append_singleton]
    exact Nat.mod_lt _ hd

theorem value_divide (digits : List ℕ) :
    value b (divide b d digits).1 * d + (divide b d digits).2 = value b digits := by
  induction digits using List.reverseRecOn with
  | nil => simp [divide, value]
  | append_singleton digits x ih =>
    rw [divide_append_singleton, value_step, ih, value_append_singleton]

theorem divide_spec (hd : 0 < d) (digits : List ℕ) :
    value b digits / d = value b (divide b d digits).1
      ∧ value b digits % d = (divide b d digits).2 := by
  refine (Nat.div_mod_unique hd).2 ⟨?_, divide_remainder_lt hd digits⟩
  rw [Nat.add_comm, Nat.mul_comm]
  exact value_divide digits

theorem step_lt {r x : ℕ} (hr : r < d) (hx : x < b) : r * b + x < d * b := by
  calc r * b + x < r * b + b := by omega
    _ = (r + 1) * b := by ring
    _ ≤ d * b := Nat.mul_le_mul_right b hr

/-- What is divided in a step is below `d * b`, so that the digits of a quotient are digits. -/
theorem divide_digits_lt (hd : 0 < d) {digits : List ℕ}
    (h : ∀ x ∈ digits, x < b) : ∀ x ∈ (divide b d digits).1, x < b := by
  induction digits using List.reverseRecOn with
  | nil => simp [divide]
  | append_singleton digits x ih =>
    have ih := ih fun y hy => h y (by simp [hy])
    have hlt : (divide b d digits).2 * b + x < d * b :=
      step_lt (divide_remainder_lt hd digits) (h x (by simp))
    have hdigit : ((divide b d digits).2 * b + x) / d < b := Nat.div_lt_of_lt_mul hlt
    intro y hy
    rw [divide_append_singleton] at hy
    unfold step at hy
    dsimp only at hy
    split_ifs at hy
    · rcases List.mem_append.1 hy with hy | hy
      · exact ih y hy
      · rw [List.mem_singleton.1 hy]
        exact hdigit
    · exact ih y hy

end LongDivision

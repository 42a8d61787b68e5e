import Oblivia.Client.PasskeyDomain
import Oblivia.Lib.Rounding
import Oblivia.Relay.SpendingLimits
/-!
# The settings of the sponsor's budget

The limits are written in SOL, as decimal numerals, and computed with in lamports: a numeral becomes
a floating-point number, is multiplied by the lamports of one SOL, and rounded to an integer. The
two roundings on the way are too small to be seen in an amount below `2 ^ 51` lamports
(`toLamports_ofRat`), so what is written is what limits the wallet (`settings_exact`).
-/

namespace Oblivia

namespace Relay

open FloatFormat
open Passkey (ofText trim isDigit dot)

def lamportsPerSol : ℚ := 1000000000

section Pattern

open Regex

/-- `/^\d+(\.\d{1,9})?$/`. -/
def amountPattern : Regex UInt16 :=
  start.seq ((((one isDigit).atLeast 1).seq
    (((one (· == dot)).seq ((one isDigit).times 1 9)).times 0 1)).seq finish)

end Pattern

def digitsValue (l : Utf16) : ℕ := l.foldl (fun n u => 10 * n + (u.toNat - 48)) 0

/-- `Number(s)`, of a decimal numeral. -/
def number (s : Utf16) : Double :=
  let whole := s.takeWhile (· != dot)
  let decimals := (s.dropWhile (· != dot)).drop 1
  .ofRat binary64 (digitsValue (whole ++ decimals) / 10 ^ decimals.length)

/-- `Math.round(sol * LAMPORTS_PER_SOL)`. -/
def toLamports (sol : Double) : Double := (sol.scale binary64 lamportsPerSol).toInteger

def solSetting (value : Option Utf16) (fallback : Double) (name : String) :
    Except String Double :=
  match value with
  | none => .ok (toLamports fallback)
  | some value =>
    if value = [] then .ok (toLamports fallback)
    else if amountPattern.test (trim value) = false then
      .error (name ++ " must be a non-negative SOL amount")
    else .ok (toLamports (number (trim value)))

/-- The two variables of the environment, where they are set. -/
structure SponsorEnv where
  dailySol : Option Utf16
  minSol : Option Utf16

/-- The settings as numbers. -/
structure BudgetSettings where
  dailyLamports : Double
  floorLamports : Double
  reserveLamports : Double
  deriving DecidableEq

def budgetSettings (env : SponsorEnv) : Except String BudgetSettings := do
  let dailyLamports ← solSetting env.dailySol (number (ofText "0.5")) "OBLIVIA_SPONSOR_DAILY_SOL"
  let floorLamports ← solSetting env.minSol (number (ofText "0.2")) "OBLIVIA_SPONSOR_MIN_SOL"
  return ⟨dailyLamports, floorLamports, toLamports (number (ofText "0.01"))⟩

/-- The settings that are these limits. -/
def Limits.settings (L : Limits) : BudgetSettings :=
  ⟨.finite L.dailyLamports, .finite L.floorLamports, .finite L.reserveLamports⟩

/-- The numeral of so many lamports, in SOL: digits, and up to nine more behind a dot. -/
def IsAmount (s : Utf16) (lamports : ℕ) : Prop :=
  ∃ whole decimals : Utf16, whole ≠ [] ∧ whole.all isDigit = true ∧ decimals.all isDigit = true
    ∧ decimals.length ≤ 9
    ∧ s = (if decimals = [] then whole else whole ++ dot :: decimals)
    ∧ lamports = digitsValue whole * 10 ^ 9 + digitsValue decimals * 10 ^ (9 - decimals.length)

/-- A setting is written as an amount, or left out for its default. -/
def IsWritten (value : Option Utf16) (default lamports : ℕ) : Prop :=
  match value with
  | none => lamports = default
  | some value => if value = [] then lamports = default else IsAmount (trim value) lamports

section Rounding

variable {n : ℕ} {m : ℚ}

theorem small_le : (2 : ℚ) ^ (binary64.minExponent + binary64.precision - 1) ≤ 1 / 2 ^ 34 := by
  have h : (2 : ℚ) ^ (-1022 : ℤ) ≤ 2 ^ (-34 : ℤ) := zpow_le_zpow_right₀ (by norm_num) (by norm_num)
  rw [zpow_neg (2 : ℚ) 34] at h
  exact h.trans (by norm_num)

/-- Both roundings together, for a number of lamports. -/
theorem abs_scale_sub_le (hn : 1 ≤ n)
    (h : (Double.ofRat binary64 ((n : ℚ) / 10 ^ 9)).scale binary64 lamportsPerSol = .finite m) :
    |m - n| ≤ n / 2 ^ 52 + n / 2 ^ 106 := by
  have hn' : (1 : ℚ) ≤ n := by exact_mod_cast hn
  have hx : 1 / 2 ^ 34 ≤ (n : ℚ) / 10 ^ 9 := by
    rw [div_le_div_iff₀ (by norm_num) (by norm_num)]
    linarith
  have hy := abs_nearest_sub_le_mul (small_le.trans hx)
  have hxc := abs_nearest_mul_sub_le (F := binary64) (c := lamportsPerSol)
    (by norm_num [lamportsPerSol]) (small_le.trans hx)
  have hc : (n : ℚ) / 10 ^ 9 * lamportsPerSol = n := by
    norm_num [lamportsPerSol]
  have hpow : (2 : ℚ) ^ (-(binary64.precision : ℤ)) = 1 / 2 ^ 53 := by norm_num [binary64]
  rw [hc, hpow] at hxc
  rw [hpow] at hy
  unfold Double.ofRat at h
  split_ifs at h with h₁
  · simp only [Double.scale, Double.ofRat] at h
    split_ifs at h with h₂
    cases h
    refine (hxc (small_le.trans ?_)).trans ?_
    · rw [abs_le] at hy
      norm_num [lamportsPerSol] at hy ⊢
      linarith
    · linarith
  · cases h

theorem le_maxExponent : 2 * (2 : ℚ) ^ 200 ≤ 2 ^ binary64.maxExponent :=
  calc 2 * (2 : ℚ) ^ 200 = 2 ^ (201 : ℤ) := by norm_num
    _ ≤ 2 ^ binary64.maxExponent := zpow_le_zpow_right₀ (by norm_num) (by decide)

/-- A number of lamports that is not immense becomes a number. -/
theorem exists_scale (hn : n < 2 ^ 200) :
    ∃ z, (Double.ofRat binary64 ((n : ℚ) / 10 ^ 9)).scale binary64 lamportsPerSol = .finite z := by
  have hn' : (n : ℚ) < 2 ^ 200 := by exact_mod_cast hn
  have hmax := le_maxExponent
  have hpow : (2 : ℚ) ^ (-(binary64.precision : ℤ)) = 1 / 2 ^ 53 := by norm_num [binary64]
  rcases Nat.eq_zero_or_pos n with rfl | hpos
  · refine ⟨0, ?_⟩
    simp [Double.ofRat, Double.scale, nearest_zero, binary64]
  have hpos' : (1 : ℚ) ≤ n := by exact_mod_cast hpos
  have hx : 1 / 2 ^ 34 ≤ (n : ℚ) / 10 ^ 9 := by
    rw [div_le_div_iff₀ (by norm_num) (by norm_num)]
    linarith
  have hy := abs_nearest_sub_le_mul (small_le.trans hx)
  have hxc : 1 / 2 ^ 34 ≤ binary64.nearest ((n : ℚ) / 10 ^ 9) * lamportsPerSol := by
    rw [hpow, abs_le] at hy
    norm_num [lamportsPerSol] at hy ⊢
    linarith
  have hz := abs_nearest_sub_le_mul (small_le.trans hxc)
  rw [hpow, abs_le] at hy hz
  generalize (2 : ℚ) ^ 1000 = b at hn' hmax
  have h₁ : binary64.nearest ((n : ℚ) / 10 ^ 9) < 2 ^ binary64.maxExponent := by
    norm_num at hy ⊢
    linarith
  have h₂ : binary64.nearest (binary64.nearest ((n : ℚ) / 10 ^ 9) * lamportsPerSol)
      < 2 ^ binary64.maxExponent := by
    norm_num [lamportsPerSol] at hy hz ⊢
    linarith
  refine ⟨binary64.nearest (binary64.nearest ((n : ℚ) / 10 ^ 9) * lamportsPerSol), ?_⟩
  rw [Double.ofRat, if_pos h₁, Double.scale, Double.ofRat, if_pos h₂]

/-- What becomes of an amount: it is a number, next to the amount, and the amount itself as long as
half a lamport is more than both roundings can make. -/
theorem toLamports_ofRat (hn : n < 2 ^ 200) :
    ∃ k : ℤ, toLamports (.ofRat binary64 ((n : ℚ) / 10 ^ 9)) = .finite k
      ∧ |(k : ℚ) - n| ≤ n / 2 ^ 50 ∧ (n < 2 ^ 51 → k = n) := by
  obtain ⟨z, hz⟩ := exists_scale hn
  clear hn
  refine ⟨⌊z + 1 / 2⌋, by rw [toLamports, hz, Double.toInteger], ?_⟩
  have hfloor := Int.floor_le (z + 1 / 2)
  have hfloor' := Int.lt_floor_add_one (z + 1 / 2)
  rcases Nat.eq_zero_or_pos n with rfl | hpos
  · have h₀ : z = 0 := by
      simpa [Double.ofRat, Double.scale, nearest_zero, binary64, eq_comm] using hz
    subst h₀
    norm_num
  have herr := abs_scale_sub_le hpos hz
  have hexact (hsmall : n < 2 ^ 51) : ⌊z + 1 / 2⌋ = n := by
    have hsmall' : (n : ℚ) + 1 ≤ 2 ^ 51 := by exact_mod_cast hsmall
    rw [abs_le] at herr
    rw [Int.floor_eq_iff]
    push_cast
    norm_num at herr hsmall' ⊢
    constructor <;> linarith
  refine ⟨?_, hexact⟩
  by_cases hsmall : n < 2 ^ 51
  · rw [hexact hsmall]
    simp only [Int.cast_natCast, sub_self, abs_zero]
    positivity
  · have hlarge : (2 : ℚ) ^ 51 ≤ n := by exact_mod_cast not_lt.1 hsmall
    generalize ⌊z + 1 / 2⌋ = k at *
    rw [abs_le] at herr ⊢
    norm_num at herr ⊢
    constructor <;> linarith

end Rounding

section Numerals

variable {s whole decimals : Utf16} {n : ℕ}

theorem digitsValue_append (l l' : Utf16) :
    digitsValue (l ++ l') = digitsValue l * 10 ^ l'.length + digitsValue l' := by
  induction l' using List.reverseRecOn with
  | nil => simp [digitsValue]
  | append_singleton l' u ih =>
    rw [← List.append_assoc, digitsValue, List.foldl_append, ← digitsValue, ih]
    simp only [List.foldl_cons, List.foldl_nil, List.length_append, List.length_singleton,
      digitsValue, List.foldl_append]
    ring

theorem ne_dot_of_isDigit {u : UInt16} (h : isDigit u = true) : (u != dot) = true := by
  rw [bne_iff_ne]
  rintro rfl
  exact absurd h (by decide)

/-- The pattern is that of the amounts. -/
theorem test_amountPattern : amountPattern.test s = true ↔ ∃ n, IsAmount s n := by
  have hdigits : Regex.Reads (Regex.rests s.length ((Regex.one isDigit).atLeast 1))
      (Regex.fromOn (Regex.oneOf isDigit) 1) :=
    Regex.reads_one.atLeast (by simp [Regex.mem_oneOf])
  rw [amountPattern, Regex.test_start, Regex.rests_finish (hdigits.seq
    ((Regex.reads_one.seq (Regex.reads_one.times (by decide))).times (by decide))),
    Language.mem_mul]
  constructor
  · rintro ⟨whole, ⟨k, hk, hwhole⟩, rest, ⟨j, -, hj, hrest⟩, rfl⟩
    obtain ⟨hlen, hw⟩ := Regex.mem_oneOf_pow.1 hwhole
    have hne : whole ≠ [] := List.ne_nil_of_length_pos (by omega)
    rcases Nat.le_one_iff_eq_zero_or_eq_one.1 hj with rfl | rfl
    · obtain rfl : rest = [] := by simpa using hrest
      exact ⟨_, whole, [], hne, List.all_eq_true.2 hw, rfl, by simp, by simp, rfl⟩
    · rw [pow_one, Language.mem_mul] at hrest
      obtain ⟨_, ⟨d, hd, rfl⟩, decimals, ⟨i, hi, hi', hdec⟩, rfl⟩ := hrest
      obtain ⟨hlen', hdec⟩ := Regex.mem_oneOf_pow.1 hdec
      obtain rfl : d = dot := by simpa using hd
      have hne' : decimals ≠ [] := List.ne_nil_of_length_pos (by omega)
      exact ⟨_, whole, decimals, hne, List.all_eq_true.2 hw, List.all_eq_true.2 hdec, by omega,
        by rw [if_neg hne']; rfl, rfl⟩
  · rintro ⟨n, whole, decimals, hne, hw, hdec, hlen, rfl, -⟩
    rw [List.all_eq_true] at hw hdec
    have hwhole : whole ∈ Regex.fromOn (Regex.oneOf isDigit) 1 :=
      ⟨whole.length, List.length_pos_of_ne_nil hne, Regex.mem_oneOf_pow.2 ⟨rfl, hw⟩⟩
    by_cases hnil : decimals = []
    · rw [if_pos hnil]
      exact ⟨whole, hwhole, [], ⟨0, le_rfl, by omega, by simp⟩, by simp⟩
    · rw [if_neg hnil]
      refine ⟨whole, hwhole, dot :: decimals, ⟨1, by omega, le_rfl, ?_⟩, rfl⟩
      rw [pow_one, Language.mem_mul]
      exact ⟨[dot], ⟨dot, by simp, rfl⟩, decimals, ⟨decimals.length, List.length_pos_of_ne_nil hnil,
        hlen, Regex.mem_oneOf_pow.2 ⟨rfl, hdec⟩⟩, rfl⟩

/-- The number that an amount is read as. -/
theorem number_of_isAmount (h : IsAmount s n) :
    number s = .ofRat binary64 ((n : ℚ) / 10 ^ 9) := by
  obtain ⟨whole, decimals, -, hw, -, hlen, rfl, rfl⟩ := h
  have hw' : ∀ u ∈ whole, (u != dot) = true := fun u hu =>
    ne_dot_of_isDigit (List.all_eq_true.1 hw u hu)
  have hsplit : (if decimals = [] then whole else whole ++ dot :: decimals).takeWhile (· != dot)
      = whole ∧ ((if decimals = [] then whole else whole ++ dot :: decimals).dropWhile
        (· != dot)).drop 1 = decimals := by
    split_ifs with hnil
    · rw [List.takeWhile_eq_self_iff.2 hw', List.dropWhile_eq_nil_iff.2 hw', hnil]
      exact ⟨rfl, rfl⟩
    · rw [List.takeWhile_append_of_pos hw', List.dropWhile_append_of_pos hw']
      simp
  rw [number]
  simp only [hsplit.1, hsplit.2]
  rw [digitsValue_append]
  congr 1
  obtain ⟨j, hj⟩ := Nat.exists_eq_add_of_le hlen
  have hj' : 9 - decimals.length = j := by omega
  rw [hj', hj]
  push_cast
  rw [pow_add]
  field_simp

end Numerals

section Settings

variable {value : Option Utf16} {default n : ℕ}

theorem number_default (t : String) {n : ℕ} (h : IsAmount (ofText t) n) (hn : n < 2 ^ 51) :
    toLamports (number (ofText t)) = .finite n := by
  obtain ⟨k, hk, -, hexact⟩ := toLamports_ofRat
    (hn.trans (Nat.pow_lt_pow_right (by omega) (by omega)))
  rw [number_of_isAmount h, hk, hexact hn]
  rfl

/-- A setting that is written is that many lamports, or next to them. -/
theorem solSetting_of_isWritten {fallback : Double} (name : String)
    (hd : toLamports fallback = .finite default) (h : IsWritten value default n)
    (hn : n < 2 ^ 200) :
    ∃ k : ℤ, solSetting value fallback name = .ok (.finite k)
      ∧ |(k : ℚ) - n| ≤ n / 2 ^ 50 ∧ (n < 2 ^ 51 → k = n) := by
  have hdefault : n = default → ∃ k : ℤ, toLamports fallback = .finite k
      ∧ |(k : ℚ) - n| ≤ n / 2 ^ 50 ∧ (n < 2 ^ 51 → k = n) := by
    rintro rfl
    refine ⟨n, hd, ?_, fun _ => rfl⟩
    rw [Int.cast_natCast, sub_self, abs_zero]
    exact div_nonneg n.cast_nonneg (by norm_num)
  unfold IsWritten at h
  unfold solSetting
  rcases value with _ | value
  · obtain ⟨k, hk, hrest⟩ := hdefault h
    exact ⟨k, by rw [hk], hrest⟩
  · simp only at h ⊢
    split_ifs at h ⊢ with hnil htest
    · obtain ⟨k, hk, hrest⟩ := hdefault h
      exact ⟨k, by rw [hk], hrest⟩
    · rw [test_amountPattern.2 ⟨n, h⟩] at htest
      cases htest
    · obtain ⟨k, hk, hrest⟩ := toLamports_ofRat hn
      exact ⟨k, by rw [number_of_isAmount h, hk], hrest⟩

/-- A setting is accepted exactly when it is written as an amount, or left out. -/
theorem solSetting_isOk (fallback : Double) (name : String) :
    (∃ x, solSetting value fallback name = .ok x) ↔ ∃ n, IsWritten value default n := by
  unfold IsWritten solSetting
  rcases value with _ | value
  · simp
  · simp only
    split_ifs with hnil htest
    · simp
    · simp only [exists_false, false_iff]
      rw [← test_amountPattern, htest]
      simp
    · rw [Bool.not_eq_false, test_amountPattern] at htest
      simp [htest]

/-- The defaults, in lamports. -/
def defaultDaily : ℕ := 500000000
def defaultFloor : ℕ := 200000000
def reserve : ℕ := 10000000

theorem toLamports_defaults : toLamports (number (ofText "0.5")) = .finite defaultDaily
    ∧ toLamports (number (ofText "0.2")) = .finite defaultFloor
    ∧ toLamports (number (ofText "0.01")) = .finite reserve :=
  ⟨number_default _ ⟨ofText "0", ofText "5", by decide +kernel⟩ (by decide +kernel),
    number_default _ ⟨ofText "0", ofText "2", by decide +kernel⟩ (by decide +kernel),
    number_default _ ⟨ofText "0", ofText "01", by decide +kernel⟩ (by decide +kernel)⟩

open Sponsor in
/-- The settings are accepted exactly when both are written as amounts of SOL, or left out. Then
they are the written amounts, up to one part in `2 ^ 50`, and below `2 ^ 51` lamports exactly: the
wallet's day and its floor are kept, as they are written, in every run in which the budget's
readings are timely. -/
theorem settings_exact (env : SponsorEnv) :
    ((∃ st, budgetSettings env = .ok st) ↔ (∃ d, IsWritten env.dailySol defaultDaily d)
      ∧ ∃ f, IsWritten env.minSol defaultFloor f)
    ∧ ∀ d f, IsWritten env.dailySol defaultDaily d → IsWritten env.minSol defaultFloor f →
      (d < 2 ^ 200 → f < 2 ^ 200 → ∃ k l : ℤ,
        budgetSettings env = .ok ⟨.finite k, .finite l, .finite reserve⟩
          ∧ |(k : ℚ) - d| ≤ d / 2 ^ 50 ∧ |(l : ℚ) - f| ≤ f / 2 ^ 50)
      ∧ (d < 2 ^ 51 → f < 2 ^ 51 → ∃ L : Limits, budgetSettings env = .ok L.settings
        ∧ L = ⟨d, f, reserve⟩ ∧ ∀ balance today js m,
          Batch.Path (step L) (start balance today) js m →
          (∀ p ∈ js, Moved L p.1 p.2) → (∀ p ∈ js, Timely L p.1 p.2) →
            (m.state.day = some m.today → m.wallet.total - m.opening ≤ d)
              ∧ ∀ r x m', step L m (.withdraw r x) = .ok m' → Moved L m (.withdraw r x) →
                f ≤ m'.wallet.balance) := by
  obtain ⟨h₁, h₂, h₃⟩ := toLamports_defaults
  have hbig {n : ℕ} (h : n < 2 ^ 51) : n < 2 ^ 200 :=
    h.trans (Nat.pow_lt_pow_right (by omega) (by omega))
  refine ⟨?_, fun d f hd hf => ⟨fun hd' hf' => ?_, fun hd' hf' => ?_⟩⟩
  · simp only [budgetSettings, Batch.bind_eq_ok, Batch.pure_eq_ok]
    rw [← solSetting_isOk (number (ofText "0.5")) "OBLIVIA_SPONSOR_DAILY_SOL",
      ← solSetting_isOk (number (ofText "0.2")) "OBLIVIA_SPONSOR_MIN_SOL"]
    constructor
    · rintro ⟨_, x, hx, y, hy, _⟩
      exact ⟨⟨x, hx⟩, y, hy⟩
    · rintro ⟨⟨x, hx⟩, y, hy⟩
      exact ⟨_, x, hx, y, hy, rfl⟩
  · obtain ⟨k, hk, hk', -⟩ := solSetting_of_isWritten "OBLIVIA_SPONSOR_DAILY_SOL" h₁ hd hd'
    obtain ⟨l, hl, hl', -⟩ := solSetting_of_isWritten "OBLIVIA_SPONSOR_MIN_SOL" h₂ hf hf'
    refine ⟨k, l, ?_, hk', hl'⟩
    rw [budgetSettings, hk, hl, h₃]
    rfl
  · obtain ⟨k, hk, -, hk'⟩ :=
      solSetting_of_isWritten "OBLIVIA_SPONSOR_DAILY_SOL" h₁ hd (hbig hd')
    obtain ⟨l, hl, -, hl'⟩ := solSetting_of_isWritten "OBLIVIA_SPONSOR_MIN_SOL" h₂ hf (hbig hf')
    rw [hk' hd'] at hk
    rw [hl' hf'] at hl
    refine ⟨⟨d, f, reserve⟩, ?_, rfl, fun balance today js m hp hmoved htimely => ?_⟩
    · rw [budgetSettings, hk, hl, h₃]
      rfl
    · -- limits as small as these are compared exactly, whatever is in the wallet
      have hexact : Exact ⟨d, f, reserve⟩ balance := by
        refine .inr ?_
        show f + d + 10000000 < 2 ^ 53
        omega
      obtain ⟨-, hc⟩ := covered_of_path hp hexact hmoved htimely
      exact ⟨hc.daily, fun _ _ _ => hc.above_floor⟩

/-- Two SOL a day, and a floor of a twentieth of one. -/
theorem settings_exact_sample : ∃ L : Limits,
    budgetSettings ⟨some (ofText "2"), some (ofText " 0.05 ")⟩ = .ok L.settings
      ∧ L = ⟨2000000000, 50000000, 10000000⟩ := by
  have hd : IsWritten (some (ofText "2")) defaultDaily 2000000000 := by
    have hne : ofText "2" ≠ [] := by decide
    rw [IsWritten, if_neg hne]
    exact ⟨ofText "2", [], by decide +kernel⟩
  have hf : IsWritten (some (ofText " 0.05 ")) defaultFloor 50000000 := by
    have hne : ofText " 0.05 " ≠ [] := by decide
    rw [IsWritten, if_neg hne]
    exact ⟨ofText "0", ofText "05", by decide +kernel⟩
  obtain ⟨L, hL, heq, -⟩ := ((settings_exact ⟨some (ofText "2"), some (ofText " 0.05 ")⟩).2
    _ _ hd hf).2 (by norm_num) (by norm_num)
  exact ⟨L, hL, heq⟩

end Settings

end Relay

end Oblivia

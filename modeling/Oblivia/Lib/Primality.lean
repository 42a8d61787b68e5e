import Mathlib.Data.List.Prime
import Mathlib.NumberTheory.LucasPrimality
/-!
# Primality by Lucas's test

A number is prime if some element has exactly the order `p - 1` modulo it, and that is a finite
check once the prime factors of `p - 1` are known. The powers are computed by repeated squaring,
so the check evaluates for numbers of hundreds of bits.
-/

namespace Lucas

/-- `a ^ e` modulo `m`, for an exponent of at most `n` bits: one squaring for each bit. -/
def powMod (a m : ℕ) : ℕ → ℕ → ℕ
  | 0, _ => 1 % m
  | n + 1, e => powMod a m n (e / 2) ^ 2 * (if e % 2 = 1 then a else 1) % m

/-- The test of `p` with the base `a`, over the primes and exponents that make up `p - 1`. -/
def test (p a n : ℕ) (fs : List (ℕ × ℕ)) : Bool :=
  decide (1 < p ∧ p < 2 ^ n ∧ (fs.map fun f => f.1 ^ f.2).prod + 1 = p
    ∧ powMod a p n (p - 1) = 1 ∧ ∀ f ∈ fs, powMod a p n ((p - 1) / f.1) ≠ 1)

variable {a m p : ℕ}

theorem powMod_eq : ∀ {n e : ℕ}, e < 2 ^ n → powMod a m n e = a ^ e % m
  | 0, e, h => by
    obtain rfl : e = 0 := by omega
    rfl
  | n + 1, e, h => by
    have hhalf : e / 2 < 2 ^ n := by rw [pow_succ] at h; omega
    have hbit : (if e % 2 = 1 then a else 1) = a ^ (e % 2) := by
      rcases Nat.mod_two_eq_zero_or_one e with h0 | h1
      · rw [h0]; simp
      · rw [h1]; simp
    rw [powMod, powMod_eq hhalf, hbit, Nat.mul_mod, ← Nat.pow_mod, ← Nat.mul_mod, ← pow_mul,
      ← pow_add, mul_comm, Nat.div_add_mod]

theorem cast_pow_eq_one_iff (hp : 1 < p) {e : ℕ} : (a : ZMod p) ^ e = 1 ↔ a ^ e % p = 1 := by
  have h1 : 1 % p = 1 := Nat.mod_eq_of_lt hp
  rw [← Nat.cast_pow, ← Nat.cast_one, ZMod.natCast_eq_natCast_iff', h1]

theorem prime_of_test (a n : ℕ) (fs : List (ℕ × ℕ)) (hfs : ∀ f ∈ fs, f.1.Prime)
    (h : test p a n fs = true) : p.Prime := by
  obtain ⟨hp, hn, hprod, hone, hne⟩ := of_decide_eq_true h
  have hpow : ∀ e ≤ p - 1, powMod a p n e = a ^ e % p := fun e he => powMod_eq (by omega)
  refine lucas_primality p a ?_ fun q hq hdvd => ?_
  · rw [cast_pow_eq_one_iff hp, ← hpow _ le_rfl]
    exact hone
  · -- a prime divisor of `p - 1` is one of the factors
    have hmem : q ∣ (fs.map fun f => f.1 ^ f.2).prod := by
      rwa [show (fs.map fun f => f.1 ^ f.2).prod = p - 1 by omega]
    obtain ⟨_, hx, hqx⟩ := (Prime.dvd_prod_iff hq.prime).1 hmem
    obtain ⟨f, hf, rfl⟩ := List.mem_map.1 hx
    have hqf := (Nat.prime_dvd_prime_iff_eq hq (hfs f hf)).1 (hq.dvd_of_dvd_pow hqx)
    rw [Ne, cast_pow_eq_one_iff hp, ← hpow _ (Nat.div_le_self _ _), hqf]
    exact hne f hf

end Lucas

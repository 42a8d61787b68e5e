import Mathlib.Algebra.Order.BigOperators.Group.Finset
import Mathlib.Algebra.Order.Ring.Nat
import Mathlib.Algebra.Group.Action.Defs
/-!
# Reservations

Holders that each may spend up to a common cap while they are active. `outstanding` is what the
active ones may still spend, `drawn` what they have spent since a mark; spending moves an amount
from the one to the other, and together they are never more than a cap for each holder.
-/

namespace Reservation

variable {ι : Type*}

def outstanding (cap : ℕ) (active : Finset ι) (spent : ι → ℕ) : ℕ :=
  ∑ i ∈ active, (cap - spent i)

def drawn (active : Finset ι) (spent mark : ι → ℕ) : ℕ := ∑ i ∈ active, (spent i - mark i)

variable {cap x : ℕ} {active : Finset ι} {spent mark : ι → ℕ} {i : ι}

theorem outstanding_le : outstanding cap active spent ≤ active.card * cap := by
  unfold outstanding
  rw [← smul_eq_mul]
  exact Finset.sum_le_card_nsmul _ _ _ fun i _ => Nat.sub_le _ _

/-- What is outstanding and what has been drawn fit under the caps. -/
theorem outstanding_add_drawn_le (hmark : ∀ i ∈ active, spent i ≤ cap) :
    outstanding cap active spent + drawn active spent mark ≤ active.card * cap := by
  unfold outstanding drawn
  rw [← Finset.sum_add_distrib, ← smul_eq_mul]
  refine Finset.sum_le_card_nsmul _ _ _ fun i hi => ?_
  have h := hmark i hi
  omega

@[simp]
theorem drawn_self : drawn active spent spent = 0 := by
  simp [drawn]

section Update

variable [DecidableEq ι]

/-- One holder's spending is all that is drawn. -/
theorem drawn_spend_le : drawn active (Function.update spent i (spent i + x)) mark
    ≤ drawn active spent mark + x := by
  unfold drawn
  by_cases hi : i ∈ active
  · rw [← Finset.add_sum_erase _ _ hi, ← Finset.add_sum_erase active _ hi]
    have hrest : ∑ j ∈ active.erase i, (Function.update spent i (spent i + x) j - mark j)
        = ∑ j ∈ active.erase i, (spent j - mark j) :=
      Finset.sum_congr rfl fun j hj => by
        rw [Function.update_of_ne (Finset.ne_of_mem_erase hj)]
    rw [hrest, Function.update_self]
    omega
  · refine (Finset.sum_congr rfl fun j hj => ?_).trans_le (Nat.le_add_right _ x)
    rw [Function.update_of_ne (ne_of_mem_of_not_mem hj hi)]

/-- What an active holder spends is no longer outstanding. -/
theorem outstanding_spend (hi : i ∈ active) (hx : spent i + x ≤ cap) :
    outstanding cap active (Function.update spent i (spent i + x)) + x
      = outstanding cap active spent := by
  unfold outstanding
  rw [← Finset.add_sum_erase _ _ hi, ← Finset.add_sum_erase active _ hi]
  have hrest : ∑ j ∈ active.erase i, (cap - Function.update spent i (spent i + x) j)
      = ∑ j ∈ active.erase i, (cap - spent j) :=
    Finset.sum_congr rfl fun j hj => by
      rw [Function.update_of_ne (Finset.ne_of_mem_erase hj)]
  rw [hrest, Function.update_self]
  omega

theorem outstanding_insert (hi : i ∉ active) (h0 : spent i = 0) :
    outstanding cap (insert i active) spent = outstanding cap active spent + cap := by
  unfold outstanding
  rw [Finset.sum_insert hi, h0]
  omega

theorem outstanding_erase_le :
    outstanding cap (active.erase i) spent ≤ outstanding cap active spent :=
  Finset.sum_le_sum_of_subset (Finset.erase_subset i active)

end Update

end Reservation

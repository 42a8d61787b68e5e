import Mathlib.Algebra.Order.Group.Defs
import Mathlib.Algebra.Order.Sub.Defs
import Mathlib.Tactic.Common
/-!
# Fixed windows

A counter of hits that is set back when it is hit more than a span after it was started. It admits
the first `cap` hits of a window; so no more than `cap` in the span from a start, and fewer than
twice as many in any other span, for the hit that starts a window lies outside of a span that
reaches into the next.
-/

namespace FixedWindow

structure Window (T : Type*) where
  start : T
  count : ℕ
  deriving DecidableEq

variable {T : Type*} [AddCommGroup T] [LinearOrder T]

/-- A hit is the first of a window if there is none, or the last one is over. -/
def hit (span : T) (w : Option (Window T)) (now : T) : Window T :=
  match w with
  | none => ⟨now, 1⟩
  | some w => if now - w.start > span then ⟨now, 1⟩ else ⟨w.start, w.count + 1⟩

/-- The hits that are admitted. -/
def admitted (span : T) (cap : ℕ) : Option (Window T) → List T → List T
  | _, [] => []
  | w, now :: l =>
    let rest := admitted span cap (some (hit span w now)) l
    if (hit span w now).count ≤ cap then now :: rest else rest

variable {span : T} {cap : ℕ} {w : Option (Window T)} {l : List T} {now a : T}

theorem admitted_sublist : ∀ {l : List T} {w : Option (Window T)},
    (admitted span cap w l).Sublist l
  | [], _ => List.Sublist.refl _
  | now :: l, w => by
    rw [admitted]
    split_ifs
    · exact admitted_sublist.cons_cons now
    · exact admitted_sublist.cons now

/-- A hit within the span counts on, and is admitted while there is room. -/
theorem countP_admitted_cons {p : T → Bool} :
    (admitted span cap w (now :: l)).countP p
      = (admitted span cap (some (hit span w now)) l).countP p
        + if (hit span w now).count ≤ cap ∧ p now = true then 1 else 0 := by
  rw [admitted]
  by_cases hcap : (hit span w now).count ≤ cap
  · simp [hcap, List.countP_cons]
  · simp [hcap]

theorem countP_admitted_eq_zero {p : T → Bool} (h : ∀ t ∈ l, p t = false) :
    (admitted span cap w l).countP p = 0 := by
  refine List.countP_eq_zero.2 fun t ht => ?_
  simp [h t (admitted_sublist.subset ht)]

theorem one_le_count_hit : 1 ≤ (hit span w now).count := by
  unfold hit
  split
  · exact le_rfl
  · split_ifs
    · exact le_rfl
    · simp

variable [IsOrderedAddMonoid T]

/-- Of what comes within the span of a window, as much is admitted as there is room for. -/
theorem countP_within_le : ∀ {l : List T} {start : T} {count : ℕ}, l.Pairwise (· ≤ ·) →
    (admitted span cap (some ⟨start, count⟩) l).countP (· ≤ start + span) ≤ cap - count
  | [], start, count, _ => by simp [admitted]
  | now :: l, start, count, hl => by
    obtain ⟨hnow, hl⟩ := List.pairwise_cons.1 hl
    by_cases hover : now - start > span
    · -- what comes later is past the span too
      have hpast : start + span < now := lt_sub_iff_add_lt'.1 hover
      refine (countP_admitted_eq_zero fun t ht => ?_).trans_le (Nat.zero_le _)
      rcases List.mem_cons.1 ht with rfl | ht
      · simpa using hpast
      · simpa using hpast.trans_le (hnow t ht)
    · have hhit : hit span (some ⟨start, count⟩) now = ⟨start, count + 1⟩ := if_neg hover
      have ih : (admitted span cap (some ⟨start, count + 1⟩) l).countP (· ≤ start + span)
          ≤ cap - (count + 1) := countP_within_le hl
      rw [countP_admitted_cons, hhit]
      simp only
      split_ifs <;> omega

theorem countP_opened_le (hl : (now :: l).Pairwise (· ≤ ·)) (hhit : hit span w now = ⟨now, 1⟩)
    (ha : a ≤ now) :
    (admitted span cap w (now :: l)).countP (fun t => a ≤ t ∧ t ≤ a + span) ≤ cap := by
  have hrest : (admitted span cap (some ⟨now, 1⟩) l).countP (fun t => a ≤ t ∧ t ≤ a + span)
      ≤ cap - 1 := by
    refine le_trans (List.countP_mono_left fun t _ ht => ?_)
      (countP_within_le (List.pairwise_cons.1 hl).2)
    have hle : a + span ≤ now + span := by gcongr
    simp only [decide_eq_true_eq] at ht ⊢
    exact ht.2.trans hle
  rw [countP_admitted_cons, hhit]
  simp only
  split_ifs <;> omega

/-- From `a` on, what is left of the window and one more. -/
theorem countP_from_le : ∀ {l : List T} {w : Window T}, l.Pairwise (· ≤ ·) → (∀ t ∈ l, a ≤ t) →
    (admitted span cap (some w) l).countP (fun t => a ≤ t ∧ t ≤ a + span) ≤ cap - w.count + cap
  | [], w, _, _ => by simp [admitted]
  | now :: l, w, hl, ha => by
    by_cases hover : now - w.start > span
    · have hhit : hit span (some w) now = ⟨now, 1⟩ := if_pos hover
      exact (countP_opened_le hl hhit (ha now (by simp))).trans (Nat.le_add_left _ _)
    · have hhit : hit span (some w) now = ⟨w.start, w.count + 1⟩ := if_neg hover
      have ih : (admitted span cap (some ⟨w.start, w.count + 1⟩) l).countP
          (fun t => a ≤ t ∧ t ≤ a + span) ≤ cap - (w.count + 1) + cap :=
        countP_from_le (List.pairwise_cons.1 hl).2 fun t ht => ha t (by simp [ht])
      rw [countP_admitted_cons, hhit]
      simp only
      split_ifs <;> omega

theorem countP_started_le (hcap : 1 ≤ cap) : ∀ {l : List T} {w : Window T}, l.Pairwise (· ≤ ·) →
    1 ≤ w.count →
    (admitted span cap (some w) l).countP (fun t => a ≤ t ∧ t ≤ a + span) ≤ 2 * cap - 1
  | [], w, _, _ => by simp [admitted]
  | now :: l, w, hl, hw => by
    by_cases hnow : a ≤ now
    · have hfrom : ∀ t ∈ now :: l, a ≤ t := by
        intro t ht
        rcases List.mem_cons.1 ht with rfl | ht
        · exact hnow
        · exact hnow.trans ((List.pairwise_cons.1 hl).1 t ht)
      refine (countP_from_le hl hfrom).trans ?_
      omega
    · rw [countP_admitted_cons, if_neg (by simp [hnow])]
      exact countP_started_le hcap (List.pairwise_cons.1 hl).2 one_le_count_hit

/-- In any span, fewer are admitted than in two windows. -/
theorem countP_admitted_le (hcap : 1 ≤ cap) (hl : l.Pairwise (· ≤ ·)) :
    (admitted span cap none l).countP (fun t => a ≤ t ∧ t ≤ a + span) ≤ 2 * cap - 1 := by
  rcases l with _ | ⟨now, l⟩
  · simp [admitted]
  · by_cases hnow : a ≤ now
    · refine (countP_opened_le hl rfl hnow).trans ?_
      omega
    · rw [countP_admitted_cons, if_neg (by simp [hnow])]
      exact countP_started_le hcap (List.pairwise_cons.1 hl).2 one_le_count_hit

end FixedWindow

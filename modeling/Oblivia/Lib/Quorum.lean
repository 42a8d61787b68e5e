import Mathlib.Data.Finset.Card
import Mathlib.Data.Finset.Dedup
import Mathlib.Tactic.Common
/-!
# Quorums

A quorum collects distinct keys up to a threshold and is complete once it has met it; then it
takes no more keys. What it has collected from a list of keys is counted by the distinct keys of
the list alone (`card_signAll`), so the order of the list does not matter to the count.
-/

/-- Distinct keys, never more than the threshold. -/
structure Quorum (K : Type*) where
  threshold : ℕ
  keys : Finset K
  positive : 0 < threshold
  bounded : keys.card ≤ threshold

namespace Quorum

variable {K : Type*} [DecidableEq K]

def opened (threshold : ℕ) (h : 0 < threshold) : Quorum K := ⟨threshold, ∅, h, by simp⟩

def complete (q : Quorum K) : Prop := q.keys.card = q.threshold

instance (q : Quorum K) : Decidable q.complete :=
  inferInstanceAs (Decidable (q.keys.card = q.threshold))

/-- One more key; a key that has signed, and any key once the quorum is complete, is refused. -/
def sign (q : Quorum K) (k : K) : Option (Quorum K) :=
  if h : k ∉ q.keys ∧ ¬ q.complete then
    some { q with
      keys := insert k q.keys
      bounded := by
        have hb := q.bounded
        have hc : q.keys.card ≠ q.threshold := h.2
        rw [Finset.card_insert_of_notMem h.1]
        omega }
  else none

/-- The keys in order, the refused ones skipped. -/
def signAll : Quorum K → List K → Quorum K
  | q, [] => q
  | q, k :: ks => signAll ((q.sign k).getD q) ks

variable {q q' : Quorum K} {k : K}

theorem sign_eq_some : q.sign k = some q' ↔ k ∉ q.keys ∧ ¬ q.complete
    ∧ q'.threshold = q.threshold ∧ q'.keys = insert k q.keys := by
  unfold sign
  by_cases h : k ∉ q.keys ∧ ¬ q.complete
  · rw [dif_pos h, Option.some.injEq]
    refine ⟨fun hq => by subst hq; exact ⟨h.1, h.2, rfl, rfl⟩, fun ⟨_, _, h₁, h₂⟩ => ?_⟩
    cases q'
    simp only at h₁ h₂
    subst h₁ h₂
    rfl
  · rw [dif_neg h]
    refine ⟨fun hq => by simp at hq, fun ⟨h₁, h₂, _⟩ => absurd ⟨h₁, h₂⟩ h⟩

theorem sign_eq_none : q.sign k = none ↔ k ∈ q.keys ∨ q.complete := by
  unfold sign
  by_cases h : k ∉ q.keys ∧ ¬ q.complete
  · rw [dif_pos h]
    simp only [reduceCtorEq, false_iff, not_or]
    exact h
  · rw [dif_neg h]
    simp only [true_iff]
    tauto

theorem threshold_signAll : ∀ (ks : List K) (q : Quorum K),
    (q.signAll ks).threshold = q.threshold
  | [], _ => rfl
  | k :: ks, q => by
    rw [signAll, threshold_signAll ks]
    rcases h : q.sign k with _ | q'
    · rfl
    · exact (sign_eq_some.1 h).2.2.1

theorem signAll_of_complete (ks : List K) (h : q.complete) : q.signAll ks = q := by
  induction ks with
  | nil => rfl
  | cons k ks ih => rw [signAll, sign_eq_none.2 (.inr h), Option.getD_none, ih]

/-- The quorum counts the distinct keys it was given, up to its threshold. -/
theorem card_signAll : ∀ (ks : List K) (q : Quorum K),
    (q.signAll ks).keys.card = min q.threshold (q.keys ∪ ks.toFinset).card
  | [], q => by simpa [signAll] using q.bounded
  | k :: ks, q => by
    rw [List.toFinset_cons, Finset.union_insert, ← Finset.insert_union]
    rcases h : q.sign k with _ | q'
    · rw [signAll, h, Option.getD_none]
      rcases sign_eq_none.1 h with hk | hc
      · rw [card_signAll ks, Finset.insert_eq_self.2 hk]
      · have hsub : q.keys ⊆ insert k q.keys ∪ ks.toFinset :=
          (Finset.subset_insert _ _).trans Finset.subset_union_left
        have hle := Finset.card_le_card hsub
        rw [signAll_of_complete ks hc, hc, min_eq_left]
        rwa [hc] at hle
    · obtain ⟨-, -, ht, hk⟩ := sign_eq_some.1 h
      rw [signAll, h, Option.getD_some, card_signAll ks, ht, hk]

theorem complete_signAll (ks : List K) (q : Quorum K) :
    (q.signAll ks).complete ↔ q.threshold ≤ (q.keys ∪ ks.toFinset).card := by
  rw [complete, card_signAll, threshold_signAll, min_eq_left_iff]

theorem signAll_append (ks ks' : List K) : ∀ q : Quorum K,
    q.signAll (ks ++ ks') = (q.signAll ks).signAll ks' := by
  induction ks with
  | nil => exact fun q => rfl
  | cons k ks ih => exact fun q => ih _

/-- The keys of a quorum stay, and the others are of the list. -/
theorem mem_signAll_of_mem {k : K} : ∀ (ks : List K) {q : Quorum K}, k ∈ q.keys →
    k ∈ (q.signAll ks).keys
  | [], _, h => h
  | k' :: ks, q, h => by
    refine mem_signAll_of_mem ks ?_
    rcases hs : q.sign k' with _ | q'
    · exact h
    · rw [Option.getD_some, (sign_eq_some.1 hs).2.2.2]
      exact Finset.mem_insert_of_mem h

theorem mem_or_mem_of_mem_signAll {k : K} : ∀ (ks : List K) {q : Quorum K},
    k ∈ (q.signAll ks).keys → k ∈ q.keys ∨ k ∈ ks
  | [], _, h => .inl h
  | k' :: ks, q, h => by
    rcases mem_or_mem_of_mem_signAll ks h with hq | hk
    · rcases hs : q.sign k' with _ | q'
      · rw [hs] at hq
        exact .inl hq
      · rw [hs, Option.getD_some, (sign_eq_some.1 hs).2.2.2, Finset.mem_insert] at hq
        rcases hq with rfl | hq
        · exact .inr List.mem_cons_self
        · exact .inl hq
    · exact .inr (List.mem_cons_of_mem _ hk)

/-- A key of the list is refused only for the threshold. -/
theorem mem_signAll_or_complete {k : K} : ∀ {ks : List K} {q : Quorum K}, k ∈ ks →
    k ∈ (q.signAll ks).keys ∨ (q.signAll ks).complete
  | k' :: ks, q, h => by
    rw [signAll]
    rcases List.mem_cons.1 h with rfl | h
    · rcases hs : q.sign k with _ | q'
      · rw [Option.getD_none]
        rcases sign_eq_none.1 hs with hk | hc
        · exact .inl (mem_signAll_of_mem ks hk)
        · rw [signAll_of_complete ks hc]
          exact .inr hc
      · rw [Option.getD_some]
        refine .inl (mem_signAll_of_mem ks ?_)
        rw [(sign_eq_some.1 hs).2.2.2]
        exact Finset.mem_insert_self ..
    · exact mem_signAll_or_complete h

end Quorum

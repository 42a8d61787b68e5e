import Mathlib.Algebra.BigOperators.Group.Finset.Basic
import Mathlib.Data.Finmap
import Mathlib.Data.Finset.Card
import Mathlib.Tactic.Common
/-!
# Counting the values of a finite map

How many values of a finite map meet a predicate, and what an insertion does to that number: a
fresh key adds one if its value meets the predicate, and a value replaced by one that the
predicate does not tell apart leaves the number as it was.
-/

namespace Finmap

variable {κ ν : Type*} [DecidableEq κ]

/-- The keys whose value meets `p`. -/
def keysWhere (s : Finmap fun _ : κ => ν) (p : ν → Bool) : Finset κ :=
  s.keys.filter fun a => (s.lookup a).any p

/-- The number of values that meet `p`. -/
def countWhere (s : Finmap fun _ : κ => ν) (p : ν → Bool) : ℕ :=
  (s.keysWhere p).card

variable {s : Finmap fun _ : κ => ν} {p : ν → Bool} {a : κ} {v v' : ν}

@[simp]
theorem mem_keysWhere : a ∈ s.keysWhere p ↔ ∃ v, s.lookup a = some v ∧ p v = true := by
  simp only [keysWhere, Finset.mem_filter, mem_keys, mem_iff, Option.any_eq_true]
  constructor
  · rintro ⟨-, v, hv, hp⟩
    exact ⟨v, hv, hp⟩
  · rintro ⟨v, hv, hp⟩
    exact ⟨⟨v, hv⟩, v, hv, hp⟩

theorem lookup_insert_eq (s : Finmap fun _ : κ => ν) (a b : κ) (v : ν) :
    (s.insert a v).lookup b = if b = a then some v else s.lookup b := by
  split_ifs with h
  · rw [h, lookup_insert]
  · rw [lookup_insert_of_ne _ h]

theorem keysWhere_insert_new (h : s.lookup a = none) :
    (s.insert a v).keysWhere p
      = if p v then Insert.insert a (s.keysWhere p) else s.keysWhere p := by
  ext b
  by_cases hb : b = a
  · subst hb
    cases hp : p v <;> simp [hp, h]
  · cases hp : p v <;> simp [hb]

theorem keysWhere_insert_same (h : s.lookup a = some v) (hp : p v' = p v) :
    (s.insert a v').keysWhere p = s.keysWhere p := by
  ext b
  by_cases hb : b = a
  · subst hb
    simp [h, hp]
  · simp [hb]

theorem countWhere_insert_new (h : s.lookup a = none) :
    (s.insert a v).countWhere p = s.countWhere p + if p v then 1 else 0 := by
  have ha : a ∉ s.keysWhere p := by simp [h]
  simp only [countWhere, keysWhere_insert_new h]
  split_ifs
  · rw [Finset.card_insert_of_notMem ha]
  · rfl

theorem countWhere_insert_same (h : s.lookup a = some v) (hp : p v' = p v) :
    (s.insert a v').countWhere p = s.countWhere p := by
  rw [countWhere, keysWhere_insert_same h hp, countWhere]

theorem countWhere_eq_zero : s.countWhere p = 0 ↔ ∀ a v, s.lookup a = some v → p v = false := by
  simp only [countWhere, Finset.card_eq_zero, Finset.eq_empty_iff_forall_notMem, mem_keysWhere,
    not_exists, not_and, Bool.not_eq_true]

/-- If every value that meets `p` meets exactly one of the predicates `q i`, the numbers for these
add up. -/
theorem countWhere_eq_sum {ι : Type*} {t : Finset ι} {q : ι → ν → Bool}
    (hcover : ∀ a v, s.lookup a = some v → (p v = true ↔ ∃ i ∈ t, q i v = true))
    (hdisj : ∀ i j v, q i v = true → q j v = true → i = j) :
    s.countWhere p = ∑ i ∈ t, s.countWhere (q i) := by
  have hunion : s.keysWhere p = t.biUnion fun i => s.keysWhere (q i) := by
    ext a
    simp only [mem_keysWhere, Finset.mem_biUnion]
    constructor
    · rintro ⟨v, hv, hp⟩
      obtain ⟨i, hi, hq⟩ := (hcover a v hv).1 hp
      exact ⟨i, hi, v, hv, hq⟩
    · rintro ⟨i, hi, v, hv, hq⟩
      exact ⟨v, hv, (hcover a v hv).2 ⟨i, hi, hq⟩⟩
  rw [countWhere, hunion, Finset.card_biUnion]
  · rfl
  · intro i _ j _ hij
    refine Finset.disjoint_left.2 fun a ha hb => hij ?_
    obtain ⟨v, hv, hq⟩ := mem_keysWhere.1 ha
    obtain ⟨w, hw, hq'⟩ := mem_keysWhere.1 hb
    rw [hv, Option.some.injEq] at hw
    exact hdisj i j v hq (hw ▸ hq')

end Finmap

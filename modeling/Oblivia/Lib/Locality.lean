import Mathlib.Algebra.Group.Action.Defs
import Mathlib.Algebra.Group.Pi.Basic
import Mathlib.Order.CompletePartialOrder
import Oblivia.Lib.Batch
import Oblivia.Lib.FiniteMap
/-!
# Steps that only share what they add to

A step on a finite map is local to a set of keys when it reads and writes these keys only, apart
from shared keys whose values it raises by amounts that do not depend on what they are. Batches
that are local to disjoint sets commute (`commit_comm`), and none of them sees the other
(`exec_commit_iff`, `lookup_commit_commit`).

The amounts form a commutative group that acts on the values. A step may need room to add at the
shared keys, which it takes from a predicate on the states.
-/

namespace Batch

open Finmap

variable {κ ν ι ε α : Type*} [DecidableEq κ] [AddCommGroup α] [AddAction α ν]

/-- On the keys of `A`, the second map holds the values of the first, each raised by `δ`. -/
def Shifted (A : Set κ) (δ : κ → α) (s t : Finmap fun _ : κ => ν) : Prop :=
  ∀ a ∈ A, t.lookup a = (s.lookup a).map (δ a +ᵥ ·)

section Shifted

variable {A B : Set κ} {δ η : κ → α} {s t u : Finmap fun _ : κ => ν} {a : κ}

theorem Shifted.mono (h : Shifted A δ s t) (hB : B ⊆ A) : Shifted B δ s t :=
  fun a ha => h a (hB ha)

theorem Shifted.refl (A : Set κ) (s : Finmap fun _ : κ => ν) : Shifted A (0 : κ → α) s s := by
  intro a _
  cases s.lookup a <;> simp

theorem Shifted.trans (h : Shifted A δ s t) (h' : Shifted A η t u) :
    Shifted A (η + δ) s u := by
  intro a ha
  rw [h' a ha, h a ha, Option.map_map]
  congr 1
  funext x
  simp [add_vadd]

theorem Shifted.symm (h : Shifted A δ s t) : Shifted A (-δ) t s := by
  intro a ha
  rw [h a ha, Option.map_map]
  cases s.lookup a <;> simp

theorem Shifted.lookup_eq (h : Shifted A δ s t) (ha : a ∈ A) (hδ : δ a = 0) :
    t.lookup a = s.lookup a := by
  rw [h a ha, hδ]
  cases s.lookup a <;> simp

/-- Writing the same value on both sides, up to the shift. -/
theorem Shifted.insert (h : Shifted A δ s t) {x y : ν} (hxy : a ∈ A → y = δ a +ᵥ x) :
    Shifted A δ (s.insert a x) (t.insert a y) := by
  intro b hb
  by_cases hba : b = a
  · subst hba
    rw [lookup_insert, lookup_insert, hxy hb]
    rfl
  · rw [lookup_insert_of_ne _ hba, lookup_insert_of_ne _ hba, h b hb]

/-- Writing outside of the keys that are compared. -/
theorem Shifted.insert_right (h : Shifted A δ s t) (ha : a ∉ A) (x : ν) :
    Shifted A δ s (t.insert a x) := by
  intro b hb
  rw [lookup_insert_of_ne _ (ne_of_mem_of_not_mem hb ha), h b hb]

/-- Raising the value at one key. -/
theorem Shifted.insert_raised (h : Shifted A δ s t) (hδ : δ a = 0) {x : ν}
    (hx : s.lookup a = some x) (d : α) :
    Shifted A (Function.update δ a d) s (t.insert a (d +ᵥ x)) := by
  intro b hb
  by_cases hba : b = a
  · subst hba
    rw [lookup_insert, hx, Function.update_self]
    rfl
  · rw [lookup_insert_of_ne _ hba, Function.update_of_ne hba, h b hb]

end Shifted

section Local

variable (Z G : Set κ) (Room : (Finmap fun _ : κ => ν) → Prop)

/-- What a local step does on two states that agree up to a shift of the shared keys: the same on
its own keys, and it adds the same amounts `η` to the shared ones. -/
structure Matches (δ η : κ → α) (s t s' t' : Finmap fun _ : κ => ν) : Prop where
  shared : ∀ a ∉ G, η a = 0
  after : Shifted (Z ∪ G) δ s' t'
  left : Shifted Zᶜ η s s'
  right : Shifted Zᶜ η t t'

/-- The step reads and writes the keys of `Z` only, apart from the keys of `G`, to which it adds,
and it can add where there is room. -/
def Local (α : Type*) [AddCommGroup α] [AddAction α ν]
    (f : (Finmap fun _ : κ => ν) → Except ε (Finmap fun _ : κ => ν)) : Prop :=
  ∀ (δ : κ → α) s t s', (∀ a ∈ Z, δ a = 0) → Shifted (Z ∪ G) δ s t → Room t → f s = .ok s' →
    ∃ t' η, f t = .ok t' ∧ Matches Z G δ η s t s' t'

variable {Z G Room} {δ η η' : κ → α} {s t s' t' s'' t'' : Finmap fun _ : κ => ν}

theorem Matches.refl (h : Shifted (Z ∪ G) δ s t) : Matches Z G δ 0 s t s t :=
  ⟨fun _ _ => rfl, h, .refl _ s, .refl _ t⟩

theorem Matches.trans (h : Matches Z G δ η s t s' t') (h' : Matches Z G δ η' s' t' s'' t'') :
    Matches Z G δ (η' + η) s t s'' t'' where
  shared a ha := by simp [h.shared a ha, h'.shared a ha]
  after := h'.after
  left := h.left.trans h'.left
  right := h.right.trans h'.right

/-- Both sides write the same value at a key of their own. -/
theorem Matches.insert_own (h : Matches Z G δ η s t s' t') {a : κ} (ha : a ∈ Z) (hδ : δ a = 0)
    (x : ν) : Matches Z G δ η s t (s'.insert a x) (t'.insert a x) where
  shared := h.shared
  after := h.after.insert fun _ => by rw [hδ, zero_vadd]
  left := h.left.insert_right (Set.notMem_compl_iff.2 ha) x
  right := h.right.insert_right (Set.notMem_compl_iff.2 ha) x

/-- Both sides add the same amount at a shared key. -/
theorem Matches.insert_shared (h : Matches Z G δ η s t s' t') {a : κ} (ha : a ∈ G) (hη : η a = 0)
    {x : ν} (hs : s.lookup a = some x) (ht : t.lookup a = some (δ a +ᵥ x)) (d : α) :
    Matches Z G δ (Function.update η a d) s t (s'.insert a (d +ᵥ x))
      (t'.insert a (d +ᵥ (δ a +ᵥ x))) where
  shared b hb := by
    rw [Function.update_of_ne (ne_of_mem_of_not_mem ha hb).symm, h.shared b hb]
  after := h.after.insert fun _ => vadd_comm d (δ a) x
  left := h.left.insert_raised hη hs d
  right := h.right.insert_raised hη ht d

variable {step : (Finmap fun _ : κ => ν) → ι → Except ε (Finmap fun _ : κ => ν)}

/-- A batch of local steps is local, if there is room wherever it passes. -/
theorem exec_matches (hδ : ∀ a ∈ Z, δ a = 0) : ∀ {b : List ι} {s t s'},
    (∀ i ∈ b, Local Z G Room α (step · i)) → Shifted (Z ∪ G) δ s t →
      (∀ e ∈ visits step t b, Room e.1) → exec step s b = .ok s' →
        ∃ t' η, exec step t b = .ok t' ∧ Matches Z G δ η s t s' t'
  | [], s, t, s', _, hst, _, h => by
    cases h
    exact ⟨t, 0, rfl, .refl hst⟩
  | i :: is, s, t, s', hl, hst, hroom, h => by
    obtain ⟨s₁, hi, his⟩ := exec_cons_ok.1 h
    obtain ⟨t₁, η, hti, hm⟩ := hl i List.mem_cons_self δ s t s₁ hδ hst
      (hroom (t, i) List.mem_cons_self) hi
    have hvisits : visits step t (i :: is) = (t, i) :: visits step t₁ is := by
      simp only [visits, hti]
    rw [hvisits] at hroom
    obtain ⟨t', η', ht', hm'⟩ := exec_matches hδ (fun j hj => hl j (List.mem_cons_of_mem _ hj))
      hm.after (fun e he => hroom e (List.mem_cons_of_mem _ he)) his
    exact ⟨t', η' + η, exec_cons_ok.2 ⟨t₁, hti, ht'⟩, hm.trans hm'⟩

end Local

section Independent

variable (step : (Finmap fun _ : κ => ν) → ι → Except ε (Finmap fun _ : κ => ν))
  (α) (G Z₁ Z₂ : Set κ) (Room : (Finmap fun _ : κ => ν) → Prop)

/-- Two batches local to disjoint sets of keys, none of them shared. -/
structure Independent (b₁ b₂ : List ι) : Prop where
  left : ∀ i ∈ b₁, Local Z₁ G Room α (step · i)
  right : ∀ i ∈ b₂, Local Z₂ G Room α (step · i)
  disjoint : Disjoint Z₁ Z₂
  own_left : Disjoint Z₁ G
  own_right : Disjoint Z₂ G

variable {step α G Z₁ Z₂ Room} {b₁ b₂ : List ι} {s : Finmap fun _ : κ => ν}

theorem Independent.symm (h : Independent α step G Z₁ Z₂ Room b₁ b₂) :
    Independent α step G Z₂ Z₁ Room b₂ b₁ :=
  ⟨h.right, h.left, h.disjoint.symm, h.own_right, h.own_left⟩

/-- The second batch leaves the first one's keys as they are and raises the shared ones. -/
theorem Independent.shifted (h : Independent α step G Z₁ Z₂ Room b₁ b₂)
    (hroom : ∀ e ∈ visits step s b₂, Room e.1) :
    ∃ η : κ → α, (∀ a ∈ Z₁, η a = 0) ∧ Shifted (Z₁ ∪ G) η s (commit step s b₂)
      ∧ Shifted Z₂ᶜ η s (commit step s b₂) := by
  rcases hs : exec step s b₂ with e | s₂
  · rw [commit_of_error hs]
    exact ⟨0, fun _ _ => rfl, .refl _ s, .refl _ s⟩
  · obtain ⟨_, η, -, hm⟩ := exec_matches (fun _ _ => rfl) h.right (.refl _ s) hroom hs
    rw [commit_of_ok hs]
    have hsub : Z₁ ∪ G ⊆ Z₂ᶜ := by
      rintro a (ha | ha) hb
      · exact Set.disjoint_left.1 h.disjoint ha hb
      · exact Set.disjoint_left.1 h.own_right hb ha
    exact ⟨η, fun a ha => hm.shared a (Set.disjoint_left.1 h.own_left ha), hm.left.mono hsub,
      hm.left⟩

/-- The first batch succeeds after the second exactly if it does without it. -/
theorem Independent.exec_commit_iff (h : Independent α step G Z₁ Z₂ Room b₁ b₂)
    (hroom : ∀ e ∈ visits step s b₂, Room e.1) (hroom₁ : ∀ e ∈ visits step s b₁, Room e.1)
    (hroom₂ : ∀ e ∈ visits step (commit step s b₂) b₁, Room e.1) :
    (∃ t, exec step (commit step s b₂) b₁ = .ok t) ↔ ∃ t, exec step s b₁ = .ok t := by
  obtain ⟨η, hη, hs, -⟩ := h.shifted hroom
  constructor
  · rintro ⟨t, ht⟩
    obtain ⟨t', -, ht', -⟩ := exec_matches (fun a ha => by simp [hη a ha]) h.left hs.symm hroom₁ ht
    exact ⟨t', ht'⟩
  · rintro ⟨t, ht⟩
    obtain ⟨t', -, ht', -⟩ := exec_matches hη h.left hs hroom₂ ht
    exact ⟨t', ht'⟩

/-- Where the first batch commits, it leaves its own keys as it would without the second, and
adds the same amounts to the others. -/
theorem Independent.commit_shifted (h : Independent α step G Z₁ Z₂ Room b₁ b₂)
    (hroom : ∀ e ∈ visits step s b₂, Room e.1) (hroom₁ : ∀ e ∈ visits step s b₁, Room e.1)
    (hroom₂ : ∀ e ∈ visits step (commit step s b₂) b₁, Room e.1) :
    ∃ η : κ → α, (∀ a ∉ G, η a = 0)
      ∧ (∀ a ∈ Z₁, (commit step (commit step s b₂) b₁).lookup a = (commit step s b₁).lookup a)
      ∧ Shifted Z₁ᶜ η s (commit step s b₁)
      ∧ Shifted Z₁ᶜ η (commit step s b₂) (commit step (commit step s b₂) b₁) := by
  obtain ⟨δ, hδ, hs, -⟩ := h.shifted hroom
  rcases ht : exec step s b₁ with e | t
  · have hfail : ¬ ∃ t, exec step (commit step s b₂) b₁ = .ok t := by
      rw [h.exec_commit_iff hroom hroom₁ hroom₂, ht]
      simp
    rcases ht' : exec step (commit step s b₂) b₁ with e' | t'
    · rw [commit_of_error ht, commit_of_error ht']
      exact ⟨0, fun _ _ => rfl, fun a ha => hs.lookup_eq (.inl ha) (hδ a ha), .refl _ _,
        .refl _ _⟩
    · exact absurd ⟨t', ht'⟩ hfail
  · obtain ⟨t', η, ht', hm⟩ := exec_matches hδ h.left hs hroom₂ ht
    rw [commit_of_ok ht, commit_of_ok ht']
    exact ⟨η, hm.shared, fun a ha => hm.after.lookup_eq (.inl ha) (hδ a ha), hm.left, hm.right⟩

/-- The two batches lead to the same state in either order. -/
theorem Independent.commit_comm (h : Independent α step G Z₁ Z₂ Room b₁ b₂)
    (hroom₁ : ∀ e ∈ visits step s b₁, Room e.1) (hroom₂ : ∀ e ∈ visits step s b₂, Room e.1)
    (hroom₂₁ : ∀ e ∈ visits step (commit step s b₂) b₁, Room e.1)
    (hroom₁₂ : ∀ e ∈ visits step (commit step s b₁) b₂, Room e.1) :
    commit step (commit step s b₁) b₂ = commit step (commit step s b₂) b₁ := by
  obtain ⟨η₁, hη₁, hown₁, hs₁, hc₁⟩ := h.commit_shifted hroom₂ hroom₁ hroom₂₁
  obtain ⟨η₂, hη₂, hown₂, hs₂, hc₂⟩ := h.symm.commit_shifted hroom₁ hroom₂ hroom₁₂
  refine ext_lookup fun a => ?_
  by_cases h₁ : a ∈ Z₁
  · have h₂ : a ∈ Z₂ᶜ := Set.disjoint_left.1 h.disjoint h₁
    rw [hown₁ a h₁, hc₂.lookup_eq h₂ (hη₂ a (Set.disjoint_left.1 h.own_left h₁))]
  · by_cases h₂ : a ∈ Z₂
    · rw [hown₂ a h₂, hc₁.lookup_eq h₁ (hη₁ a (Set.disjoint_left.1 h.own_right h₂))]
    · -- A key of neither batch holds the sum of what both add.
      have hleft := (hs₁.mono Set.inter_subset_left).trans (hc₂.mono Set.inter_subset_right)
      have hright := (hs₂.mono Set.inter_subset_right).trans (hc₁.mono Set.inter_subset_left)
      rw [hleft a ⟨h₁, h₂⟩, hright a ⟨h₁, h₂⟩, add_comm η₁]

end Independent

end Batch

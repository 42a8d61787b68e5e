import Mathlib.Data.List.Basic
import Mathlib.Tactic.Common
/-!
# Batches of fallible steps

A batch commits all of its steps or none of them, and a run commits batch after batch. The
journal of a run is the steps it committed, each with the state it was taken from; they form a
path (`path_run`), so what one step preserves, a whole run does (`Path.invariant`).
-/

namespace Batch

universe u

variable {σ ι ε : Type*}

theorem bind_eq_ok {α β : Type u} {x : Except ε α} {f : α → Except ε β} {b : β} :
    (x >>= f) = .ok b ↔ ∃ a, x = .ok a ∧ f a = .ok b := by
  cases x <;> simp [bind, Except.bind]

theorem bind_eq_error {α β : Type u} {x : Except ε α} {f : α → Except ε β} {e : ε} :
    (x >>= f) = .error e ↔ x = .error e ∨ ∃ a, x = .ok a ∧ f a = .error e := by
  cases x <;> simp [bind, Except.bind]

theorem ok_bind {α β : Type u} {a : α} {f : α → Except ε β} : (.ok a >>= f) = f a := rfl

theorem pure_eq_ok {α : Type u} {a b : α} : (pure a : Except ε α) = .ok b ↔ a = b := by
  simp [pure, Except.pure]

variable (step : σ → ι → Except ε σ)

/-- The steps in order, up to the first that fails. -/
def exec : σ → List ι → Except ε σ
  | s, [] => .ok s
  | s, i :: is => step s i >>= fun s' => exec s' is

/-- The steps taken, each with the state it is taken from. -/
def visits : σ → List ι → List (σ × ι)
  | _, [] => []
  | s, i :: is => (s, i) :: match step s i with
    | .ok s' => visits s' is
    | .error _ => []

/-- The state a batch leaves: its own if every step succeeds, else the one it started from. -/
def commit (s : σ) (b : List ι) : σ :=
  match exec step s b with
  | .ok s' => s'
  | .error _ => s

/-- The steps a batch commits. -/
def committed (s : σ) (b : List ι) : List (σ × ι) :=
  match exec step s b with
  | .ok _ => visits step s b
  | .error _ => []

def run : σ → List (List ι) → σ
  | s, [] => s
  | s, b :: bs => run (commit step s b) bs

def journal : σ → List (List ι) → List (σ × ι)
  | _, [] => []
  | s, b :: bs => committed step s b ++ journal (commit step s b) bs

/-- Successful steps one after the other, from `s₀`. -/
inductive Path (s₀ : σ) : List (σ × ι) → σ → Prop
  | nil : Path s₀ [] s₀
  | snoc {js : List (σ × ι)} {s s' : σ} {i : ι} :
      Path s₀ js s → step s i = .ok s' → Path s₀ (js ++ [(s, i)]) s'

variable {step}

theorem exec_cons_ok {s s' : σ} {i : ι} {is : List ι} :
    exec step s (i :: is) = .ok s' ↔ ∃ t, step s i = .ok t ∧ exec step t is = .ok s' := by
  simp only [exec, bind_eq_ok]

/-- A batch that is evaluated to a state with a property. -/
theorem exists_exec {s : σ} {b : List ι} {P : σ → Prop} [DecidablePred P]
    (h : (exec step s b).toOption.any (P ·) = true) : ∃ s', exec step s b = .ok s' ∧ P s' := by
  rcases hs : exec step s b with e | s'
  · simp [hs, Except.toOption] at h
  · exact ⟨s', rfl, by simpa [hs, Except.toOption] using h⟩

theorem commit_of_ok {s s' : σ} {b : List ι} (h : exec step s b = .ok s') :
    commit step s b = s' := by
  simp only [commit, h]

theorem exec_eq_commit {s : σ} {b : List ι} (h : (exec step s b).isOk = true) :
    exec step s b = .ok (commit step s b) := by
  rcases hs : exec step s b with e | s'
  · rw [hs] at h
    cases h
  · rw [commit_of_ok hs]

theorem exists_error {s : σ} {b : List ι} (h : (exec step s b).isOk = false) :
    ∃ e, exec step s b = .error e := by
  rcases hs : exec step s b with e | s'
  · exact ⟨e, rfl⟩
  · rw [hs] at h
    cases h

theorem commit_of_error {s : σ} {b : List ι} {e : ε} (h : exec step s b = .error e) :
    commit step s b = s := by
  simp only [commit, h]

/-- The steps a successful batch visits extend a path. -/
theorem path_exec {s₀ : σ} : ∀ (b : List ι) {js : List (σ × ι)} {s s' : σ}, Path step s₀ js s →
    exec step s b = .ok s' → Path step s₀ (js ++ visits step s b) s'
  | [], js, s, s', hp, h => by
    simp only [exec, Except.ok.injEq] at h
    simpa [visits, ← h] using hp
  | i :: is, js, s, s', hp, h => by
    obtain ⟨t, hi, ht⟩ := exec_cons_ok.1 h
    have := path_exec is (hp.snoc hi) ht
    simpa [visits, hi] using this

theorem path_commit {s₀ s : σ} {js : List (σ × ι)} (b : List ι) (hp : Path step s₀ js s) :
    Path step s₀ (js ++ committed step s b) (commit step s b) := by
  rcases h : exec step s b with e | s'
  · simpa [committed, commit, h] using hp
  · simpa [committed, commit, h] using path_exec b hp h

theorem path_run_from {s₀ : σ} : ∀ (bs : List (List ι)) {js : List (σ × ι)} {s : σ},
    Path step s₀ js s → Path step s₀ (js ++ journal step s bs) (run step s bs)
  | [], js, s, hp => by simpa [journal, run] using hp
  | b :: bs, js, s, hp => by
    have := path_run_from bs (path_commit b hp)
    simpa [journal, run] using this

/-- A run follows the path its journal records. -/
theorem path_run (s₀ : σ) (bs : List (List ι)) :
    Path step s₀ (journal step s₀ bs) (run step s₀ bs) := by
  have h : Path step s₀ [] s₀ := .nil
  simpa using path_run_from bs h

/-- What holds at the start and is kept by every step, the steps so far remembered, holds along
the path. -/
theorem Path.invariant {s₀ : σ} (P : List (σ × ι) → σ → Prop) (h₀ : P [] s₀)
    (hstep : ∀ js s i s', P js s → step s i = .ok s' → P (js ++ [(s, i)]) s')
    {js : List (σ × ι)} {s : σ} (hp : Path step s₀ js s) : P js s := by
  induction hp with
  | nil => exact h₀
  | snoc _ hi ih => exact hstep _ _ _ _ ih hi

/-- A step of the path is taken from where the steps before it lead, and succeeds. -/
theorem Path.at_step {s₀ : σ} {js : List (σ × ι)} {s : σ} (hp : Path step s₀ js s) :
    ∀ {pre post : List (σ × ι)} {t : σ} {i : ι}, js = pre ++ (t, i) :: post →
      Path step s₀ pre t ∧ ∃ t', step t i = .ok t' ∧ Path step s₀ (pre ++ [(t, i)]) t' := by
  induction hp with
  | nil => intro pre post t i h; simp at h
  | @snoc js s s' j hp hj ih =>
    intro pre post t i h
    rcases List.eq_nil_or_concat post with rfl | ⟨post', x, rfl⟩
    · obtain ⟨rfl, hx⟩ := List.append_inj' h rfl
      simp only [List.cons.injEq, Prod.mk.injEq, and_true] at hx
      obtain ⟨rfl, rfl⟩ := hx
      exact ⟨hp, s', hj, hp.snoc hj⟩
    · rw [List.concat_eq_append, ← List.cons_append, ← List.append_assoc] at h
      exact ih (List.append_inj' h rfl).1

/-- The path between two of its states. -/
theorem Path.suffix {s₀ : σ} {js : List (σ × ι)} {s : σ} (hp : Path step s₀ js s) :
    ∀ {pre post : List (σ × ι)} {t t' : σ} {i : ι}, js = pre ++ (t, i) :: post →
      step t i = .ok t' → Path step t' post s := by
  induction hp with
  | nil => intro pre post t t' i h; simp at h
  | @snoc js s s' j hp hj ih =>
    intro pre post t t' i h ht
    rcases List.eq_nil_or_concat post with rfl | ⟨post', x, rfl⟩
    · obtain ⟨rfl, hx⟩ := List.append_inj' h rfl
      simp only [List.cons.injEq, Prod.mk.injEq, and_true] at hx
      obtain ⟨rfl, rfl⟩ := hx
      rw [hj, Except.ok.injEq] at ht
      exact ht ▸ Path.nil
    · rw [List.concat_eq_append, ← List.cons_append, ← List.append_assoc] at h
      obtain ⟨h1, hx⟩ := List.append_inj' h rfl
      simp only [List.cons.injEq, and_true] at hx
      rw [List.concat_eq_append, ← hx]
      exact (ih h1 ht).snoc hj

theorem Path.trans {s₀ t s : σ} {js ks : List (σ × ι)} (h₁ : Path step s₀ js t)
    (h₂ : Path step t ks s) : Path step s₀ (js ++ ks) s := by
  induction h₂ with
  | nil => simpa using h₁
  | snoc _ hi ih => rw [← List.append_assoc]; exact ih.snoc hi

/-- What holds at the end of a path and not at its start, some step of the path brings about. -/
theorem Path.exists_cause {s₀ : σ} {js : List (σ × ι)} {s : σ} (hp : Path step s₀ js s)
    (Q : σ → Prop) (h₀ : ¬ Q s₀) (hs : Q s) :
    ∃ pre t i post t', js = pre ++ (t, i) :: post ∧ Path step s₀ pre t ∧ step t i = .ok t'
      ∧ ¬ Q t ∧ Q t' ∧ Path step t' post s := by
  induction hp with
  | nil => exact absurd hs h₀
  | @snoc js s s' i hp hi ih =>
    by_cases hQ : Q s
    · obtain ⟨pre, t, j, post, t', rfl, hpre, hj, ht, ht', hpost⟩ := ih hQ
      refine ⟨pre, t, j, post ++ [(s, i)], t', ?_, hpre, hj, ht, ht', hpost.snoc hi⟩
      simp
    · exact ⟨js, s, i, [], s', rfl, hp, hi, hQ, hs, .nil⟩

theorem run_append (s : σ) (bs bs' : List (List ι)) :
    run step s (bs ++ bs') = run step (run step s bs) bs' := by
  induction bs generalizing s with
  | nil => rfl
  | cons b bs ih => simp only [List.cons_append, run, ih]

theorem journal_append (s : σ) (bs bs' : List (List ι)) :
    journal step s (bs ++ bs') = journal step s bs ++ journal step (run step s bs) bs' := by
  induction bs generalizing s with
  | nil => rfl
  | cons b bs ih => simp only [List.cons_append, journal, run, ih, List.append_assoc]

/-- Every path is the journal of a run, that of its steps in batches of one. -/
theorem Path.exists_run {s₀ : σ} {js : List (σ × ι)} {s : σ} (hp : Path step s₀ js s) :
    ∃ bs, run step s₀ bs = s ∧ journal step s₀ bs = js := by
  induction hp with
  | nil => exact ⟨[], rfl, rfl⟩
  | @snoc js s s' i _ hi ih =>
    obtain ⟨bs, hs, hj⟩ := ih
    refine ⟨bs ++ [[i]], ?_, ?_⟩
    · simp [run_append, run, hs, commit, exec, hi, bind, Except.bind]
    · simp [journal_append, journal, hs, hj, committed, exec, visits, hi, bind, Except.bind]

end Batch

import Oblivia.Lib.Async
/-!
# Exclusive operations

A discipline for operations that have a part of the state to themselves, their memory. One
operation waits at most; while it waits it holds a lock and the others leave the memory alone, and
in between the memory is at rest. Every function that is shown to keep to the discipline section by
section may rely on it, in every run (`Discipline.Sound.runs`). An operation may also let go of the
lock and wait for its turn only, where no event comes before it goes on (`Crowd.PromptRuns`).
-/

open Dialogue

namespace Async

variable {Q : Type} {A : Q → Type} {σ ε α β : Type}

section Relies

variable (rely : Q × σ → σ → Prop) (step : Turn Q A → σ → Option Q → σ → Prop)

/-- A function that waits, or has come to its end. -/
def Abides : Dialogue (Q × σ) (fun q => A q.1 × σ) (β × σ) → Prop
  | done _ => True
  | ask q next => ∀ r : A q.1 × σ, rely q r.2 →
    Relying rely step (fun o _ s => step o.1 o.2 none s) (⟨q.1, r.1⟩, r.2) (next r)

variable {rely step}

theorem Relying.abides {o : Turn Q A × σ} :
    ∀ {d : Dialogue (Q × σ) (fun q => A q.1 × σ) (β × σ)},
      Relying rely step (fun o _ s => step o.1 o.2 none s) o d →
      step o.1 o.2 (waits d) (left d) ∧ Abides rely step d
  | done _, h => ⟨h, trivial⟩
  | ask _ _, h => h

end Relies

namespace Crowd

variable {ι : Type}

/-- The request a function waits for and the state it has left. -/
def asks (c : Crowd ι Q A σ β) (i : ι) : Option (Q × σ) :=
  match c.tasks i with
  | done _ => none
  | ask q _ => some q

theorem waits_eq_map_asks (c : Crowd ι Q A σ β) (i : ι) :
    c.waits i = (c.asks i).map Prod.fst := by
  unfold Crowd.waits Crowd.asks
  cases c.tasks i <;> rfl

variable [DecidableEq ι]

/-- Functions get answers in any order, except that no event comes while a function waits for its
turn: what waits for a turn goes on before the next event. -/
abbrev PromptRuns (event : Q) (turn : Q → Bool) : Crowd ι Q A σ β → Crowd ι Q A σ β → Prop :=
  Relation.ReflTransGen fun c c' => ∃ i e, Step c i e c'
    ∧ (e.1 = event → ∀ j q, c.waits j = some q → turn q = false)

variable {c c' : Crowd ι Q A σ β} {i : ι} {e : Turn Q A}

/-- Where nothing waits for a turn, every run is of this kind. -/
theorem Runs.prompt {event : Q} (h : Runs c c') : PromptRuns event (fun _ => false) c c' := by
  refine Relation.ReflTransGen.mono ?_ _ _ h
  rintro _ _ ⟨i, e, hstep⟩
  exact ⟨i, e, hstep, fun _ _ _ _ => rfl⟩

/-- So is a run in which no event comes. -/
theorem promptRuns_of_play [DecidableEq Q] {event : Q} {turn : Q → Bool} :
    ∀ {l : List (ι × Turn Q A)} {c c' : Crowd ι Q A σ β}, (∀ x ∈ l, x.2.1 ≠ event) →
      c.play l = some c' → PromptRuns event turn c c'
  | [], c, c', _, h => by
    cases h
    exact .refl
  | (i, ⟨q, r⟩) :: l, c, c', hl, h => by
    obtain ⟨hq, hrest⟩ := List.forall_mem_cons.1 hl
    unfold play at h
    split at h
    · cases h
    · rename_i q' next hi
      split_ifs at h with heq
      subst heq
      exact .head ⟨i, _, .resume r hi, fun hevent => absurd hevent hq⟩
        (promptRuns_of_play hrest h)

theorem Step.asks (h : Step c i e c') : (∃ s, c.asks i = some (e.1, s))
    ∧ (∀ q, c'.asks i = some q → q.2 = c'.state)
    ∧ c'.asks = Function.update c.asks i (c'.asks i) := by
  cases h with
  | @resume q next r hi =>
    refine ⟨⟨q.2, by rw [Crowd.asks, hi]⟩, ?_, funext fun j => ?_⟩
    · simp only [Crowd.asks, Function.update_self]
      cases next (r, c.state) with
      | done b => nofun
      | ask q' next' => rintro _ ⟨⟩; rfl
    · by_cases hj : j = i
      · subst hj
        rw [Function.update_self]
      · simp only [Crowd.asks, Function.update_of_ne hj]

/-- A step is a section of the function. -/
theorem Step.abides {rely : Q × σ → σ → Prop} {step : Turn Q A → σ → Option Q → σ → Prop}
    (h : Step c i e c') (hi : Abides rely step (c.tasks i))
    (hrely : ∀ q, c.asks i = some q → rely q c.state) :
    step e c.state (c'.waits i) c'.state ∧ Abides rely step (c'.tasks i) := by
  cases h with
  | @resume q next r hask =>
    rw [hask] at hi
    obtain ⟨hstep, habides⟩ := (hi (r, c.state) (hrely q (by rw [Crowd.asks, hask]))).abides
    simp only [Crowd.waits, Function.update_self]
    exact ⟨hstep, habides⟩

end Crowd

/-- Operations that have a part of the state to themselves, their memory. An event begins one
unless the lock is held; while it waits for a pending request it holds the lock, or waits for its
turn, and the memory is as `during` says; between operations the memory is at rest. Besides, every
section does what `does` says. -/
structure Discipline (ι Q : Type) (A : Q → Type) (σ μ : Type) where
  event : Q
  pending : Q → Bool
  turn : Q → Bool
  lock : σ → Prop
  memory : σ → μ
  rest : μ → Prop
  during : ι → Q → μ → Prop
  does : ι → Turn Q A → σ → σ → Prop

namespace Discipline

variable {ι μ : Type} (D : Discipline ι Q A σ μ)

/-- The section is one of an operation. -/
def Mine (e : Turn Q A) (s : σ) : Prop := D.pending e.1 = true ∨ e.1 = D.event ∧ ¬D.lock s

/-- What a function finds when it goes on. -/
structure Finds (q : Q × σ) (s : σ) : Prop where
  memory : D.pending q.1 = true → D.memory s = D.memory q.2
  locked : D.pending q.1 = true → D.turn q.1 = false → D.lock s
  rest : q.1 = D.event → ¬D.lock s → D.rest (D.memory s)

/-- What a section does, up to what its function waits for next. -/
structure Does (i : ι) (e : Turn Q A) (s : σ) (q : Option Q) (s' : σ) : Prop where
  waits : ∀ q', q = some q' → D.pending q' = true → D.Mine e s ∧ D.during i q' (D.memory s')
    ∧ (D.turn q' = false → D.lock s')
  rest : D.Mine e s → (∀ q', q = some q' → D.pending q' = false) → D.rest (D.memory s')
  frame : ¬D.Mine e s → D.memory s' = D.memory s ∧ (D.lock s → D.lock s')
  does : D.does i e s s'

/-- At most one operation waits, with the memory as it left it; else the memory is at rest. -/
structure Exclusive (w : ι → Option (Q × σ)) (s : σ) : Prop where
  one : ∀ i j q q', w i = some q → D.pending q.1 = true → w j = some q' →
    D.pending q'.1 = true → i = j
  held : ∀ i q, w i = some q → D.pending q.1 = true → D.memory s = D.memory q.2
    ∧ D.during i q.1 (D.memory s) ∧ (D.turn q.1 = false → D.lock s)
  rest : (∀ i q, w i = some q → D.pending q.1 = false) → D.rest (D.memory s)

variable {D} {w : ι → Option (Q × σ)} {s s' : σ} {i j : ι} {q q' : Q × σ} {e : Turn Q A}

/-- While an operation waits, what else goes on is not of one. -/
theorem Exclusive.not_mine (h : D.Exclusive w s) (hi : w i = some (e.1, s')) (hne : j ≠ i)
    (hj : w j = some q) (hpending : D.pending q.1 = true)
    (hprompt : e.1 = D.event → ∀ j q, w j = some q → D.turn q.1 = false) : ¬D.Mine e s := by
  rintro (hmine | ⟨hevent, hfree⟩)
  · exact hne (h.one j i q _ hj hpending hi hmine)
  · exact hfree ((h.held j q hj hpending).2.2 (hprompt hevent j q hj))

theorem Exclusive.finds (h : D.Exclusive w s) (hi : w i = some q)
    (hprompt : q.1 = D.event → ∀ j q, w j = some q → D.turn q.1 = false) : D.Finds q s := by
  refine ⟨fun hpending => (h.held i q hi hpending).1,
    fun hpending => (h.held i q hi hpending).2.2, fun hevent hfree => h.rest fun j q' hj => ?_⟩
  by_contra hpending
  exact hfree ((h.held j q' hj (by simpa using hpending)).2.2 (hprompt hevent j q' hj))

variable [DecidableEq ι]

theorem Exclusive.kept {q' : Option (Q × σ)} {l : σ} (h : D.Exclusive w s)
    (hi : w i = some (e.1, l))
    (hprompt : e.1 = D.event → ∀ j q, w j = some q → D.turn q.1 = false)
    (hstep : D.Does i e s (q'.map Prod.fst) s') (hleft : ∀ q, q' = some q → q.2 = s') :
    D.Exclusive (Function.update w i q') s' := by
  have hother {j : ι} {q : Q × σ} (hne : j ≠ i) (hj : Function.update w i q' j = some q)
      (hpending : D.pending q.1 = true) : w j = some q ∧ ¬D.Mine e s := by
    rw [Function.update_of_ne hne] at hj
    exact ⟨hj, h.not_mine hi hne hj hpending hprompt⟩
  have hself {q : Q × σ} (hq : Function.update w i q' i = some q)
      (hpending : D.pending q.1 = true) : D.Mine e s ∧ D.during i q.1 (D.memory s')
        ∧ (D.turn q.1 = false → D.lock s') := by
    rw [Function.update_self] at hq
    exact hstep.waits q.1 (by rw [hq]; rfl) hpending
  refine ⟨fun j k q q'' hj hq hk hq'' => ?_, fun j q hj hq => ?_, fun hnone => ?_⟩
  · by_cases hji : j = i <;> by_cases hki : k = i
    · rw [hji, hki]
    · subst hji
      exact absurd (hself hj hq).1 (hother hki hk hq'').2
    · subst hki
      exact absurd (hself hk hq'').1 (hother hji hj hq).2
    · exact h.one j k q q'' (hother hji hj hq).1 hq (hother hki hk hq'').1 hq''
  · by_cases hji : j = i
    · subst hji
      obtain ⟨-, hduring, hlock⟩ := hself hj hq
      rw [Function.update_self] at hj
      exact ⟨by rw [hleft q hj], hduring, hlock⟩
    · obtain ⟨hj, hmine⟩ := hother hji hj hq
      obtain ⟨hmemory, hlock⟩ := hstep.frame hmine
      obtain ⟨hsame, hduring, hheld⟩ := h.held j q hj hq
      exact ⟨hmemory.trans hsame, hmemory ▸ hduring, fun hturn => hlock (hheld hturn)⟩
  · by_cases hmine : D.Mine e s
    · refine hstep.rest hmine fun q hq => ?_
      obtain ⟨q, hq', rfl⟩ := Option.map_eq_some_iff.1 hq
      exact hnone i q (by rw [Function.update_self, hq'])
    · rw [(hstep.frame hmine).1]
      refine h.rest fun j q hj => ?_
      by_cases hji : j = i
      · subst hji
        rw [hi, Option.some.injEq] at hj
        rw [← hj]
        exact Bool.eq_false_iff.2 fun hpending => hmine (.inl hpending)
      · exact hnone j q (by rw [Function.update_of_ne hji, hj])

section Crowd

variable {c c' : Crowd ι Q A σ β}

omit [DecidableEq ι] in
variable (D) in
/-- Every function keeps to the discipline, and one operation waits at most. -/
def Sound (c : Crowd ι Q A σ β) : Prop :=
  (∀ i, Abides D.Finds (D.Does i) (c.tasks i)) ∧ D.Exclusive c.asks c.state

theorem Sound.resume (hc : D.Sound c) (h : Crowd.Step c i e c')
    (hprompt : e.1 = D.event → ∀ j q, c.waits j = some q → D.turn q = false) :
    D.Does i e c.state (c'.waits i) c'.state ∧ D.Sound c' := by
  have hasks : e.1 = D.event → ∀ j q, c.asks j = some q → D.turn q.1 = false :=
    fun hevent j q hj => hprompt hevent j q.1 (by rw [c.waits_eq_map_asks, hj]; rfl)
  obtain ⟨⟨l, hi⟩, hleft, hupdate⟩ := h.asks
  obtain ⟨hstep, habides⟩ := h.abides (hc.1 i) fun q hq => hc.2.finds hq fun hevent => by
    rw [hi, Option.some.injEq] at hq
    subst hq
    exact hasks hevent
  refine ⟨hstep, fun j => ?_, ?_⟩
  · by_cases hj : j = i
    · exact hj ▸ habides
    · rw [h.tasks_of_ne hj]
      exact hc.1 j
  · rw [hupdate]
    exact hc.2.kept hi hasks (c'.waits_eq_map_asks i ▸ hstep) hleft

theorem Sound.runs (hc : D.Sound c) (h : Crowd.PromptRuns D.event D.turn c c') : D.Sound c' := by
  induction h with
  | refl => exact hc
  | tail _ hstep ih =>
    obtain ⟨i, e, hstep, hprompt⟩ := hstep
    exact (ih.resume hstep hprompt).2

omit [DecidableEq ι]

theorem sound_start {handlers : ι → Async Q A σ ε β} (hevent : D.pending D.event = false)
    (hrest : D.rest (D.memory s)) (h : ∀ i r s', D.Finds (D.event, s) s' →
      Relies D.Finds (D.Does i) (handlers i) (fun o _ s => D.Does i o.1 o.2 none s)
        (⟨D.event, r⟩, s') s') : D.Sound (Crowd.start s D.event handlers) := by
  have hasks {j : ι} {q : Q × σ} (hj : (Crowd.start s D.event handlers).asks j = some q) :
      D.pending q.1 = false := by
    obtain rfl : (D.event, s) = q := Option.some.inj hj
    exact hevent
  refine ⟨fun i r hr => h i r.1 r.2 hr, ⟨fun i j q q' hi hq => ?_, fun i q hi hq => ?_,
    fun _ => hrest⟩⟩
  · rw [hasks hi] at hq
    cases hq
  · rw [hasks hi] at hq
    cases hq

theorem Sound.rest (hc : D.Sound c) (h : ∀ i q, c.waits i = some q → D.pending q = false) :
    D.rest (D.memory c.state) :=
  hc.2.rest fun i q hi => h i q.1 (by rw [c.waits_eq_map_asks, hi]; rfl)

theorem Sound.during {q : Q} (hc : D.Sound c) (hi : c.waits i = some q)
    (hq : D.pending q = true) : D.during i q (D.memory c.state) := by
  rw [c.waits_eq_map_asks] at hi
  obtain ⟨q, hask, rfl⟩ := Option.map_eq_some_iff.1 hi
  exact (hc.2.held i q hask hq).2.1

/-- The memory is at rest, or as it is while an operation waits. -/
theorem Sound.cases (hc : D.Sound c) : D.rest (D.memory c.state)
    ∨ ∃ i q, c.waits i = some q ∧ D.pending q = true ∧ D.during i q (D.memory c.state) := by
  by_cases h : ∀ i q, c.waits i = some q → D.pending q = false
  · exact .inl (hc.rest h)
  · push Not at h
    obtain ⟨i, q, hi, hq⟩ := h
    have hpending : D.pending q = true := by simpa using hq
    exact .inr ⟨i, q, hi, hpending, hc.during hi hpending⟩

end Crowd

section Sections

omit [DecidableEq ι]

variable {o : Turn Q A × σ} {s : σ} {P : μ → Prop}

variable (D P) in
/-- A section of an operation that holds the lock, with `P` of the memory. -/
structure Within (o : Turn Q A × σ) (s : σ) : Prop where
  mine : D.Mine o.1 o.2
  locked : D.lock s
  memory : P (D.memory s)

theorem Within.mono {P' : μ → Prop} (h : D.Within P o s) (hP : ∀ m, P m → P' m) :
    D.Within P' o s := ⟨h.mine, h.locked, hP _ h.memory⟩

/-- A write of an operation. -/
theorem Within.write {P' : μ → Prop} {s' : σ} (h : D.Within P o s) (hlock : D.lock s → D.lock s')
    (hmemory : P (D.memory s) → P' (D.memory s')) : D.Within P' o s' :=
  ⟨h.mine, hlock h.locked, hmemory h.memory⟩

/-- A section of an operation that goes on to wait. -/
theorem does_waits {q : Q} (hmine : D.Mine o.1 o.2) (hpending : D.pending q = true)
    (hlock : D.turn q = false → D.lock s) (hduring : D.during i q (D.memory s))
    (hdoes : D.does i o.1 o.2 s) : D.Does i o.1 o.2 (some q) s := by
  refine ⟨fun q' hq hq' => ?_, fun _ hnone => ?_, fun h => absurd hmine h, hdoes⟩
  · obtain rfl := Option.some.inj hq
    exact ⟨hmine, hduring, hlock⟩
  · have hq := hnone q rfl
    rw [hpending] at hq
    cases hq

/-- An operation waits, and finds its memory as it left it. -/
theorem Within.receive_bind {q : Q} {f : A q → Async Q A σ ε α}
    {post : Turn Q A × σ → Except ε α → σ → Prop} (h : D.Within P o s)
    (hpending : D.pending q = true) (hturn : D.turn q = false)
    (hduring : D.during i q (D.memory s)) (hdoes : D.does i o.1 o.2 s)
    (hf : ∀ r s', D.Within P (⟨q, r⟩, s') s' →
      Relies D.Finds (D.Does i) (f r) post (⟨q, r⟩, s') s') :
    Relies D.Finds (D.Does i) (receive q >>= f) post o s := by
  refine ⟨does_waits h.mine hpending (fun _ => h.locked) hduring hdoes, fun r hr => ?_⟩
  refine hf r.1 r.2 ⟨.inl hpending, hr.locked hpending hturn, ?_⟩
  rw [hr.memory hpending]
  exact h.memory

/-- An operation waits for its turn, without the lock. -/
theorem relies_turn {q : Q} (hmine : D.Mine o.1 o.2) (hpending : D.pending q = true)
    (hturn : D.turn q = true) (hduring : D.during i q (D.memory s)) (hdoes : D.does i o.1 o.2 s)
    (hP : P (D.memory s)) : Relies D.Finds (D.Does i) (receive q : Async Q A σ ε (A q))
      (fun o _ s => D.Mine o.1 o.2 ∧ P (D.memory s)) o s := by
  refine relies_receive.2 ⟨does_waits hmine hpending ?_ hduring hdoes, fun r hr => ?_⟩
  · rw [hturn]
    nofun
  · rw [hr.memory hpending]
    exact ⟨.inl hpending, hP⟩

/-- The end of an operation. -/
theorem does_done (hmine : D.Mine o.1 o.2) (hrest : D.rest (D.memory s))
    (hdoes : D.does i o.1 o.2 s) : D.Does i o.1 o.2 none s :=
  ⟨nofun, fun _ _ => hrest, fun h => absurd hmine h, hdoes⟩

variable (D) in
/-- A section that leaves the memory alone. -/
structure Apart (o : Turn Q A × σ) (s : σ) : Prop where
  memory : D.memory s = D.memory o.2
  lock : D.lock o.2 → D.lock s
  rest : D.Mine o.1 o.2 → D.rest (D.memory s)

/-- A section that begins with an event. -/
theorem Finds.apart {q : Q × σ} {r : A q.1} (h : D.Finds q s) (hpending : D.pending q.1 = false) :
    D.Apart (⟨q.1, r⟩, s) s := by
  refine ⟨rfl, id, fun hmine => ?_⟩
  rcases hmine with hmine | ⟨hevent, hfree⟩
  · rw [hpending] at hmine
    cases hmine
  · exact h.rest hevent hfree

theorem Apart.write {s' : σ} (h : D.Apart o s) (hmemory : D.memory s' = D.memory s)
    (hlock : D.lock s → D.lock s') : D.Apart o s' :=
  ⟨hmemory.trans h.memory, fun hheld => hlock (h.lock hheld), fun hmine => hmemory ▸ h.rest hmine⟩

theorem Apart.does {q : Option Q} (h : D.Apart o s)
    (hq : ∀ q', q = some q' → D.pending q' = false) (hdoes : D.does i o.1 o.2 s) :
    D.Does i o.1 o.2 q s := by
  refine ⟨fun q' hq' hpending => ?_, fun hmine _ => h.rest hmine, fun _ => ⟨h.memory, h.lock⟩,
    hdoes⟩
  rw [hq q' hq'] at hpending
  cases hpending

end Sections

end Discipline

end Async

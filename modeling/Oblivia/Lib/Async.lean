import Oblivia.Lib.Dialogue
/-!
# Asynchronous functions on a shared state

Functions of one thread that read and change a state they share, throw and catch, and await
requests: while one of them waits the others run, between two awaits it runs alone. What such a
function does is a sequence of sections, each from an answer to the next request. `Relies` says
what all of its sections do, under a condition on how the state that is found compares with the
one that was left, with a rule for each construct; `Meets` is the case in which the state that was
left does not count. However many functions are started and however they are interleaved
(`Crowd`), every step is then a section (`Crowd.Step.spec`), so an invariant is proved section by
section (`Crowd.Sound.runs`). One of them is that of a lock (`Crowd.Locked.kept`), which may be one
that is given back (`Crowd.Returns.waiting`).
-/

open Dialogue

/-- An asynchronous function. A request carries the state that the function leaves, and its answer
the state in which the function goes on. -/
abbrev Async (Q : Type) (A : Q → Type) (σ ε α : Type) :=
  ExceptT ε (StateT σ (Dialogue (Q × σ) fun q => A q.1 × σ)) α

namespace Async

variable {Q : Type} {A : Q → Type} {σ ε α β : Type}

def receive (q : Q) : Async Q A σ ε (A q) :=
  ExceptT.mk fun s => ask (q, s) fun r => done (.ok r.1, r.2)

/-- A call that may throw; `e` is what is kept of its error. -/
def attempt {δ : Type} (e : ε) : Except δ α → Async Q A σ ε α
  | .ok a => pure a
  | .error _ => throw e

/-- `try … catch …`. -/
def catching {δ : Type} (x : Async Q A σ δ α) (f : δ → Async Q A σ ε α) : Async Q A σ ε α :=
  ExceptT.mk fun s => do
    let (r, s) ← x.run s
    match r with
    | .ok a => return (.ok a, s)
    | .error e => (f e).run s

/-- `try … finally …`. -/
def andFinally (x : Async Q A σ ε α) (cleanup : Async Q A σ ε Unit) : Async Q A σ ε α :=
  ExceptT.mk fun s => do
    let (r, s) ← x.run s
    let (c, s) ← cleanup.run s
    return (c.bind fun _ => r, s)

section Relies

variable (rely : Q × σ → σ → Prop) (step : Turn Q A → σ → Option Q → σ → Prop)

/-- Every section that goes on in a state on which the function may rely is one of `step`; the last
one, which began with `o`, meets `post`. -/
def Relying (post : Turn Q A × σ → β → σ → Prop) :
    Turn Q A × σ → Dialogue (Q × σ) (fun q => A q.1 × σ) (β × σ) → Prop
  | o, done b => post o b.1 b.2
  | o, ask q next => step o.1 o.2 (some q.1) q.2
    ∧ ∀ r : A q.1 × σ, rely q r.2 → Relying post (⟨q.1, r.1⟩, r.2) (next r)

/-- What the function does in state `s`, in a section that began with `o`. -/
def Relies (x : Async Q A σ ε α) (post : Turn Q A × σ → Except ε α → σ → Prop)
    (o : Turn Q A × σ) (s : σ) : Prop :=
  Relying rely step post o (x.run s)

variable {rely step} {o : Turn Q A × σ} {s : σ}

theorem relying_bind {γ : Type} {post : Turn Q A × σ → γ → σ → Prop}
    {f : β × σ → Dialogue (Q × σ) (fun q => A q.1 × σ) (γ × σ)} :
    ∀ {d : Dialogue (Q × σ) (fun q => A q.1 × σ) (β × σ)} {o : Turn Q A × σ},
      Relying rely step post o (d >>= f)
        ↔ Relying rely step (fun o b s => Relying rely step post o (f (b, s))) o d
  | done _, _ => Iff.rfl
  | ask _ _, _ => and_congr_right' <| forall_congr' fun _ => forall_congr' fun _ => relying_bind

theorem Relying.mono {post post' : Turn Q A × σ → β → σ → Prop}
    (h : ∀ o b s, post o b s → post' o b s) :
    ∀ {d : Dialogue (Q × σ) (fun q => A q.1 × σ) (β × σ)} {o : Turn Q A × σ},
      Relying rely step post o d → Relying rely step post' o d
  | done b, o, hd => h o b.1 b.2 hd
  | ask _ _, _, hd => ⟨hd.1, fun r hr => (hd.2 r hr).mono h⟩

variable {x : Async Q A σ ε α} {post post' : Turn Q A × σ → Except ε α → σ → Prop}

theorem Relies.mono (hx : Relies rely step x post o s) (h : ∀ o r s, post o r s → post' o r s) :
    Relies rely step x post' o s := Relying.mono h hx

theorem relies_receive {q : Q} {post : Turn Q A × σ → Except ε (A q) → σ → Prop} :
    Relies rely step (receive q) post o s ↔ step o.1 o.2 (some q) s
      ∧ ∀ r : A q × σ, rely (q, s) r.2 → post (⟨q, r.1⟩, r.2) (.ok r.1) r.2 := Iff.rfl

theorem relies_bind {f : α → Async Q A σ ε β} {post : Turn Q A × σ → Except ε β → σ → Prop} :
    Relies rely step (x >>= f) post o s ↔ Relies rely step x (fun o r s => match r with
      | .ok a => Relies rely step (f a) post o s
      | .error e => post o (.error e) s) o s := by
  refine relying_bind.trans ?_
  constructor <;> intro h <;> refine Relying.mono (fun o r s hr => ?_) h <;> cases r <;> exact hr

theorem relies_get_bind {f : σ → Async Q A σ ε β} {post : Turn Q A × σ → Except ε β → σ → Prop} :
    Relies rely step (get >>= f) post o s ↔ Relies rely step (f s) post o s := Iff.rfl

theorem relies_modify_bind {g : σ → σ} {f : Unit → Async Q A σ ε β}
    {post : Turn Q A × σ → Except ε β → σ → Prop} :
    Relies rely step (modify g >>= f) post o s ↔ Relies rely step (f ()) post o (g s) := Iff.rfl

theorem relies_set_bind {s' : σ} {f : PUnit → Async Q A σ ε β}
    {post : Turn Q A × σ → Except ε β → σ → Prop} :
    Relies rely step (set s' >>= f) post o s ↔ Relies rely step (f ⟨⟩) post o s' := Iff.rfl

theorem relies_attempt_bind {δ : Type} {e : ε} {y : Except δ α} {f : α → Async Q A σ ε β}
    {post : Turn Q A × σ → Except ε β → σ → Prop} :
    Relies rely step (attempt e y >>= f) post o s ↔ match y with
      | .ok a => Relies rely step (f a) post o s
      | .error _ => post o (.error e) s := by
  cases y <;> exact Iff.rfl

theorem relies_catching {δ : Type} {x : Async Q A σ δ α} {f : δ → Async Q A σ ε α} :
    Relies rely step (catching x f) post o s ↔ Relies rely step x (fun o r s => match r with
      | .ok a => post o (.ok a) s
      | .error e => Relies rely step (f e) post o s) o s := by
  refine relying_bind.trans ?_
  constructor <;> intro h <;> refine Relying.mono (fun o r s hr => ?_) h <;> cases r <;> exact hr

/-- The clean-up runs in the section the function ends in, however it ends. -/
theorem relies_andFinally {cleanup : Async Q A σ ε Unit} :
    Relies rely step (andFinally x cleanup) post o s ↔ Relies rely step x (fun o r s =>
      Relies rely step cleanup (fun o c s => post o (c.bind fun _ => r) s) o s) o s :=
  relying_bind.trans (by simp only [relying_bind]; rfl)

/-- The rule for what follows. -/
theorem Relies.andThen {f : α → Async Q A σ ε β} {mid : Turn Q A × σ → Except ε α → σ → Prop}
    {post : Turn Q A × σ → Except ε β → σ → Prop} (hx : Relies rely step x mid o s)
    (hf : ∀ a o s, mid o (.ok a) s → Relies rely step (f a) post o s)
    (he : ∀ e o s, mid o (.error e) s → post o (.error e) s) :
    Relies rely step (x >>= f) post o s := by
  refine relies_bind.2 (hx.mono fun o r s hr => ?_)
  cases r with
  | ok a => exact hf a o s hr
  | error e => exact he e o s hr

end Relies

section Meets

variable (pre : Q → σ → Prop) (step : Turn Q A → σ → Option Q → σ → Prop)

/-- Every section that follows the answer to a request, in a state that meets `pre`, is one of
`step`; the last one, which began with `o`, meets `post`. -/
def Sections (post : Turn Q A × σ → β → σ → Prop) :
    Turn Q A × σ → Dialogue (Q × σ) (fun q => A q.1 × σ) (β × σ) → Prop
  | o, done b => post o b.1 b.2
  | o, ask q next => step o.1 o.2 (some q.1) q.2
    ∧ ∀ r : A q.1 × σ, pre q.1 r.2 → Sections post (⟨q.1, r.1⟩, r.2) (next r)

/-- What the function does in state `s`, in a section that began with `o`. -/
def Meets (x : Async Q A σ ε α) (post : Turn Q A × σ → Except ε α → σ → Prop)
    (o : Turn Q A × σ) (s : σ) : Prop :=
  Sections pre step post o (x.run s)

variable {pre step} {o : Turn Q A × σ} {s : σ}

/-- A condition on the state that is found alone. -/
theorem relying_iff_sections {post : Turn Q A × σ → β → σ → Prop} :
    ∀ {d : Dialogue (Q × σ) (fun q => A q.1 × σ) (β × σ)} {o : Turn Q A × σ},
      Relying (fun q s => pre q.1 s) step post o d ↔ Sections pre step post o d
  | done _, _ => Iff.rfl
  | ask _ _, _ => and_congr_right' <| forall_congr' fun _ => forall_congr' fun _ =>
    relying_iff_sections

theorem sections_bind {γ : Type} {post : Turn Q A × σ → γ → σ → Prop}
    {f : β × σ → Dialogue (Q × σ) (fun q => A q.1 × σ) (γ × σ)}
    {d : Dialogue (Q × σ) (fun q => A q.1 × σ) (β × σ)} {o : Turn Q A × σ} :
      Sections pre step post o (d >>= f)
        ↔ Sections pre step (fun o b s => Sections pre step post o (f (b, s))) o d := by
  simp only [← relying_iff_sections]
  exact relying_bind

theorem Sections.mono {post post' : Turn Q A × σ → β → σ → Prop}
    (h : ∀ o b s, post o b s → post' o b s)
    {d : Dialogue (Q × σ) (fun q => A q.1 × σ) (β × σ)} {o : Turn Q A × σ}
    (hd : Sections pre step post o d) : Sections pre step post' o d :=
  relying_iff_sections.1 ((relying_iff_sections.2 hd).mono h)

variable {x : Async Q A σ ε α} {post post' : Turn Q A × σ → Except ε α → σ → Prop}

theorem Meets.mono (hx : Meets pre step x post o s) (h : ∀ o r s, post o r s → post' o r s) :
    Meets pre step x post' o s := Sections.mono h hx

@[simp]
theorem meets_receive {q : Q} {post : Turn Q A × σ → Except ε (A q) → σ → Prop} :
    Meets pre step (receive q) post o s ↔ step o.1 o.2 (some q) s
      ∧ ∀ r : A q × σ, pre q r.2 → post (⟨q, r.1⟩, r.2) (.ok r.1) r.2 := Iff.rfl

theorem meets_attempt {δ : Type} {e : ε} {y : Except δ α} :
    Meets pre step (attempt e y) post o s ↔ post o (y.mapError fun _ => e) s := by
  cases y <;> exact Iff.rfl

/-- What follows a function starts in the section the function ends in, if it does not throw. -/
theorem meets_bind {f : α → Async Q A σ ε β} {post : Turn Q A × σ → Except ε β → σ → Prop} :
    Meets pre step (x >>= f) post o s ↔ Meets pre step x (fun o r s => match r with
      | .ok a => Meets pre step (f a) post o s
      | .error e => post o (.error e) s) o s := by
  refine sections_bind.trans ?_
  constructor <;> intro h <;> refine Sections.mono (fun o r s hr => ?_) h <;> cases r <;> exact hr

theorem meets_get_bind {f : σ → Async Q A σ ε β} {post : Turn Q A × σ → Except ε β → σ → Prop} :
    Meets pre step (get >>= f) post o s ↔ Meets pre step (f s) post o s := Iff.rfl

theorem meets_modify {g : σ → σ} {post : Turn Q A × σ → Except ε Unit → σ → Prop} :
    Meets pre step (modify g) post o s ↔ post o (.ok ()) (g s) := Iff.rfl

theorem meets_modify_bind {g : σ → σ} {f : Unit → Async Q A σ ε β}
    {post : Turn Q A × σ → Except ε β → σ → Prop} :
    Meets pre step (modify g >>= f) post o s ↔ Meets pre step (f ()) post o (g s) := Iff.rfl

theorem meets_set_bind {s' : σ} {f : PUnit → Async Q A σ ε β}
    {post : Turn Q A × σ → Except ε β → σ → Prop} :
    Meets pre step (set s' >>= f) post o s ↔ Meets pre step (f ⟨⟩) post o s' := Iff.rfl

theorem meets_attempt_bind {δ : Type} {e : ε} {y : Except δ α} {f : α → Async Q A σ ε β}
    {post : Turn Q A × σ → Except ε β → σ → Prop} :
    Meets pre step (attempt e y >>= f) post o s ↔ match y with
      | .ok a => Meets pre step (f a) post o s
      | .error _ => post o (.error e) s := by
  cases y <;> exact Iff.rfl

theorem meets_receive_bind {q : Q} {f : A q → Async Q A σ ε β}
    {post : Turn Q A × σ → Except ε β → σ → Prop} :
    Meets pre step (receive q >>= f) post o s ↔ step o.1 o.2 (some q) s
      ∧ ∀ r : A q × σ, pre q r.2 → Meets pre step (f r.1) post (⟨q, r.1⟩, r.2) r.2 := Iff.rfl

theorem meets_catching {δ : Type} {x : Async Q A σ δ α} {f : δ → Async Q A σ ε α} :
    Meets pre step (catching x f) post o s ↔ Meets pre step x (fun o r s => match r with
      | .ok a => post o (.ok a) s
      | .error e => Meets pre step (f e) post o s) o s := by
  refine sections_bind.trans ?_
  constructor <;> intro h <;> refine Sections.mono (fun o r s hr => ?_) h <;> cases r <;> exact hr

/-- The clean-up runs in the section the function ends in, however it ends. -/
theorem meets_andFinally {cleanup : Async Q A σ ε Unit} :
    Meets pre step (andFinally x cleanup) post o s ↔ Meets pre step x (fun o r s =>
      Meets pre step cleanup (fun o c s => post o (c.bind fun _ => r) s) o s) o s :=
  sections_bind.trans (by simp only [sections_bind]; rfl)

/-- The rule for what follows. -/
theorem Meets.andThen {f : α → Async Q A σ ε β} {mid : Turn Q A × σ → Except ε α → σ → Prop}
    {post : Turn Q A × σ → Except ε β → σ → Prop} (hx : Meets pre step x mid o s)
    (hf : ∀ a o s, mid o (.ok a) s → Meets pre step (f a) post o s)
    (he : ∀ e o s, mid o (.error e) s → post o (.error e) s) :
    Meets pre step (x >>= f) post o s := by
  refine meets_bind.2 (hx.mono fun o r s hr => ?_)
  cases r with
  | ok a => exact hf a o s hr
  | error e => exact he e o s hr

/-- A function that waits, or has come to its end. -/
def Conforms (pre : Q → σ → Prop) (step : Turn Q A → σ → Option Q → σ → Prop) :
    Dialogue (Q × σ) (fun q => A q.1 × σ) (β × σ) → Prop
  | done _ => True
  | ask q next => ∀ r : A q.1 × σ, pre q.1 r.2 →
    Sections pre step (fun o _ s => step o.1 o.2 none s) (⟨q.1, r.1⟩, r.2) (next r)

end Meets

section Keeping

variable (pre : Q → σ → Prop) (step : Turn Q A → σ → Option Q → σ → Prop)
  (J : Turn Q A × σ → σ → Prop)

/-- The function keeps `J` in every section, whatever it returns or throws. -/
def Keeping (x : Async Q A σ ε α) : Prop :=
  ∀ o s, J o s → Meets pre step x (fun o _ s => J o s) o s

variable {pre step J} {x : Async Q A σ ε α}

theorem keeping_pure {a : α} : Keeping pre step J (pure a : Async Q A σ ε α) := fun _ _ h => h

theorem keeping_throw {e : ε} : Keeping pre step J (throw e : Async Q A σ ε α) := fun _ _ h => h

theorem keeping_get : Keeping pre step J (get : Async Q A σ ε σ) := fun _ _ h => h

theorem keeping_modify {f : σ → σ} (hf : ∀ o s, J o s → J o (f s)) :
    Keeping pre step J (modify f : Async Q A σ ε Unit) := hf

theorem keeping_attempt {δ : Type} {e : ε} {y : Except δ α} :
    Keeping pre step J (attempt e y : Async Q A σ ε α) := fun _ _ h => meets_attempt.2 h

theorem keeping_receive {q : Q} (hstep : ∀ o s, J o s → step o.1 o.2 (some q) s)
    (hpre : ∀ r s, pre q s → J (⟨q, r⟩, s) s) :
    Keeping pre step J (receive q : Async Q A σ ε (A q)) :=
  fun o s h => ⟨hstep o s h, fun r hr => hpre r.1 r.2 hr⟩

theorem Keeping.bind {f : α → Async Q A σ ε β} (hx : Keeping pre step J x)
    (hf : ∀ a, Keeping pre step J (f a)) : Keeping pre step J (x >>= f) :=
  fun o s h => (hx o s h).andThen (fun a o s h => hf a o s h) fun _ _ _ h => h

/-- What follows a look at the state knows the state. -/
theorem keeping_get_bind {f : σ → Async Q A σ ε β}
    (hf : ∀ o s, J o s → Meets pre step (f s) (fun o _ s => J o s) o s) :
    Keeping pre step J (get >>= f) := hf

theorem Keeping.catching {δ : Type} {x : Async Q A σ δ α} {f : δ → Async Q A σ ε α}
    (hx : Keeping pre step J x) (hf : ∀ e, Keeping pre step J (f e)) :
    Keeping pre step J (catching x f) := by
  intro o s h
  refine meets_catching.2 ((hx o s h).mono fun o r s hr => ?_)
  cases r with
  | ok a => exact hr
  | error e => exact hf e o s hr

theorem Keeping.andFinally {cleanup : Async Q A σ ε Unit} (hx : Keeping pre step J x)
    (hc : Keeping pre step J cleanup) : Keeping pre step J (andFinally x cleanup) :=
  fun o s h => meets_andFinally.2 ((hx o s h).mono fun o _ s hr => hc o s hr)

theorem Keeping.ite {c : Prop} [Decidable c] {y : Async Q A σ ε α} (hx : Keeping pre step J x)
    (hy : Keeping pre step J y) : Keeping pre step J (if c then x else y) := by
  split_ifs
  · exact hx
  · exact hy

end Keeping

section Asking

variable (S : Q → Prop) (I : σ → Prop)

/-- Whatever it is answered, the function keeps `I` and makes only requests in `S`. -/
abbrev AsksIn (x : Async Q A σ ε α) : Prop :=
  Keeping (fun _ s => I s) (fun _ _ q s => (∀ q', q = some q' → S q') ∧ I s) (fun _ s => I s) x

variable {S I}

theorem asksIn_modify {f : σ → σ} (hf : ∀ s, I s → I (f s)) :
    AsksIn S I (modify f : Async Q A σ ε Unit) := keeping_modify fun _ => hf

theorem asksIn_set {s : σ} (hs : I s) : AsksIn S I (set s : Async Q A σ ε PUnit) :=
  fun _ _ _ => hs

theorem asksIn_receive {q : Q} (h : S q) : AsksIn S I (receive q : Async Q A σ ε (A q)) :=
  keeping_receive (fun _ _ hs => ⟨fun _ hq => Option.some.inj hq ▸ h, hs⟩) fun _ _ hs => hs

end Asking

section Waiting

/-- The request a function waits for, until it ends. -/
def waits : Dialogue (Q × σ) (fun q => A q.1 × σ) (β × σ) → Option Q
  | done _ => none
  | ask q _ => some q.1

/-- The state in which a function ends or waits. -/
def left : Dialogue (Q × σ) (fun q => A q.1 × σ) (β × σ) → σ
  | done b => b.2
  | ask q _ => q.2

/-- A section ends where the function waits again, or with it. -/
theorem Sections.conforms {pre : Q → σ → Prop} {step : Turn Q A → σ → Option Q → σ → Prop}
    {o : Turn Q A × σ} : ∀ {d : Dialogue (Q × σ) (fun q => A q.1 × σ) (β × σ)},
    Sections pre step (fun o _ s => step o.1 o.2 none s) o d →
      step o.1 o.2 (waits d) (left d) ∧ Conforms pre step d
  | done _, h => ⟨h, trivial⟩
  | ask _ _, h => h

end Waiting

/-- Functions that have been started and share a state. -/
structure Crowd (ι Q : Type) (A : Q → Type) (σ β : Type) where
  state : σ
  tasks : ι → Dialogue (Q × σ) (fun q => A q.1 × σ) (β × σ)

namespace Crowd

variable {ι : Type}

def waits (c : Crowd ι Q A σ β) (i : ι) : Option Q := Async.waits (c.tasks i)

/-- Every handler waits for the event it is called by. -/
def start (s : σ) (event : Q) (handlers : ι → Async Q A σ ε β) : Crowd ι Q A σ (Except ε β) :=
  ⟨s, fun i => ask (event, s) fun r => (handlers i).run r.2⟩

variable [DecidableEq ι]

/-- One of the functions gets its answer, and runs until it waits again or ends. -/
inductive Step (c : Crowd ι Q A σ β) (i : ι) : Turn Q A → Crowd ι Q A σ β → Prop
  | resume {q : Q × σ} {next : A q.1 × σ → Dialogue (Q × σ) (fun q => A q.1 × σ) (β × σ)}
      (r : A q.1) : c.tasks i = ask q next →
      Step c i ⟨q.1, r⟩ ⟨left (next (r, c.state)), Function.update c.tasks i (next (r, c.state))⟩

/-- Functions get answers, one after the other, in any order. -/
abbrev Runs : Crowd ι Q A σ β → Crowd ι Q A σ β → Prop :=
  Relation.ReflTransGen fun c c' => ∃ i e, Step c i e c'

/-- An invariant of what the functions wait for and of the state they share: it prepares every
section, and every section keeps it. -/
structure Invariant (pre : Q → σ → Prop) (step : Turn Q A → σ → Option Q → σ → Prop)
    (I : (ι → Option Q) → σ → Prop) : Prop where
  ready : ∀ {w s i q}, I w s → w i = some q → pre q s
  kept : ∀ {w s i e q' s'}, I w s → w i = some e.1 → step e s q' s' →
    I (Function.update w i q') s'

/-- Every function keeps to its sections, and the invariant holds. -/
def Sound (pre : Q → σ → Prop) (step : Turn Q A → σ → Option Q → σ → Prop)
    (I : (ι → Option Q) → σ → Prop) (c : Crowd ι Q A σ β) : Prop :=
  (∀ i, Conforms pre step (c.tasks i)) ∧ I c.waits c.state

variable {pre : Q → σ → Prop} {step : Turn Q A → σ → Option Q → σ → Prop}
  {I : (ι → Option Q) → σ → Prop} {c c' : Crowd ι Q A σ β} {i : ι} {e : Turn Q A}

theorem Step.waits (h : Step c i e c') :
    c.waits i = some e.1 ∧ c'.waits = Function.update c.waits i (c'.waits i) := by
  cases h with
  | resume r hi =>
    refine ⟨by rw [Crowd.waits, hi, Async.waits], funext fun j => ?_⟩
    by_cases hj : j = i
    · subst hj
      rw [Function.update_self]
    · simp only [Crowd.waits, Function.update_of_ne hj]

/-- A function that waits can get any answer. -/
theorem exists_step {q : Q} (h : c.waits i = some q) (r : A q) : ∃ c', Step c i ⟨q, r⟩ c' := by
  unfold Crowd.waits at h
  rcases hi : c.tasks i with b | ⟨q', next⟩
  · rw [hi] at h
    cases h
  · rw [hi] at h
    obtain rfl : q'.1 = q := Option.some.inj h
    exact ⟨_, .resume r hi⟩

theorem Step.tasks_of_ne {j : ι} (h : Step c i e c') (hj : j ≠ i) : c'.tasks j = c.tasks j := by
  cases h with
  | resume r hi => exact Function.update_of_ne hj _ _

/-- A step is a section of the function. -/
theorem Step.spec (h : Step c i e c') (hi : Conforms pre step (c.tasks i))
    (hpre : pre e.1 c.state) :
    step e c.state (c'.waits i) c'.state ∧ Conforms pre step (c'.tasks i) := by
  cases h with
  | resume r hask =>
    rw [hask] at hi
    obtain ⟨hstep, hconforms⟩ := (hi (r, c.state) hpre).conforms
    simp only [Crowd.waits, Function.update_self]
    exact ⟨hstep, hconforms⟩

/-- A step is sound if its section is found ready and keeps the invariant. -/
theorem Step.sound (h : Step c i e c') (hc : c.Sound pre step I) (hpre : pre e.1 c.state)
    (hkept : ∀ q' s', step e c.state q' s' → I (Function.update c.waits i q') s') :
    step e c.state (c'.waits i) c'.state ∧ c'.Sound pre step I := by
  obtain ⟨-, hupdate⟩ := h.waits
  obtain ⟨hstep, hi⟩ := h.spec (hc.1 i) hpre
  refine ⟨hstep, fun j => ?_, ?_⟩
  · by_cases hj : j = i
    · exact hj ▸ hi
    · rw [h.tasks_of_ne hj]
      exact hc.1 j
  · rw [hupdate]
    exact hkept _ _ hstep

theorem Sound.resume (hI : Invariant pre step I) (hc : c.Sound pre step I) (h : Step c i e c') :
    step e c.state (c'.waits i) c'.state ∧ c'.Sound pre step I :=
  h.sound hc (hI.ready hc.2 h.waits.1) fun _ _ => hI.kept hc.2 h.waits.1

theorem Sound.runs (hI : Invariant pre step I) (hc : c.Sound pre step I) (h : Runs c c') :
    c'.Sound pre step I := by
  induction h with
  | refl => exact hc
  | tail _ hstep ih =>
    obtain ⟨i, e, hstep⟩ := hstep
    exact (ih.resume hI hstep).2

/-- An invariant that prepares its sections only beside another one. -/
theorem Sound.beside {pre' : Q → σ → Prop} {step' : Turn Q A → σ → Option Q → σ → Prop}
    {J : (ι → Option Q) → σ → Prop} (hI : Invariant pre step I)
    (hready : ∀ {w s i q}, I w s → J w s → w i = some q → pre' q s)
    (hkept : ∀ {w s i e q' s'}, J w s → w i = some e.1 → step' e s q' s' →
      J (Function.update w i q') s')
    (hc : c.Sound pre step I) (hc' : c.Sound pre' step' J) (h : Runs c c') :
    c'.Sound pre' step' J := by
  induction h with
  | refl => exact hc'
  | tail hruns hstep ih =>
    obtain ⟨i, e, hstep⟩ := hstep
    have hwaits := hstep.waits.1
    exact (hstep.sound ih (hready (hc.runs hI hruns).2 ih.2 hwaits)
      fun _ _ => hkept ih.2 hwaits).2

/-- The crowd after these answers, if the functions wait for them. -/
def play [DecidableEq Q] (c : Crowd ι Q A σ β) : List (ι × Turn Q A) → Option (Crowd ι Q A σ β)
  | [] => some c
  | (i, ⟨q, r⟩) :: l =>
    match c.tasks i with
    | done _ => none
    | ask q' next =>
      if h : q = q'.1 then
        let d := next (h ▸ r, c.state)
        play ⟨left d, Function.update c.tasks i d⟩ l
      else none

theorem runs_of_play [DecidableEq Q] : ∀ {l : List (ι × Turn Q A)} {c c' : Crowd ι Q A σ β},
    c.play l = some c' → Runs c c'
  | [], c, c', h => by
    cases h
    exact .refl
  | (i, ⟨q, r⟩) :: l, c, c', h => by
    unfold play at h
    split at h
    · cases h
    · rename_i q' next hi
      split_ifs at h with hq
      subst hq
      exact .head ⟨i, _, .resume r hi⟩ (runs_of_play h)

theorem exists_step_of_play [DecidableEq Q] {x : ι × Turn Q A} {l : List (ι × Turn Q A)}
    {c c' : Crowd ι Q A σ β} (h : c.play (x :: l) = some c') :
    ∃ c₁, Step c x.1 x.2 c₁ ∧ c₁.play l = some c' := by
  obtain ⟨i, q, r⟩ := x
  unfold play at h
  split at h
  · cases h
  · rename_i q' next hi
    split_ifs at h with hq
    subst hq
    exact ⟨_, .resume r hi, h⟩

omit [DecidableEq ι] in
theorem sound_start {s : σ} {event : Q} {handlers : ι → Async Q A σ ε β}
    (hI : I (fun _ => some event) s)
    (h : ∀ i r s', pre event s' → Meets pre step (handlers i) (fun o _ s => step o.1 o.2 none s)
      (⟨event, r⟩, s') s') : (start s event handlers).Sound pre step I :=
  ⟨fun i r hr => h i r.1 r.2 hr, hI⟩

/-- What all handlers keep holds in every run, and none waits for a request it never makes. -/
theorem runs_of_asksIn {S : Q → Prop} {I : σ → Prop} {s : σ} {event : Q}
    {handlers : ι → Async Q A σ ε β} {c : Crowd ι Q A σ (Except ε β)} (hs : I s)
    (hevent : S event) (h : ∀ i, AsksIn S I (handlers i))
    (hruns : Runs (start s event handlers) c) :
    I c.state ∧ ∀ i q, c.waits i = some q → S q := by
  let asking (w : ι → Option Q) (s : σ) : Prop := I s ∧ ∀ i q, w i = some q → S q
  have hI : Invariant (A := A) (fun _ s => I s)
      (fun _ _ q s => (∀ q', q = some q' → S q') ∧ I s) asking := by
    refine ⟨fun hw _ => hw.1, fun {w s i e q' s'} hw _ hstep => ⟨hstep.2, ?_⟩⟩
    exact (Function.forall_update_iff w fun _ q => ∀ q', q = some q' → S q').2
      ⟨hstep.1, fun j _ => hw.2 j⟩
  have hstart : (start s event handlers).Sound (fun _ s => I s)
      (fun _ _ q s => (∀ q', q = some q' → S q') ∧ I s) asking := by
    refine sound_start ⟨hs, fun _ _ hq => Option.some.inj hq ▸ hevent⟩ fun i r s' hs' => ?_
    exact (h i _ s' hs').mono fun _ _ _ hs => ⟨nofun, hs⟩
  exact (hstart.runs hI hruns).2

section Locks

/-- While functions wait for active requests the lock is held, and only one of them waits so. -/
structure Locked (active : Q → Bool) (lock : σ → Prop) (w : ι → Option Q) (s : σ) : Prop where
  held : ∀ i q, w i = some q → active q = true → lock s
  one : ∀ i j q q', w i = some q → active q = true → w j = some q' → active q' = true → i = j

/-- A section goes on to an active request with the lock held, which it held before or found free;
and it does not free the lock unless it held it. -/
structure Guards (active : Q → Bool) (lock : σ → Prop) (e : Turn Q A) (s : σ) (q : Option Q)
    (s' : σ) : Prop where
  takes : ∀ q', q = some q' → active q' = true → lock s' ∧ (active e.1 = true ∨ ¬lock s)
  leaves : active e.1 = false → lock s → lock s'

variable {active : Q → Bool} {lock : σ → Prop} {w : ι → Option Q} {s s' : σ} {q : Option Q}
  {q' : Q} {j : ι}

omit [DecidableEq ι]

theorem locked_start (h : active q' = false) :
    Locked active lock (fun _ : ι => some q') s := by
  refine ⟨fun i q hq hactive => ?_, fun i j q q'' hq hactive => ?_⟩
  · rw [← Option.some.inj hq, h] at hactive
    cases hactive
  · rw [← Option.some.inj hq, h] at hactive
    cases hactive

section Returns

/-- A section of a lock that is given back: the lock is held after it only if the function goes on
to an active request, or if the section has found it held by another function. -/
structure Returns (active : Q → Bool) (lock : σ → Prop) (e : Turn Q A) (s : σ) (q : Option Q)
    (s' : σ) : Prop extends Guards active lock e s q s' where
  returns : lock s' → (∃ q', q = some q' ∧ active q' = true) ∨ active e.1 = false ∧ lock s

/-- A section that goes on to an active request. -/
theorem returns_waits (hq : active q' = true) (hlock : lock s')
    (hmine : active e.1 = true ∨ ¬lock s) : Returns active lock e s (some q') s' :=
  ⟨⟨fun _ _ _ => ⟨hlock, hmine⟩, fun _ _ => hlock⟩, fun _ => .inl ⟨q', rfl, hq⟩⟩

/-- A section that leaves the lock as it has found it. -/
theorem returns_other (hq : ∀ q', q = some q' → active q' = false) (hpassive : active e.1 = false)
    (hlock : lock s' ↔ lock s) : Returns active lock e s q s' := by
  refine ⟨⟨fun q' heq hactive => ?_, fun _ => hlock.2⟩, fun h => .inr ⟨hpassive, hlock.1 h⟩⟩
  rw [hq q' heq] at hactive
  cases hactive

/-- A section that ends with the lock free. -/
theorem returns_free (hq : ∀ q', q = some q' → active q' = false) (hfree : ¬lock s')
    (hmine : active e.1 = true ∨ ¬lock s) : Returns active lock e s q s' := by
  refine ⟨⟨fun q' heq hactive => ?_, fun hpassive hlock => ?_⟩, fun h => absurd h hfree⟩
  · rw [hq q' heq] at hactive
    cases hactive
  · rcases hmine with hmine | hmine
    · cases hpassive.symm.trans hmine
    · exact absurd hlock hmine

end Returns

/-- While another function holds the lock, a section is not of one that holds it. -/
theorem Locked.passive (h : Locked active lock w s) (hi : w i = some e.1) (hj : w j = some q')
    (hactive : active q' = true) (hne : j ≠ i) : active e.1 = false := by
  by_contra hmine
  exact hne (h.one j i q' e.1 hj hactive hi (by simpa using hmine))

/-- A section takes the lock only if no other function holds it. -/
theorem Locked.alone {q'' : Q} (h : Locked active lock w s) (hi : w i = some e.1)
    (hstep : Guards active lock e s q s') (hq : q = some q'') (hq'' : active q'' = true)
    (hj : w j = some q') (hactive : active q' = true) : j = i := by
  by_contra hne
  rcases (hstep.takes q'' hq hq'').2 with hmine | hfree
  · rw [h.passive hi hj hactive hne] at hmine
    cases hmine
  · exact hfree (h.held j q' hj hactive)

variable [DecidableEq ι]

/-- A function goes on to a request that is awaited, or another one still waits for one. -/
theorem exists_waiting {awaited : Q → Bool} (hawaited : ∀ q, awaited q = true → active q = true)
    (hi : w i = some e.1) (h : (∃ q', q = some q' ∧ awaited q' = true)
      ∨ active e.1 = false ∧ ∃ j q', w j = some q' ∧ awaited q' = true) :
    ∃ j q', Function.update w i q j = some q' ∧ awaited q' = true := by
  rcases h with ⟨q', hq, hq'⟩ | ⟨hpassive, j, q', hj, hq'⟩
  · exact ⟨i, q', by rw [Function.update_self, hq], hq'⟩
  · have hne : j ≠ i := by
      rintro rfl
      obtain rfl : e.1 = q' := Option.some.inj (hi.symm.trans hj)
      cases hpassive.symm.trans (hawaited e.1 hq')
    exact ⟨j, q', by rw [Function.update_of_ne hne, hj], hq'⟩

/-- A lock that is given back is held only while a function waits for an active request. -/
theorem Returns.waiting (h : Returns active lock e s q s') (hi : w i = some e.1)
    (hw : lock s → ∃ j q', w j = some q' ∧ active q' = true) (hlock : lock s') :
    ∃ j q', Function.update w i q j = some q' ∧ active q' = true :=
  exists_waiting (fun _ => id) hi
    ((h.returns hlock).imp id fun ⟨hpassive, hlock⟩ => ⟨hpassive, hw hlock⟩)

theorem Locked.kept (h : Locked active lock w s) (hi : w i = some e.1)
    (hstep : Guards active lock e s q s') : Locked active lock (Function.update w i q) s' := by
  refine ⟨?_, fun j k q' q'' hj hq' hk hq'' => ?_⟩
  · refine (Function.forall_update_iff w fun _ q => ∀ q', q = some q' → active q' = true →
      lock s').2 ⟨fun q' hq hactive => (hstep.takes q' hq hactive).1, fun j hji q' hj hactive => ?_⟩
    exact hstep.leaves (h.passive hi hj hactive hji) (h.held j q' hj hactive)
  · by_cases hji : j = i <;> by_cases hki : k = i
    · rw [hji, hki]
    · subst hji
      rw [Function.update_self] at hj
      rw [Function.update_of_ne hki] at hk
      exact (h.alone hi hstep hj hq' hk hq'').symm
    · subst hki
      rw [Function.update_self] at hk
      rw [Function.update_of_ne hji] at hj
      exact h.alone hi hstep hk hq'' hj hq'
    · rw [Function.update_of_ne hji] at hj
      rw [Function.update_of_ne hki] at hk
      exact h.one j k q' q'' hj hq' hk hq''

end Locks

end Crowd

end Async

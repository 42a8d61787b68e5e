import Oblivia.Lib.Batch
/-!
# Promises

Promises, the handlers that wait for them, and the tasks that handlers have started. A handler runs
at some moment after its promise has settled, and the promise that `then` returned settles with what
the handler ends with.

A serial queue hangs every new task on the promise of the one before, and goes on whatever that one
ended with. Only one handler of it can run at a time, and its tasks run one after the other in the
order they were queued (`Serves`).
-/

/-- What is passed to `then`: a task, for a promise that is fulfilled, or two functions that do
nothing. -/
inductive Handler (τ : Type*)
  | call (task : τ)
  | ignore
  deriving DecidableEq

/-- A handler, the promise it waits for, and the promise it settles. -/
structure Reaction (τ : Type*) where
  source : ℕ
  handler : Handler τ
  target : ℕ
  deriving DecidableEq

/-- The task a reaction starts, with the promise it settles. -/
def Reaction.task {τ : Type*} (r : Reaction τ) : Option (τ × ℕ) :=
  match r.handler with
  | .call task => some (task, r.target)
  | .ignore => none

/-- The promises so far, the handlers that have not run, and the tasks under way, each with the
promise it settles. -/
structure Promises (τ ε : Type*) where
  outcomes : List (Option (Except ε Unit))
  reactions : List (Reaction τ)
  running : List (τ × ℕ)

namespace Promises

variable {τ ε : Type*}

/-- How a promise has settled. -/
def outcome (P : Promises τ ε) (p : ℕ) : Option (Except ε Unit) := P.outcomes[p]?.join

/-- `then`: the promise it returns is the last one. -/
def chain (P : Promises τ ε) (p : ℕ) (handler : Handler τ) : Promises τ ε :=
  { P with
    outcomes := P.outcomes ++ [none]
    reactions := P.reactions ++ [⟨p, handler, P.outcomes.length⟩] }

def settle (P : Promises τ ε) (p : ℕ) (outcome : Except ε Unit) : Promises τ ε :=
  { P with outcomes := P.outcomes.set p (some outcome) }

/-- Runs a handler. A promise without a handler for how its source has settled settles likewise. -/
def handle (P : Promises τ ε) : Handler τ → ℕ → Except ε Unit → Promises τ ε
  | .call task, target, .ok () => { P with running := P.running ++ [(task, target)] }
  | .call _, target, .error e => P.settle target (.error e)
  | .ignore, target, _ => P.settle target (.ok ())

section React

variable [DecidableEq τ]

/-- Runs the handler of a reaction, which is then done. -/
def run (P : Promises τ ε) (r : Reaction τ) (outcome : Except ε Unit) : Promises τ ε :=
  { P with reactions := P.reactions.erase r }.handle r.handler r.target outcome

/-- A reaction, if its promise has settled. -/
def react (P : Promises τ ε) (r : Reaction τ) : Except Unit (Promises τ ε) :=
  match P.outcome r.source with
  | some outcome => if r ∈ P.reactions then .ok (P.run r outcome) else .error ()
  | none => .error ()

end React

/-- The task under way that settles a promise. -/
def task (P : Promises τ ε) (p : ℕ) : Option τ := (P.running.find? (·.2 = p)).map Prod.fst

/-- The task that settles a promise ends. -/
def finish (P : Promises τ ε) (p : ℕ) (outcome : Except ε Unit) : Promises τ ε :=
  { P with running := P.running.filter (·.2 ≠ p) }.settle p outcome

/-- The tasks that have not been started, in the order of their handlers. -/
def waiting (P : Promises τ ε) : List (τ × ℕ) := P.reactions.filterMap Reaction.task

/-- The tasks that have not ended. -/
def pending (P : Promises τ ε) : List (τ × ℕ) := P.running ++ P.waiting

theorem outcome_append_none (P : Promises τ ε) (rs : List (Reaction τ)) (p : ℕ) :
    outcome { P with outcomes := P.outcomes ++ [none], reactions := rs } p = P.outcome p := by
  unfold outcome
  rcases Nat.lt_trichotomy p P.outcomes.length with h | rfl | h
  · rw [List.getElem?_append_left h]
  · simp
  · rw [List.getElem?_eq_none (by simp; omega), List.getElem?_eq_none (by omega)]

@[simp]
theorem outcome_chain (P : Promises τ ε) (q p : ℕ) (handler : Handler τ) :
    (P.chain q handler).outcome p = P.outcome p := outcome_append_none P _ p

theorem outcome_settle_of_ne (P : Promises τ ε) {p q : ℕ} (h : q ≠ p) (o : Except ε Unit) :
    (P.settle p o).outcome q = P.outcome q := by
  simp only [outcome, settle, List.getElem?_set_ne h.symm]

theorem outcome_settle (P : Promises τ ε) {p : ℕ} (h : p < P.outcomes.length)
    (o : Except ε Unit) : (P.settle p o).outcome p = some o := by
  simp [outcome, settle, h]

end Promises

/-- Promises with the one that the next task is hung on. -/
structure SerialQueue (τ ε : Type*) extends Promises τ ε where
  queue : ℕ

namespace SerialQueue

open Promises

variable {τ ε : Type*}

/-- `let queue = Promise.resolve()`. -/
def start : SerialQueue τ ε := ⟨⟨[some (.ok ())], [], []⟩, 0⟩

/-- `result = queue.then(task)` and `queue = result.then(() => undefined, () => undefined)`. -/
def enqueue (Q : SerialQueue τ ε) (task : τ) : SerialQueue τ ε :=
  let result := Q.outcomes.length
  { (Q.chain Q.queue (.call task)).chain result .ignore with queue := result + 1 }

def react [DecidableEq τ] (Q : SerialQueue τ ε) (r : Reaction τ) :
    Except Unit (SerialQueue τ ε) :=
  (Q.toPromises.react r).map fun P => { P with queue := Q.queue }

def finish (Q : SerialQueue τ ε) (p : ℕ) (outcome : Except ε Unit) : SerialQueue τ ε :=
  { Q.toPromises.finish p outcome with queue := Q.queue }

/-- What the queue is doing: nothing for a task, running a task, or handing on after one. -/
inductive Stage (τ ε : Type*)
  | idle
  | running (task : τ)
  | settled (outcome : Except ε Unit)

/-- The handlers of waiting tasks, the first of which is hung on promise `b`. -/
def behind (b : ℕ) : List τ → List (Reaction τ)
  | [] => []
  | t :: ts => ⟨b, .call t, b + 1⟩ :: ⟨b + 1, .ignore, b + 2⟩ :: behind (b + 2) ts

/-- The promises from `b` on are those of the waiting tasks. -/
structure Waits (Q : SerialQueue τ ε) (b : ℕ) (ts : List τ) : Prop where
  queue : Q.queue = b + 2 * ts.length
  length : Q.outcomes.length = Q.queue + 1
  pending : ∀ p, b < p → Q.outcome p = none

/-- What has run through is fulfilled, a task that has ended is being handed on from, and all other
handlers are those of the waiting tasks. -/
inductive Serves (Q : SerialQueue τ ε) : Stage τ ε → List τ → Prop
  | idle {b : ℕ} {ts : List τ} : Waits Q b ts → Q.outcome b = some (.ok ()) → Q.running = [] →
      Q.reactions = behind b ts → Serves Q .idle ts
  | running {r : ℕ} {t : τ} {ts : List τ} : Waits Q (r + 1) ts → Q.outcome r = none →
      Q.outcome (r + 1) = none → Q.running = [(t, r)] →
      Q.reactions = ⟨r, .ignore, r + 1⟩ :: behind (r + 1) ts → Serves Q (.running t) ts
  | settled {r : ℕ} {o : Except ε Unit} {ts : List τ} : Waits Q (r + 1) ts →
      Q.outcome r = some o → Q.outcome (r + 1) = none → Q.running = [] →
      Q.reactions = ⟨r, .ignore, r + 1⟩ :: behind (r + 1) ts → Serves Q (.settled o) ts

variable {Q Q' : SerialQueue τ ε} {stage : Stage τ ε} {t : τ} {ts : List τ} {o : Except ε Unit}
  {b p : ℕ}

theorem serves_start : Serves (start : SerialQueue τ ε) .idle [] :=
  .idle (b := 0) ⟨rfl, rfl, fun p hp => by
    simp [outcome, start, (Nat.ne_of_gt hp : p ≠ 0)]⟩ rfl rfl rfl

theorem behind_append : ∀ (b : ℕ) (ts : List τ) (t : τ), behind b (ts ++ [t])
    = behind b ts ++ [⟨b + 2 * ts.length, .call t, b + 2 * ts.length + 1⟩,
      ⟨b + 2 * ts.length + 1, .ignore, b + 2 * ts.length + 2⟩]
  | b, [], t => rfl
  | b, u :: ts, t => by
    have ih := behind_append (b + 2) ts t
    have hlen : b + 2 + 2 * ts.length = b + 2 * (u :: ts).length := by
      rw [List.length_cons]
      omega
    rw [hlen] at ih
    simp only [List.cons_append, behind, ih]

@[simp]
theorem outcome_enqueue (Q : SerialQueue τ ε) (t : τ) (p : ℕ) :
    (Q.enqueue t).outcome p = Q.outcome p := by
  show ((Q.chain _ _).chain _ _).outcome p = _
  rw [outcome_chain, outcome_chain]

theorem Waits.enqueue (h : Waits Q b ts) (t : τ) : Waits (Q.enqueue t) b (ts ++ [t]) where
  queue := by
    show Q.outcomes.length + 1 = _
    rw [h.length, h.queue, List.length_append, List.length_singleton]
    omega
  length := by simp [SerialQueue.enqueue, chain]
  pending p hp := (outcome_enqueue Q t p).trans (h.pending p hp)

theorem Waits.reactions_enqueue (h : Waits Q b ts) (t : τ) (rs : List (Reaction τ))
    (hrs : Q.reactions = rs ++ behind b ts) :
    (Q.enqueue t).reactions = rs ++ behind b (ts ++ [t]) := by
  have hlength := h.length
  have hqueue := h.queue
  rw [behind_append, ← List.append_assoc, ← hrs, ← hqueue]
  simp [SerialQueue.enqueue, chain, hlength]

theorem Serves.enqueue (h : Serves Q stage ts) (t : τ) :
    Serves (Q.enqueue t) stage (ts ++ [t]) := by
  cases h with
  | idle hw ho hrun hrs =>
    exact .idle (hw.enqueue t) ((outcome_enqueue Q t _).trans ho) hrun
      (hw.reactions_enqueue t [] hrs)
  | running hw ho ho' hrun hrs =>
    exact .running (hw.enqueue t) ((outcome_enqueue Q t _).trans ho)
      ((outcome_enqueue Q t _).trans ho') hrun (hw.reactions_enqueue t [_] hrs)
  | settled hw ho ho' hrun hrs =>
    exact .settled (hw.enqueue t) ((outcome_enqueue Q t _).trans ho)
      ((outcome_enqueue Q t _).trans ho') hrun (hw.reactions_enqueue t [_] hrs)

theorem le_source : ∀ (b : ℕ) (ts : List τ) {r : Reaction τ}, r ∈ behind b ts → b ≤ r.source
  | b, t :: ts, r, h => by
    simp only [behind, List.mem_cons] at h
    rcases h with rfl | rfl | h
    · exact Nat.le_refl b
    · exact Nat.le_succ b
    · have hle := le_source (b + 2) ts h
      omega

/-- Only the first waiting task hangs on the promise that the others come behind. -/
theorem mem_behind {r : Reaction τ} (h : r ∈ behind b ts) :
    (∃ t ts', ts = t :: ts' ∧ r = ⟨b, .call t, b + 1⟩) ∨ b < r.source := by
  rcases ts with _ | ⟨t, ts⟩
  · cases h
  · simp only [behind, List.mem_cons] at h
    rcases h with rfl | rfl | h
    · exact .inl ⟨t, ts, rfl, rfl⟩
    · exact .inr (Nat.lt_succ_self b)
    · have hle := le_source (b + 2) ts h
      exact .inr (by omega)

/-- Waiting tasks with the promises they settle. -/
def targets (b : ℕ) : List τ → List (τ × ℕ)
  | [] => []
  | t :: ts => (t, b + 1) :: targets (b + 2) ts

theorem tasks_behind : ∀ (b : ℕ) (ts : List τ),
    (behind b ts).filterMap Reaction.task = targets b ts
  | _, [] => rfl
  | b, t :: ts => by
    show (t, b + 1) :: (behind (b + 2) ts).filterMap Reaction.task = _
    rw [tasks_behind (b + 2) ts]
    rfl

theorem lt_target : ∀ (b : ℕ) (ts : List τ) {x : τ × ℕ}, x ∈ targets b ts → b < x.2
  | b, t :: ts, x, h => by
    rcases List.mem_cons.1 h with rfl | h
    · exact Nat.lt_succ_self b
    · have hlt := lt_target (b + 2) ts h
      omega

/-- The tasks that have not ended stay, and so do the promises that have settled. -/
structure Steady (Q Q' : SerialQueue τ ε) : Prop where
  pending : Q'.pending = Q.pending
  length : Q'.outcomes.length = Q.outcomes.length
  outcome : ∀ p o, Q.outcome p = some o → Q'.outcome p = some o

section React

variable [DecidableEq τ] {r : Reaction τ}

theorem react_eq_ok : Q.react r = .ok Q' ↔ ∃ o, Q.outcome r.source = some o ∧ r ∈ Q.reactions
    ∧ { Q.run r o with queue := Q.queue } = Q' := by
  unfold SerialQueue.react Promises.react
  rcases Q.outcome r.source with _ | o
  · simp [Except.map]
  · by_cases hr : r ∈ Q.reactions <;> simp [hr, Except.map]

/-- The first waiting task is started. -/
theorem Waits.started (hw : Waits Q b (t :: ts)) (hrun : Q.running = [])
    (hrs : Q.reactions = behind b (t :: ts)) :
    Serves { Q.run ⟨b, .call t, b + 1⟩ (.ok ()) with queue := Q.queue } (.running t) ts
      ∧ Steady Q { Q.run ⟨b, .call t, b + 1⟩ (.ok ()) with queue := Q.queue } := by
  have hwaits : ∀ p, b < p → Q.outcome p = none := hw.pending
  have hrest : Q.reactions.erase ⟨b, .call t, b + 1⟩
      = ⟨b + 1, .ignore, b + 2⟩ :: behind (b + 2) ts := by
    rw [hrs, behind, List.erase_cons_head]
  constructor
  · refine .running (r := b + 1) ⟨?_, hw.length, fun p hp => hwaits p (by omega)⟩
      (hwaits _ (by omega)) (hwaits _ (by omega)) ?_ hrest
    · show Q.queue = b + 1 + 1 + 2 * ts.length
      rw [hw.queue, List.length_cons]
      omega
    · show Q.running ++ [(t, b + 1)] = [(t, b + 1)]
      rw [hrun, List.nil_append]
  · refine ⟨?_, rfl, fun p o hp => hp⟩
    show (Q.running ++ [(t, b + 1)]) ++ (Q.reactions.erase _).filterMap Reaction.task
      = Q.running ++ Q.reactions.filterMap Reaction.task
    rw [hrest, hrun, hrs]
    rfl

/-- The queue goes on, whatever the last task ended with. -/
theorem Waits.handedOn {r : ℕ} (hw : Waits Q (r + 1) ts) (hnone : Q.outcome (r + 1) = none)
    (hrun : Q.running = [])
    (hrs : Q.reactions = ⟨r, .ignore, r + 1⟩ :: behind (r + 1) ts) (o : Except ε Unit) :
    Serves { Q.run ⟨r, .ignore, r + 1⟩ o with queue := Q.queue } .idle ts
      ∧ Steady Q { Q.run ⟨r, .ignore, r + 1⟩ o with queue := Q.queue } := by
  have hlt : r + 1 < Q.outcomes.length := by
    rw [hw.length, hw.queue]
    omega
  have hother : ∀ p, p ≠ r + 1 → (Q.run ⟨r, .ignore, r + 1⟩ o).outcome p = Q.outcome p :=
    fun p hp => outcome_settle_of_ne Q.toPromises hp _
  have hrest : Q.reactions.erase ⟨r, .ignore, r + 1⟩ = behind (r + 1) ts := by
    rw [hrs, List.erase_cons_head]
  have hlength : (Q.outcomes.set (r + 1) (some (.ok ()))).length = Q.outcomes.length :=
    List.length_set
  constructor
  · refine .idle (b := r + 1) ⟨hw.queue, hlength.trans hw.length, fun p hp => ?_⟩
      (outcome_settle _ hlt _) hrun hrest
    exact (hother p (Nat.ne_of_gt hp)).trans (hw.pending p hp)
  · refine ⟨?_, hlength, fun p o hp => (hother p fun heq => ?_).trans hp⟩
    · show Q.running ++ (Q.reactions.erase _).filterMap Reaction.task
        = Q.running ++ Q.reactions.filterMap Reaction.task
      rw [hrest, hrs]
      rfl
    · rw [heq, hnone] at hp
      cases hp

/-- A handler can run only to start the first waiting task or to hand on after one. -/
theorem Serves.react (h : Serves Q stage ts) (hr : Q.react r = .ok Q') :
    Steady Q Q' ∧ ((∃ t ts', stage = .idle ∧ ts = t :: ts' ∧ Serves Q' (.running t) ts')
      ∨ ∃ o, stage = .settled o ∧ Serves Q' .idle ts) := by
  obtain ⟨o, ho, hmem, rfl⟩ := react_eq_ok.1 hr
  cases h with
  | @idle b _ hw hb hrun hrs =>
    rw [hrs] at hmem
    rcases mem_behind hmem with ⟨t, ts', rfl, rfl⟩ | hlt
    · obtain rfl : .ok () = o := Option.some.inj (hb.symm.trans ho)
      obtain ⟨hserves, hsteady⟩ := hw.started hrun hrs
      exact ⟨hsteady, .inl ⟨t, ts', rfl, rfl, hserves⟩⟩
    · rw [hw.pending _ hlt] at ho
      cases ho
  | @running s _ _ hw hs hs' hrun hrs =>
    have hnone : ∀ p, s ≤ p → Q.outcome p = none := fun p hp => by
      rcases Nat.lt_or_ge (s + 1) p with hlt | hge
      · exact hw.pending p hlt
      · rcases (by omega : p = s ∨ p = s + 1) with rfl | rfl
        · exact hs
        · exact hs'
    rw [hrs] at hmem
    have hle : s ≤ r.source := by
      rcases List.mem_cons.1 hmem with rfl | hmem
      · exact Nat.le_refl s
      · have hsource := le_source _ _ hmem
        omega
    rw [hnone _ hle] at ho
    cases ho
  | @settled s _ _ hw hs hs' hrun hrs =>
    rw [hrs] at hmem
    rcases List.mem_cons.1 hmem with rfl | hmem
    · obtain ⟨hserves, hsteady⟩ := hw.handedOn hs' hrun hrs o
      exact ⟨hsteady, .inr ⟨_, rfl, hserves⟩⟩
    · have hsource := le_source _ _ hmem
      rcases Nat.eq_or_lt_of_le hsource with heq | hlt
      · rw [← heq, hs'] at ho
        cases ho
      · rw [hw.pending _ hlt] at ho
        cases ho

theorem Serves.exists_react (h : Serves Q stage (t :: ts)) (hstage : ∀ u, stage ≠ .running u) :
    ∃ r Q', Q.react r = .ok Q' := by
  cases h with
  | idle _ ho _ hrs => exact ⟨_, _, react_eq_ok.2 ⟨_, ho, by rw [hrs]; exact .head _, rfl⟩⟩
  | running => exact absurd rfl (hstage _)
  | settled _ ho _ _ hrs => exact ⟨_, _, react_eq_ok.2 ⟨_, ho, by rw [hrs]; exact .head _, rfl⟩⟩

/-- With no task under way, the next one is at most two handlers away, and they are the only ones
that can run. -/
theorem Serves.resumes (h : Serves Q stage (t :: ts)) (hstage : ∀ u, stage ≠ .running u) :
    ∃ n ≤ 2, (∃ rs Q', rs.length = n ∧ Batch.exec SerialQueue.react Q rs = .ok Q')
      ∧ ∀ rs Q', rs.length = n → Batch.exec SerialQueue.react Q rs = .ok Q' →
        Serves Q' (.running t) ts ∧ Q'.pending = Q.pending := by
  have hone : ∀ {Q : SerialQueue τ ε} {r Q'}, Serves Q .idle (t :: ts) → Q.react r = .ok Q' →
      Serves Q' (.running t) ts ∧ Q'.pending = Q.pending := fun hidle hr => by
    obtain ⟨hsteady, ⟨_, _, -, heq, hrun⟩ | ⟨_, heq, -⟩⟩ := hidle.react hr
    · cases heq
      exact ⟨hrun, hsteady.pending⟩
    · cases heq
  obtain ⟨r, Q₁, hr⟩ := h.exists_react hstage
  cases stage with
  | running u => exact absurd rfl (hstage u)
  | idle =>
    refine ⟨1, by omega, ⟨[r], Q₁, rfl, Batch.exec_cons_ok.2 ⟨Q₁, hr, rfl⟩⟩, ?_⟩
    intro rs Q' hlen hexec
    obtain ⟨r', rfl⟩ := List.length_eq_one_iff.1 hlen
    obtain ⟨Q₂, hr', hexec⟩ := Batch.exec_cons_ok.1 hexec
    cases hexec
    exact hone h hr'
  | settled o =>
    have hidle : ∀ {r Q'}, Q.react r = .ok Q' →
        Serves Q' .idle (t :: ts) ∧ Q'.pending = Q.pending := fun hr => by
      obtain ⟨hsteady, ⟨_, _, heq, -⟩ | ⟨_, -, hidle⟩⟩ := h.react hr
      · cases heq
      · exact ⟨hidle, hsteady.pending⟩
    obtain ⟨r₂, Q₂, hr₂⟩ := (hidle hr).1.exists_react (by simp)
    refine ⟨2, Nat.le_refl 2, ⟨[r, r₂], Q₂, rfl, Batch.exec_cons_ok.2 ⟨Q₁, hr,
      Batch.exec_cons_ok.2 ⟨Q₂, hr₂, rfl⟩⟩⟩, ?_⟩
    intro rs Q' hlen hexec
    obtain ⟨r', r'', rfl⟩ := List.length_eq_two.1 hlen
    obtain ⟨Q₃, hr', hexec⟩ := Batch.exec_cons_ok.1 hexec
    obtain ⟨Q₄, hr'', hexec⟩ := Batch.exec_cons_ok.1 hexec
    cases hexec
    obtain ⟨hidle', hpending⟩ := hidle hr'
    obtain ⟨hrun, hpending'⟩ := hone hidle' hr''
    exact ⟨hrun, hpending'.trans hpending⟩

end React

section Finish

/-- The only task under way is that of the queue's stage. -/
theorem Serves.task_eq_some (h : Serves Q stage ts) (ht : Q.task p = some t) :
    stage = .running t := by
  unfold task at ht
  cases h with
  | idle _ _ hrun =>
    rw [hrun] at ht
    cases ht
  | @running r u ts _ _ _ hrun =>
    rw [hrun] at ht
    by_cases hp : r = p
    · simp only [hp, List.find?_cons, decide_true, Option.map_some, Option.some.injEq] at ht
      rw [ht]
    · simp [hp] at ht
  | settled _ _ _ hrun =>
    rw [hrun] at ht
    cases ht

/-- A task that ends settles its promise and no other. -/
theorem Serves.finish (h : Serves Q stage ts) (ht : Q.task p = some t) (o : Except ε Unit) :
    Serves (Q.finish p o) (.settled o) ts ∧ Q.pending = (t, p) :: (Q.finish p o).pending
      ∧ (Q.finish p o).outcomes.length = Q.outcomes.length
      ∧ ∀ i, (Q.finish p o).outcome i = if i = p then some o else Q.outcome i := by
  cases h with
  | idle _ _ hrun => simp [task, hrun] at ht
  | settled _ _ _ hrun => simp [task, hrun] at ht
  | @running r u ts hw ho ho' hrun hrs =>
    obtain rfl : r = p := by
      by_contra hp
      simp [task, hrun, hp] at ht
    have hlt : r < Q.outcomes.length := by
      rw [hw.length, hw.queue]
      omega
    obtain rfl : u = t := by simpa [task, hrun] using ht
    have houtcome : ∀ i, (Q.finish r o).outcome i = if i = r then some o else Q.outcome i := by
      intro i
      split_ifs with hi
      · rw [hi]
        exact outcome_settle _ hlt o
      · exact outcome_settle_of_ne _ hi o
    have hlength : (Q.outcomes.set r (some o)).length = Q.outcomes.length := List.length_set
    have hdone : (Q.finish r o).running = [] := by
      show Q.running.filter _ = []
      simp [hrun]
    refine ⟨.settled (r := r) ⟨hw.queue, hlength.trans hw.length, fun p hp => ?_⟩ ?_ ?_ hdone hrs,
      ?_, hlength, houtcome⟩
    · rw [houtcome, if_neg (by omega)]
      exact hw.pending p hp
    · rw [houtcome, if_pos rfl]
    · rw [houtcome, if_neg (by omega)]
      exact ho'
    · show Q.running ++ Q.waiting = _ :: ((Q.finish r o).running ++ Q.waiting)
      rw [hrun, hdone]
      rfl

end Finish

theorem Serves.waiting_eq (h : Serves Q stage ts) : ∃ b, Q.waiting = targets b ts := by
  have hbehind : ∀ r b, Q.reactions = ⟨r, .ignore, r + 1⟩ :: behind b ts →
      Q.waiting = targets b ts := fun r b hrs =>
    (congrArg (List.filterMap Reaction.task) hrs).trans (tasks_behind b ts)
  cases h with
  | idle _ _ _ hrs =>
    exact ⟨_, (congrArg (List.filterMap Reaction.task) hrs).trans (tasks_behind _ ts)⟩
  | running _ _ _ _ hrs => exact ⟨_, hbehind _ _ hrs⟩
  | settled _ _ _ _ hrs => exact ⟨_, hbehind _ _ hrs⟩

theorem pending_enqueue (Q : SerialQueue τ ε) (t : τ) :
    (Q.enqueue t).pending = Q.pending ++ [(t, Q.outcomes.length)] := by
  simp [pending, waiting, SerialQueue.enqueue, chain, Reaction.task]

/-- The promise of a task is pending until the task has ended. -/
theorem Serves.outcome_of_pending (h : Serves Q stage ts) {x : τ × ℕ} (hx : x ∈ Q.pending) :
    Q.outcome x.2 = none := by
  unfold pending waiting at hx
  cases h with
  | idle hw _ hrun hrs =>
    rw [hrun, hrs, tasks_behind] at hx
    exact hw.pending _ (lt_target _ _ hx)
  | running hw ho ho' hrun hrs =>
    rw [hrun, hrs, List.filterMap_cons, tasks_behind] at hx
    rcases List.mem_cons.1 hx with rfl | hx
    · exact ho
    · exact hw.pending _ (lt_target _ _ hx)
  | settled hw _ _ hrun hrs =>
    rw [hrun, hrs, List.filterMap_cons, tasks_behind] at hx
    exact hw.pending _ (lt_target _ _ hx)

theorem Serves.outcome_of_task (h : Serves Q stage ts) (ht : Q.task p = some t) :
    Q.outcome p = none :=
  h.outcome_of_pending (x := (t, p)) (by simp [(h.finish ht (.ok ())).2.1])

/-- The end of a task changes no outcome that was there. -/
theorem Serves.outcome_finish (h : Serves Q stage ts) (ht : Q.task p = some t) (o : Except ε Unit)
    {q : ℕ} (hq : (Q.outcome q).isSome) : (Q.finish p o).outcome q = Q.outcome q := by
  rw [(h.finish ht o).2.2.2, if_neg]
  rintro rfl
  rw [h.outcome_of_task ht] at hq
  cases hq

theorem nodup_targets : ∀ (b : ℕ) (ts : List τ), ((targets b ts).map Prod.snd).Nodup
  | _, [] => List.nodup_nil
  | b, t :: ts => by
    refine List.nodup_cons.2 ⟨fun hmem => ?_, nodup_targets (b + 2) ts⟩
    obtain ⟨x, hx, hp⟩ := List.mem_map.1 hmem
    have hlt := lt_target _ _ hx
    omega

theorem Serves.nodup (h : Serves Q stage ts) : (Q.pending.map Prod.snd).Nodup := by
  unfold pending Promises.waiting
  cases h with
  | @idle b _ _ _ hrun hrs =>
    rw [hrun, hrs, tasks_behind]
    exact nodup_targets b ts
  | @running r t _ _ _ _ hrun hrs =>
    rw [hrun, hrs, List.filterMap_cons, tasks_behind]
    refine List.nodup_cons.2 ⟨fun hmem => ?_, nodup_targets (r + 1) ts⟩
    obtain ⟨x, hx, hp⟩ := List.mem_map.1 hmem
    have hlt := lt_target _ _ hx
    omega
  | @settled r _ _ _ _ _ hrun hrs =>
    rw [hrun, hrs, List.filterMap_cons, tasks_behind]
    exact nodup_targets (r + 1) ts

theorem Serves.running_idle (h : Serves Q .idle ts) : Q.running = [] := by
  cases h with
  | idle _ _ hrun => exact hrun

theorem Serves.running_settled (h : Serves Q (.settled o) ts) : Q.running = [] := by
  cases h with
  | settled _ _ _ hrun => exact hrun

theorem Serves.pending_running (h : Serves Q (.running t) ts) :
    ∃ p, Q.running = [(t, p)] ∧ Q.pending = (t, p) :: Q.waiting := by
  cases h with
  | running _ _ _ hrun => exact ⟨_, hrun, by rw [pending, hrun]; rfl⟩

end SerialQueue

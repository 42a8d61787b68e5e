import Oblivia.Lib.Promises
import Oblivia.Relay.SponsorBudget
/-!
# The queue of the sponsor's budget

`createSponsorBudget` as it runs: its state, the promise chain behind `enqueue`, and the release
functions that callers hold. Balances are read at any time and with any outcome, and handlers of
promises run when they can. The acquires settle in order, reservations are counted exactly, and a
task that ends in an error holds nothing up (`queue_sound`).
-/

namespace Oblivia

namespace Relay

/-- The tasks passed to `enqueue`: `check`, and the reading behind a release. -/
inductive Job
  | check
  | record
  deriving DecidableEq

/-- What `createSponsorBudget` holds. `acquired` are the promises its calls of `acquire` returned,
in order. A release function goes by the promise that resolved to it, and `released` are those that
have been called. -/
structure SponsorBudget where
  state : BudgetState
  queue : SerialQueue Job AcquireError
  acquired : List ℕ
  released : Finset ℕ

inductive BudgetEvent
  | acquire
  | release (p : ℕ)
  /-- A handler whose promise has settled runs. -/
  | react (reaction : Reaction Job)
  /-- `getBalance` settles for the task that settles a promise, and the task runs to its end. -/
  | balance (p today : ℕ) (outcome : Except String ℤ)

namespace SponsorBudget

def start : SponsorBudget := ⟨.initial, .start, [], ∅⟩

def acquire (b : SponsorBudget) : SponsorBudget :=
  { b with
    queue := b.queue.enqueue .check
    acquired := b.acquired ++ [b.queue.outcomes.length] }

/-- Only the first call of a release function does anything. -/
def release (b : SponsorBudget) (p : ℕ) : SponsorBudget :=
  if p ∈ b.released then b
  else
    { b with
      state := { b.state with inFlight := b.state.inFlight - 1 }
      released := insert p b.released
      queue := b.queue.enqueue .record }

/-- A task from its balance on: how it ends, and the state it leaves. -/
def finish (L : Limits) (today : ℕ) (state : BudgetState) :
    Job → Except String ℤ → Except AcquireError Unit × BudgetState
  | _, .error message => (.error (.unreadable message), state)
  | .check, .ok balance => check L today balance state
  | .record, .ok balance => (.ok (), observe today balance state)

/-- The calls that resolved. -/
def resolved (b : SponsorBudget) : List ℕ :=
  b.acquired.filter fun p => b.queue.outcome p = some (.ok ())

/-- A step, if it can happen here. -/
def step (L : Limits) (b : SponsorBudget) : BudgetEvent → Except Unit SponsorBudget
  | .acquire => .ok b.acquire
  | .release p => if p ∈ b.resolved then .ok (b.release p) else .error ()
  | .react reaction => (b.queue.react reaction).map fun queue => { b with queue := queue }
  | .balance p today outcome => match b.queue.task p with
    | some job =>
      let (result, state) := finish L today b.state job outcome
      .ok { b with state := state, queue := b.queue.finish p result }
    | none => .error ()

/-- What a step does, and when it can happen. -/
inductive Step (L : Limits) (b : SponsorBudget) : BudgetEvent → SponsorBudget → Prop
  | acquire : Step L b .acquire b.acquire
  | release {p : ℕ} : p ∈ b.resolved → Step L b (.release p) (b.release p)
  | react {reaction : Reaction Job} {queue : SerialQueue Job AcquireError} :
      b.queue.react reaction = .ok queue → Step L b (.react reaction) { b with queue := queue }
  | balance {p today : ℕ} {outcome : Except String ℤ} {job : Job} : b.queue.task p = some job →
      Step L b (.balance p today outcome) { b with
        state := (finish L today b.state job outcome).2
        queue := b.queue.finish p (finish L today b.state job outcome).1 }

variable {L : Limits} {b b' : SponsorBudget} {e : BudgetEvent} {p today : ℕ}
  {outcome : Except String ℤ} {js : List (SponsorBudget × BudgetEvent)}

theorem step_cases (h : step L b e = .ok b') : Step L b e b' := by
  unfold step at h
  split at h
  · cases h
    exact .acquire
  · split_ifs at h with hp
    cases h
    exact .release hp
  · rename_i reaction
    rcases hq : b.queue.react reaction with e | queue <;> rw [hq] at h
    · cases h
    · cases h
      exact .react hq
  · split at h
    · rename_i hp
      cases h
      exact .balance hp
    · cases h

/-- The release functions that were called in a run. -/
def releasedIn (js : List (SponsorBudget × BudgetEvent)) : Finset ℕ :=
  (js.filterMap fun p => match p.2 with
    | .release p => some p
    | _ => none).toFinset

/-- The promise of a call whose check has not ended. -/
def caller (x : Job × ℕ) : Option ℕ :=
  match x.1 with
  | .check => some x.2
  | .record => none

/-- The calls that have settled come before those whose checks are still queued, and the
reservations are those of the calls that resolved and were not released. -/
structure Sound (js : List (SponsorBudget × BudgetEvent)) (b : SponsorBudget) : Prop where
  serves : ∃ stage ts, b.queue.Serves stage ts
  order : ∃ done, b.acquired = done ++ b.queue.pending.filterMap caller
    ∧ ∀ p ∈ done, (b.queue.outcome p).isSome
  nodup : b.acquired.Nodup
  bound : ∀ p ∈ b.acquired, p < b.queue.outcomes.length
  inFlight : b.state.inFlight = b.resolved.length - b.released.card
  released : b.released = releasedIn js
  admitted : ∀ p ∈ b.released, p ∈ b.resolved

theorem sound_start : Sound [] start where
  serves := ⟨.idle, [], SerialQueue.serves_start⟩
  order := ⟨[], rfl, by simp⟩
  nodup := List.nodup_nil
  bound := by simp [start]
  inFlight := rfl
  released := rfl
  admitted := by simp [start]

theorem mem_pending_of_caller {P : List (Job × ℕ)} (h : p ∈ P.filterMap caller) :
    ∃ x ∈ P, x.2 = p := by
  obtain ⟨⟨job, p'⟩, hx, hp⟩ := List.mem_filterMap.1 h
  cases job
  · exact ⟨_, hx, Option.some.inj hp⟩
  · cases hp

/-- Whatever a step does to the promises, the calls that resolved are among those that settled. -/
theorem resolved_eq {stage : SerialQueue.Stage Job AcquireError} {ts : List Job} {done : List ℕ}
    (hserves : b.queue.Serves stage ts)
    (horder : b.acquired = done ++ b.queue.pending.filterMap caller) :
    b.resolved = done.filter fun p => b.queue.outcome p = some (.ok ()) := by
  have hnil : (b.queue.pending.filterMap caller).filter
      (fun p => b.queue.outcome p = some (.ok ())) = [] := by
    refine List.filter_eq_nil_iff.2 fun p hp => ?_
    obtain ⟨x, hx, rfl⟩ := mem_pending_of_caller hp
    simp [hserves.outcome_of_pending hx]
  rw [resolved, horder, List.filter_append, hnil, List.append_nil]

/-- A change of the promises that leaves the settled ones as they are leaves the resolved calls. -/
theorem filter_done_eq {stage : SerialQueue.Stage Job AcquireError} {ts : List Job} {done : List ℕ}
    {queue : SerialQueue Job AcquireError} (hserves : b.queue.Serves stage ts)
    (horder : b.acquired = done ++ b.queue.pending.filterMap caller)
    (hsame : ∀ p ∈ done, queue.outcome p = b.queue.outcome p) :
    (done.filter fun p => queue.outcome p = some (.ok ())) = b.resolved := by
  rw [resolved_eq hserves horder]
  exact List.filter_congr fun p hp => by simp only [hsame p hp]

theorem finish_inFlight (L : Limits) (today : ℕ) (state : BudgetState) (job : Job)
    (outcome : Except String ℤ) : (finish L today state job outcome).2.inFlight = state.inFlight
      + if job = .check ∧ (finish L today state job outcome).1 = .ok () then 1 else 0 := by
  rcases outcome with message | balance
  · simp [finish]
  · cases job
    · simp only [finish, check, true_and]
      rcases h : withinLimits L balance (observe today balance state) with e | ⟨⟨⟩⟩ <;> simp
    · simp [finish]

theorem releasedIn_append (js : List (SponsorBudget × BudgetEvent)) (b : SponsorBudget)
    (e : BudgetEvent) : releasedIn (js ++ [(b, e)]) = match e with
      | .release p => insert p (releasedIn js)
      | _ => releasedIn js := by
  cases e <;> simp [releasedIn, List.filterMap_append, Finset.union_comm]

theorem Sound.acquire (h : Sound js b) : Sound (js ++ [(b, .acquire)]) b.acquire := by
  obtain ⟨stage, ts, hserves⟩ := h.serves
  obtain ⟨done, horder, hdone⟩ := h.order
  have hout : ∀ p, b.acquire.queue.outcome p = b.queue.outcome p :=
    SerialQueue.outcome_enqueue b.queue .check
  have hserves' : b.acquire.queue.Serves stage (ts ++ [.check]) := hserves.enqueue .check
  have horder' : b.acquire.acquired = done ++ b.acquire.queue.pending.filterMap caller := by
    show b.acquired ++ _ = done ++ (b.queue.enqueue .check).pending.filterMap caller
    rw [SerialQueue.pending_enqueue, List.filterMap_append, ← List.append_assoc, ← horder]
    rfl
  have hresolved : b.acquire.resolved = b.resolved := by
    rw [resolved_eq hserves' horder', resolved_eq hserves horder]
    simp only [hout]
  have hlength : b.acquire.queue.outcomes.length = b.queue.outcomes.length + 2 := by
    simp [SponsorBudget.acquire, SerialQueue.enqueue, Promises.chain]
  refine ⟨⟨_, _, hserves'⟩, ⟨done, horder', fun p hp => hout p ▸ hdone p hp⟩, ?_, fun p hp => ?_,
    ?_, h.released.trans (releasedIn_append js b .acquire).symm, hresolved ▸ h.admitted⟩
  · refine List.nodup_append.2 ⟨h.nodup, List.nodup_singleton _, fun p hp q hq => ?_⟩
    rw [List.mem_singleton.1 hq]
    exact Nat.ne_of_lt (h.bound p hp)
  · rw [hlength]
    rcases List.mem_append.1 hp with hp | hp
    · have hlt := h.bound p hp
      omega
    · rw [List.mem_singleton.1 hp]
      omega
  · rw [hresolved]
    exact h.inFlight

theorem Sound.release (h : Sound js b) (hp : p ∈ b.resolved) :
    Sound (js ++ [(b, .release p)]) (b.release p) := by
  have hjs := releasedIn_append js b (.release p)
  unfold SponsorBudget.release
  split_ifs with hrel
  · refine ⟨h.serves, h.order, h.nodup, h.bound, h.inFlight, ?_, h.admitted⟩
    rw [hjs]
    show b.released = insert p (releasedIn js)
    rw [← h.released, Finset.insert_eq_of_mem hrel]
  · obtain ⟨stage, ts, hserves⟩ := h.serves
    obtain ⟨done, horder, hdone⟩ := h.order
    have hout := SerialQueue.outcome_enqueue b.queue .record
    have hpending : (b.queue.enqueue .record).pending.filterMap caller
        = b.queue.pending.filterMap caller := by
      rw [SerialQueue.pending_enqueue, List.filterMap_append]
      exact List.append_nil _
    have hresolved : ∀ state released, resolved { b with
        state := state, released := released, queue := b.queue.enqueue .record } = b.resolved := by
      intro state released
      simp only [resolved, hout]
    refine ⟨⟨_, _, hserves.enqueue .record⟩, ⟨done, ?_, fun p hp => hout p ▸ hdone p hp⟩, h.nodup,
      fun p hp => ?_, ?_, ?_, fun q hq => ?_⟩
    · rw [hpending]
      exact horder
    · have hlt := h.bound p hp
      simp only [SerialQueue.enqueue, Promises.chain, List.length_append]
      omega
    · rw [hresolved]
      show b.state.inFlight - 1 = b.resolved.length - ((insert p b.released).card : ℤ)
      rw [h.inFlight, Finset.card_insert_of_notMem hrel]
      omega
    · rw [hjs]
      show insert p b.released = insert p (releasedIn js)
      rw [h.released]
    · rw [hresolved]
      rcases Finset.mem_insert.1 hq with rfl | hq
      · exact hp
      · exact h.admitted q hq

theorem Sound.react (h : Sound js b) {reaction : Reaction Job}
    {queue : SerialQueue Job AcquireError} (hr : b.queue.react reaction = .ok queue) :
    Sound (js ++ [(b, .react reaction)]) { b with queue := queue } := by
  obtain ⟨stage, ts, hserves⟩ := h.serves
  obtain ⟨done, horder, hdone⟩ := h.order
  obtain ⟨hsteady, hcases⟩ := hserves.react hr
  have hserves' : ∃ stage ts, queue.Serves stage ts := by
    rcases hcases with ⟨_, _, -, -, hserves'⟩ | ⟨_, -, hserves'⟩
    · exact ⟨_, _, hserves'⟩
    · exact ⟨_, _, hserves'⟩
  have hout : ∀ p ∈ done, queue.outcome p = b.queue.outcome p := fun p hp => by
    obtain ⟨o, ho⟩ := Option.isSome_iff_exists.1 (hdone p hp)
    rw [ho]
    exact hsteady.outcome p o ho
  have horder' : b.acquired = done ++ queue.pending.filterMap caller := by
    rw [hsteady.pending]
    exact horder
  have hresolved : resolved { b with queue := queue } = b.resolved := by
    obtain ⟨stage', ts', hserves'⟩ := hserves'
    have heq := resolved_eq (b := { b with queue := queue }) hserves' horder'
    exact heq.trans (filter_done_eq hserves horder hout)
  refine ⟨hserves', ⟨done, horder', fun p hp => (hout p hp).symm ▸ hdone p hp⟩, h.nodup,
    fun p hp => hsteady.length.symm ▸ h.bound p hp, ?_,
    h.released.trans (releasedIn_append js b (.react reaction)).symm, hresolved ▸ h.admitted⟩
  rw [hresolved]
  exact h.inFlight

/-- The first queued task ends: if it was a check, its call settles. -/
theorem Sound.balance (h : Sound js b) {job : Job} (hp : b.queue.task p = some job) :
    Sound (js ++ [(b, .balance p today outcome)]) { b with
      state := (finish L today b.state job outcome).2
      queue := b.queue.finish p (finish L today b.state job outcome).1 } := by
  have hin := finish_inFlight L today b.state job outcome
  generalize (finish L today b.state job outcome).2 = state at hin ⊢
  generalize (finish L today b.state job outcome).1 = result at hin ⊢
  obtain ⟨stage, ts, hserves⟩ := h.serves
  obtain ⟨done, horder, hdone⟩ := h.order
  obtain ⟨hserves', hpending, hlength, hout⟩ := hserves.finish hp result
  have hsame : ∀ q ∈ done, (b.queue.finish p result).outcome q = b.queue.outcome q :=
    fun q hq => hserves.outcome_finish hp result (hdone q hq)
  have hself : (b.queue.finish p result).outcome p = some result := by rw [hout, if_pos rfl]
  have hlast : ((caller (job, p)).toList.filter
      fun q => (b.queue.finish p result).outcome q = some (.ok ())).length
        = if job = .check ∧ result = .ok () then 1 else 0 := by
    cases job
    · simp only [caller, Option.toList_some, List.filter_cons, hself, List.filter_nil]
      by_cases hok : result = .ok () <;> simp [hok]
    · rfl
  have horder' : b.acquired = done ++ (caller (job, p)).toList
      ++ (b.queue.finish p result).pending.filterMap caller := by
    rw [horder, hpending, List.append_assoc]
    cases job <;> rfl
  have hresolved := resolved_eq
    (b := { b with state := state, queue := b.queue.finish p result }) hserves' horder'
  rw [List.filter_append, filter_done_eq hserves horder hsame] at hresolved
  refine ⟨⟨_, _, hserves'⟩, ⟨_, horder', fun q hq => ?_⟩, h.nodup,
    fun q hq => hlength.symm ▸ h.bound q hq, ?_,
    h.released.trans (releasedIn_append js b (.balance p today outcome)).symm, fun q hq => ?_⟩
  · rcases List.mem_append.1 hq with hq | hq
    · exact hsame q hq ▸ hdone q hq
    · cases job
      · rw [List.mem_singleton.1 hq]
        exact Option.isSome_of_eq_some hself
      · cases hq
  · rw [hresolved, List.length_append, hlast]
    show state.inFlight = _ - (b.released.card : ℤ)
    rw [hin, h.inFlight]
    split_ifs <;> omega
  · rw [hresolved]
    exact List.mem_append_left _ (h.admitted q hq)

theorem Sound.step (h : Sound js b) (hs : SponsorBudget.step L b e = .ok b') :
    Sound (js ++ [(b, e)]) b' := by
  cases step_cases hs with
  | acquire => exact h.acquire
  | release hp => exact h.release hp
  | react hr => exact h.react hr
  | balance hp => exact h.balance hp

theorem sound_of_path (hp : Batch.Path (SponsorBudget.step L) start js b) : Sound js b :=
  hp.invariant Sound sound_start fun _ _ _ _ h hs => h.step hs

theorem exec_react (L : Limits) : ∀ (rs : List (Reaction Job)) (b : SponsorBudget),
    Batch.exec (SponsorBudget.step L) b (rs.map .react)
      = (Batch.exec SerialQueue.react b.queue rs).map fun queue => { b with queue := queue }
  | [], _ => rfl
  | r :: rs, b => by
    simp only [List.map_cons, Batch.exec, SponsorBudget.step]
    rcases b.queue.react r with e | queue
    · rfl
    · exact exec_react L rs { b with queue := queue }

/-- Some handlers can run, at most two, and once as many have, this task is under way. -/
def Resumes (L : Limits) (b : SponsorBudget) (x : Job × ℕ) (xs : List (Job × ℕ)) : Prop :=
  ∃ n ≤ 2, (∃ (rs : List (Reaction Job)) (b' : SponsorBudget),
      rs.length = n ∧ Batch.exec (SponsorBudget.step L) b (rs.map .react) = .ok b')
    ∧ ∀ (rs : List (Reaction Job)) (b' : SponsorBudget), rs.length = n →
      Batch.exec (SponsorBudget.step L) b (rs.map .react) = .ok b' →
      b'.queue.running = [x] ∧ b'.queue.waiting = xs ∧ b'.state = b.state

theorem Sound.resumes (h : Sound js b) (hrun : b.queue.running = []) {x : Job × ℕ}
    {xs : List (Job × ℕ)} (hw : b.queue.waiting = x :: xs) : Resumes L b x xs := by
  obtain ⟨stage, ts, hserves⟩ := h.serves
  have hstage : ∀ u, stage ≠ .running u := by
    rintro u rfl
    obtain ⟨p, hp, -⟩ := hserves.pending_running
    rw [hrun] at hp
    cases hp
  obtain ⟨base, htargets⟩ := hserves.waiting_eq
  rcases ts with _ | ⟨t, ts⟩
  · rw [hw] at htargets
    cases htargets
  · obtain ⟨n, hn, ⟨rs, queue, hlen, hexec⟩, hall⟩ := hserves.resumes hstage
    refine ⟨n, hn, ⟨rs, _, hlen, by rw [exec_react, hexec]; rfl⟩, fun rs' b' hlen' hexec' => ?_⟩
    rw [exec_react] at hexec'
    rcases hq : Batch.exec SerialQueue.react b.queue rs' with e | queue' <;> rw [hq] at hexec'
    · cases hexec'
    · cases hexec'
      obtain ⟨hserves', hpending⟩ := hall rs' queue' hlen' hq
      obtain ⟨p, hp, hcons⟩ := hserves'.pending_running
      have hold : b.queue.pending = x :: xs := by rw [Promises.pending, hrun, hw, List.nil_append]
      rw [hpending, hold] at hcons
      obtain ⟨rfl, rfl⟩ := List.cons.inj hcons
      exact ⟨hp, rfl, rfl⟩

/-- A call settles with its check. If the balance cannot be read, it rejects with that error and
nothing changes. If it is refused, nothing is reserved. -/
theorem Sound.check (h : Sound js b) (hp : b.queue.task p = some .check) :
    ∃ b', SponsorBudget.step L b (.balance p today outcome) = .ok b'
      ∧ (∀ message, outcome = .error message →
        b'.queue.outcome p = some (.error (.unreadable message)) ∧ b'.state = b.state)
      ∧ ∀ message, b'.queue.outcome p = some (.error (.paused message)) →
        b'.state.inFlight = b.state.inFlight := by
  obtain ⟨stage, ts, hserves⟩ := h.serves
  have hin := finish_inFlight L today b.state .check outcome
  have hout := (hserves.finish hp (finish L today b.state .check outcome).1).2.2.2 p
  rw [if_pos rfl] at hout
  refine ⟨_, by rw [SponsorBudget.step, hp], ?_, fun message hpaused => ?_⟩
  · rintro message rfl
    exact ⟨hout, rfl⟩
  · have hresult := Option.some.inj (hout.symm.trans hpaused)
    rw [hresult] at hin
    simpa using hin

/-- The calls settle in the order they were made. There are as many reservations as calls that
resolved less release functions that were called. A call whose balance cannot be read rejects with
that error and leaves the state as it is, a call that is refused reserves nothing, and whatever
tasks end with, the next one is run. -/
theorem queue_sound (hp : Batch.Path (SponsorBudget.step L) start js b) :
    b.acquired.Pairwise (fun p q => (b.queue.outcome q).isSome → (b.queue.outcome p).isSome)
      ∧ b.state.inFlight = b.resolved.length - (releasedIn js).card ∧ 0 ≤ b.state.inFlight
      ∧ (∀ p today outcome, b.queue.task p = some .check →
        ∃ b', SponsorBudget.step L b (.balance p today outcome) = .ok b'
          ∧ (∀ message, outcome = .error message →
            b'.queue.outcome p = some (.error (.unreadable message)) ∧ b'.state = b.state)
          ∧ ∀ message, b'.queue.outcome p = some (.error (.paused message)) →
            b'.state.inFlight = b.state.inFlight)
      ∧ ∀ x xs, b.queue.running = [] → b.queue.waiting = x :: xs → Resumes L b x xs := by
  have h := sound_of_path hp
  obtain ⟨done, horder, hdone⟩ := h.order
  obtain ⟨stage, ts, hserves⟩ := h.serves
  have hcard : b.released.card ≤ b.resolved.length :=
    (Finset.card_le_card fun p hp => List.mem_toFinset.2 (h.admitted p hp)).trans
      (List.toFinset_card_le _)
  have hin := h.inFlight
  refine ⟨?_, h.released ▸ hin, by omega, fun p today outcome => h.check,
    fun x xs hrun hw => h.resumes hrun hw⟩
  rw [horder, List.pairwise_append]
  refine ⟨List.pairwise_of_forall_mem_list fun p hp q _ _ => hdone p hp, ?_,
    fun p hp q _ _ => hdone p hp⟩
  refine List.pairwise_of_forall_mem_list fun p _ q hq hsome => ?_
  obtain ⟨x, hx, rfl⟩ := mem_pending_of_caller hq
  rw [hserves.outcome_of_pending hx] at hsome
  cases hsome

section Sample

def sampleLimits : Limits := ⟨100, 0, 10⟩

/-- The first balance cannot be read; the second call resolves, and is released twice. -/
def sampleEvents : List BudgetEvent :=
  [.acquire, .acquire, .react ⟨0, .call .check, 1⟩, .balance 1 0 (.error "rpc down"),
    .react ⟨1, .ignore, 2⟩, .react ⟨2, .call .check, 3⟩, .balance 3 0 (.ok 1000), .release 3,
    .release 3]

theorem queue_sound_sample :
    ∃ b, Batch.exec (SponsorBudget.step sampleLimits) start sampleEvents = .ok b
      ∧ b.state.inFlight = 0 ∧ b.resolved = [3] ∧ b.queue.running = []
      ∧ Resumes sampleLimits b (.record, 5) [] := by
  have hrun : ∃ b, Batch.exec (SponsorBudget.step sampleLimits) start sampleEvents = .ok b
      ∧ b.state.inFlight = 0 ∧ b.resolved = [3] ∧ b.queue.running = []
      ∧ b.queue.waiting = [(.record, 5)] := Batch.exists_exec (by decide +kernel)
  obtain ⟨b, hb, hin, hres, hidle, hw⟩ := hrun
  exact ⟨b, hb, hin, hres, hidle,
    (queue_sound (Batch.path_exec _ .nil hb)).2.2.2.2 _ _ hidle hw⟩

end Sample

end SponsorBudget

end Relay

end Oblivia

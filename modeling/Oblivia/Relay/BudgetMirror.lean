import Oblivia.Relay.BudgetQueue
/-!
# The promise chain and the list of tasks

Beside a wallet that its readings are taken of, the promise chain does what the sponsor's list of
tasks does, step by step (`Mirrors.step`). So every run of the chain is mirrored by a run of the
sponsor in the same surroundings (`Beside.exists_path`), and what holds of all of these holds of
the chain.
-/

namespace Oblivia

namespace Relay

namespace SponsorBudget

variable {L : Limits} {b b' : SponsorBudget} {e : BudgetEvent} {p today : ℕ}
  {outcome : Except String ℤ} {js : List (SponsorBudget × BudgetEvent)}

def toTask : Job × ℕ → Task
  | (.check, p) => .check p
  | (.record, _) => .record

/-- What the chain reads and does not change: the day, the wallet, and the balance that is being
read. -/
structure Surroundings where
  today : ℕ
  wallet : Wallet
  reading : Reading

def surroundings (m : Sponsor) : Surroundings := ⟨m.today, m.wallet, m.reading⟩

/-- The reading after a step of the chain: none unless a task is under way, and asked for when the
task starts. -/
def readingAfter (b b' : SponsorBudget) (reading : Reading) : Reading :=
  if b'.queue.running = [] then .idle
  else if b.queue.running = [] then .asked else reading

/-- The sponsor's list of tasks is what the chain has still to do, and a balance is being read while
a task is under way. -/
structure Mirrors (b : SponsorBudget) (m : Sponsor) : Prop where
  state : m.state = b.state
  acquired : m.acquired = b.acquired
  settled : ∀ p o, (p, o) ∈ m.settled ↔ p ∈ b.acquired ∧ b.queue.outcome p = some o
  queue : m.queue = b.queue.pending.map toTask
  active : ∀ p, p ∈ m.active ↔ p ∈ b.resolved ∧ p ∉ b.released
  reading : m.reading = .idle ↔ b.queue.running = []

variable {m m' : Sponsor}

theorem mirrors_start (balance today : ℕ) : Mirrors start (Sponsor.start balance today) where
  state := rfl
  acquired := rfl
  settled := by simp [start, Sponsor.start]
  queue := rfl
  active := by simp [start, Sponsor.start, resolved]
  reading := by simp [start, Sponsor.start, SerialQueue.start]

theorem mem_resolved : p ∈ b.resolved ↔ p ∈ b.acquired ∧ b.queue.outcome p = some (.ok ()) := by
  simp [resolved]

/-- A step that neither starts nor ends a task leaves the surroundings as they are. -/
theorem Mirrors.surroundings_eq (h : Mirrors b m) (hrun : b'.queue.running = b.queue.running) :
    surroundings m = { surroundings m with reading := readingAfter b b' m.reading } := by
  unfold readingAfter
  split_ifs with hidle' hidle
  · exact congrArg _ (h.reading.2 (hrun ▸ hidle'))
  · exact absurd (hrun.trans hidle) hidle'
  · rfl

theorem Mirrors.acquire (h : Mirrors b m) (hb : Sound js b) :
    ∃ m', Sponsor.step L m (.acquire b.queue.outcomes.length) = .ok m' ∧ Mirrors b.acquire m'
      ∧ surroundings m'
        = { surroundings m with reading := readingAfter b b.acquire m.reading } := by
  have hnew : b.queue.outcomes.length ∉ b.acquired := fun hmem =>
    absurd (hb.bound _ hmem) (Nat.lt_irrefl _)
  have hnone : b.queue.outcome b.queue.outcomes.length = none := by simp [Promises.outcome]
  have hout := SerialQueue.outcome_enqueue b.queue .check
  have hmem : ∀ p o, p ∈ b.acquired ++ [b.queue.outcomes.length] ∧ b.queue.outcome p = some o
      ↔ p ∈ b.acquired ∧ b.queue.outcome p = some o := by
    intro p o
    constructor
    · rintro ⟨hp, ho⟩
      refine ⟨?_, ho⟩
      rcases List.mem_append.1 hp with hp | hp
      · exact hp
      · rw [List.mem_singleton.1 hp, hnone] at ho
        cases ho
    · rintro ⟨hp, ho⟩
      exact ⟨List.mem_append_left _ hp, ho⟩
  refine ⟨m.acquire b.queue.outcomes.length, if_neg (h.acquired ▸ hnew), ⟨h.state, ?_,
    fun p o => ?_, ?_, fun p => ?_, h.reading⟩, h.surroundings_eq rfl⟩
  · exact congrArg (· ++ _) h.acquired
  · show _ ↔ _ ∧ (b.queue.enqueue .check).outcome p = _
    rw [hout]
    exact (h.settled p o).trans (hmem p o).symm
  · show m.queue ++ _ = (b.queue.enqueue .check).pending.map toTask
    rw [SerialQueue.pending_enqueue, List.map_append, h.queue]
    rfl
  · have hres : p ∈ b.acquire.resolved ↔ p ∈ b.resolved := by
      rw [mem_resolved, mem_resolved]
      show _ ∧ (b.queue.enqueue .check).outcome p = _ ↔ _
      rw [hout]
      exact hmem p _
    rw [hres]
    exact h.active p

theorem Mirrors.release (h : Mirrors b m) (hp : p ∈ b.resolved) :
    ∃ m', Sponsor.step L m (.release p) = .ok m' ∧ Mirrors (b.release p) m'
      ∧ surroundings m'
        = { surroundings m with reading := readingAfter b (b.release p) m.reading } := by
  have hadm : m.Admitted p := (h.settled p _).2 (mem_resolved.1 hp)
  have hact : p ∈ m.active ↔ p ∉ b.released := (h.active p).trans (and_iff_right hp)
  refine ⟨m.release p, if_pos hadm, ?_⟩
  unfold Sponsor.release SponsorBudget.release
  by_cases hrel : p ∈ b.released
  · rw [if_neg fun hmem => hact.1 hmem hrel, if_pos hrel]
    exact ⟨h, h.surroundings_eq rfl⟩
  · rw [if_pos (hact.2 hrel), if_neg hrel]
    have hout := SerialQueue.outcome_enqueue b.queue .record
    refine ⟨⟨by rw [h.state], h.acquired, fun q o => ?_, ?_, fun q => ?_, h.reading⟩,
      h.surroundings_eq rfl⟩
    · show _ ↔ _ ∧ (b.queue.enqueue .record).outcome q = _
      rw [hout]
      exact h.settled q o
    · show m.queue ++ _ = (b.queue.enqueue .record).pending.map toTask
      rw [SerialQueue.pending_enqueue, List.map_append, h.queue]
      rfl
    · rw [mem_resolved]
      show q ∈ m.active.erase p ↔ (_ ∧ (b.queue.enqueue .record).outcome q = _)
        ∧ q ∉ insert p b.released
      rw [hout, Finset.mem_erase, h.active, mem_resolved, Finset.mem_insert, not_or]
      exact and_left_comm

/-- A handler that starts a task asks for a balance, and any other handler does nothing that can be
seen. -/
theorem Mirrors.react (h : Mirrors b m) (hb : Sound js b) {reaction : Reaction Job}
    {queue : SerialQueue Job AcquireError} (hr : b.queue.react reaction = .ok queue) :
    ∃ es m', Batch.exec (Sponsor.step L) m es = .ok m' ∧ Mirrors { b with queue := queue } m'
      ∧ surroundings m' = { surroundings m with
        reading := readingAfter b { b with queue := queue } m.reading } := by
  obtain ⟨stage, ts, hserves⟩ := hb.serves
  have hb' := hb.react hr
  obtain ⟨hsteady, hcases⟩ := hserves.react hr
  have hsame : ∀ p ∈ b.acquired, queue.outcome p = b.queue.outcome p := by
    intro p hp
    rcases ho : b.queue.outcome p with _ | o
    · obtain ⟨done, horder, hdone⟩ := hb.order
      rw [horder] at hp
      rcases List.mem_append.1 hp with hp | hp
      · have hsome := hdone p hp
        rw [ho] at hsome
        cases hsome
      · obtain ⟨x, hx, rfl⟩ := mem_pending_of_caller hp
        obtain ⟨stage', ts', hserves'⟩ := hb'.serves
        exact hserves'.outcome_of_pending (hsteady.pending.symm ▸ hx)
    · exact hsteady.outcome p o ho
  have hout : ∀ p o, p ∈ b.acquired ∧ queue.outcome p = some o
      ↔ p ∈ b.acquired ∧ b.queue.outcome p = some o := fun p o =>
    and_congr_right fun hp => by rw [hsame p hp]
  have hmirror : ∀ reading, (reading = .idle ↔ queue.running = []) →
      Mirrors { b with queue := queue } { m with reading := reading } := by
    intro reading hreading
    refine ⟨h.state, h.acquired, fun p o => (h.settled p o).trans (hout p o).symm, ?_, fun p => ?_,
      hreading⟩
    · rw [hsteady.pending]
      exact h.queue
    · rw [mem_resolved]
      exact (h.active p).trans (and_congr_left' (mem_resolved.trans (hout p _).symm))
  rcases hcases with ⟨t, ts', rfl, rfl, hserves'⟩ | ⟨o, rfl, hserves'⟩
  · obtain ⟨p, hrun, hpending⟩ := hserves'.pending_running
    have hidle : m.reading = .idle := h.reading.2 hserves.running_idle
    have hne : m.queue ≠ [] := by
      rw [h.queue, ← hsteady.pending, hpending]
      exact List.cons_ne_nil _ _
    refine ⟨[.ask], _, Batch.exec_cons_ok.2 ⟨{ m with reading := .asked }, ?_, rfl⟩,
      hmirror .asked (by simp [hrun]), ?_⟩
    · rcases hq : m.queue with _ | ⟨task, tasks⟩
      · exact absurd hq hne
      · simp [Sponsor.step, hq, hidle]
    · simp [surroundings, readingAfter, hrun, hserves.running_idle]
  · have hrun : queue.running = b.queue.running := by
      rw [hserves.running_settled, hserves'.running_idle]
    refine ⟨[], m, rfl, hmirror m.reading ?_, h.surroundings_eq hrun⟩
    rw [h.reading, hrun]

theorem Sound.mem_acquired (hb : Sound js b) {job : Job} (hp : b.queue.task p = some job) :
    p ∈ b.acquired ↔ job = .check := by
  obtain ⟨stage, ts, hserves⟩ := hb.serves
  obtain ⟨done, horder, hdone⟩ := hb.order
  have hpending := (hserves.finish hp (.ok ())).2.1
  have hnodup := hserves.nodup
  rw [hpending, List.map_cons, List.nodup_cons] at hnodup
  rw [horder, hpending, List.mem_append]
  cases job
  · simp [caller]
  · show p ∈ done ∨ p ∈ (b.queue.finish p (.ok ())).pending.filterMap caller ↔ _
    simp only [reduceCtorEq, iff_false, not_or]
    refine ⟨fun hp' => ?_, fun hp' => hnodup.1 ?_⟩
    · have hsome := hdone p hp'
      rw [hserves.outcome_of_task hp] at hsome
      cases hsome
    · obtain ⟨x, hx, hxp⟩ := mem_pending_of_caller hp'
      exact List.mem_map.2 ⟨x, hx, hxp⟩

/-- A task that ends settles its call, if it was a check, and no other. -/
theorem Sound.settled_finish (hb : Sound js b) {job : Job} (hp : b.queue.task p = some job)
    (result o : Except AcquireError Unit) (q : ℕ) :
    q ∈ b.acquired ∧ (b.queue.finish p result).outcome q = some o
      ↔ (q ∈ b.acquired ∧ b.queue.outcome q = some o) ∨ job = .check ∧ q = p ∧ o = result := by
  obtain ⟨stage, ts, hserves⟩ := hb.serves
  rw [(hserves.finish hp result).2.2.2]
  by_cases hq : q = p
  · subst hq
    simp [hserves.outcome_of_task hp, hb.mem_acquired hp, eq_comm]
  · simp [hq]

/-- What the end of a task leaves mirrors what it leaves on the chain. -/
theorem Mirrors.finish (h : Mirrors b m) (hb : Sound js b) {job : Job}
    (hp : b.queue.task p = some job) {result : Except AcquireError Unit} {state : BudgetState}
    (hstate : m'.state = state) (hacquired : m'.acquired = m.acquired)
    (hqueue : m'.queue = m.queue.tail) (hreading : m'.reading = .idle)
    (hsettled : m'.settled = m.settled ++ if job = .check then [(p, result)] else [])
    (hactive : m'.active = if job = .check ∧ result = .ok () then insert p m.active
      else m.active) :
    Mirrors { b with state := state, queue := b.queue.finish p result } m' := by
  obtain ⟨stage, ts, hserves⟩ := hb.serves
  obtain ⟨hserves', hpending, -, -⟩ := hserves.finish hp result
  refine ⟨hstate, hacquired.trans h.acquired, fun q o => ?_, ?_, fun q => ?_, ?_⟩
  · refine Iff.trans ?_ (hb.settled_finish hp result o q).symm
    rw [hsettled, List.mem_append, h.settled]
    cases job <;> simp
  · rw [hqueue, h.queue, hpending]
    rfl
  · rw [mem_resolved]
    refine Iff.trans ?_ (and_congr_left' (hb.settled_finish hp result _ q)).symm
    have hrel : p ∉ b.released := fun hrel => by
      have hok := (mem_resolved.1 (hb.admitted p hrel)).2
      rw [hserves.outcome_of_task hp] at hok
      cases hok
    rw [hactive]
    split_ifs with hc
    · rw [Finset.mem_insert, h.active, mem_resolved]
      refine ⟨?_, ?_⟩
      · rintro (rfl | ⟨hq, hr⟩)
        · exact ⟨.inr ⟨hc.1, rfl, hc.2.symm⟩, hrel⟩
        · exact ⟨.inl hq, hr⟩
      · rintro ⟨hq | ⟨-, hq, -⟩, hr⟩
        · exact .inr ⟨hq, hr⟩
        · exact .inl hq
    · rw [h.active, mem_resolved]
      refine and_congr_left' ⟨.inl, ?_⟩
      rintro (hq | ⟨hjob, -, hok⟩)
      · exact hq
      · exact absurd ⟨hjob, hok.symm⟩ hc
  · exact ⟨fun _ => hserves'.running_settled, fun _ => hreading⟩

theorem step_reject_check {queue : List Task} {message : String}
    (hq : m.queue = .check p :: queue) (hbusy : m.reading ≠ .idle) :
    Sponsor.step L m (.reject message)
      = .ok ((m.next queue).settle p (.error (.unreadable message))) := by
  unfold Sponsor.step
  rw [hq]
  cases hr : m.reading with
  | idle => exact absurd hr hbusy
  | _ => rfl

theorem step_reject_record {queue : List Task} {message : String}
    (hq : m.queue = .record :: queue) (hbusy : m.reading ≠ .idle) :
    Sponsor.step L m (.reject message) = .ok (m.next queue) := by
  unfold Sponsor.step
  rw [hq]
  cases hr : m.reading with
  | idle => exact absurd hr hbusy
  | _ => rfl

/-- A task ends as its counterpart does, if it has read the wallet. -/
theorem Mirrors.balance (h : Mirrors b m) (hb : Sound js b) {job : Job}
    (hp : b.queue.task p = some job)
    (hread : ∀ balance, outcome = .ok balance →
      today = m.today ∧ ∃ w, m.reading = .answered w ∧ (w.balance : ℤ) = balance) :
    ∃ e m', Sponsor.step L m e = .ok m' ∧ Mirrors { b with
      state := (SponsorBudget.finish L today b.state job outcome).2
      queue := b.queue.finish p (SponsorBudget.finish L today b.state job outcome).1 } m'
      ∧ surroundings m' = { surroundings m with reading := .idle } := by
  obtain ⟨stage, ts, hserves⟩ := hb.serves
  have hpending := (hserves.finish hp (.ok ())).2.1
  have hbusy : m.reading ≠ .idle := by
    obtain rfl := hserves.task_eq_some hp
    obtain ⟨p', hrun, -⟩ := hserves.pending_running
    rw [Ne, h.reading, hrun]
    exact List.cons_ne_nil _ _
  have hqueue : m.queue = toTask (job, p) :: m.queue.tail := by
    rw [h.queue, hpending]
    rfl
  rcases outcome with message | balance
  · cases job
    · refine ⟨.reject message, (m.next m.queue.tail).settle p (.error (.unreadable message)), ?_,
        h.finish hb hp h.state rfl rfl rfl rfl ?_, rfl⟩
      · exact step_reject_check hqueue hbusy
      · simp [SponsorBudget.finish, Sponsor.settle, Sponsor.next]
    · exact ⟨.reject message, m.next m.queue.tail, step_reject_record hqueue hbusy,
        h.finish hb hp h.state rfl rfl rfl (List.append_nil _).symm rfl, rfl⟩
  · obtain ⟨rfl, w, hw, rfl⟩ := hread balance rfl
    cases job
    · refine ⟨.apply, m.applyCheck L p m.queue.tail w, ?_, h.finish hb hp ?_ rfl rfl rfl ?_ ?_,
        rfl⟩
      · unfold Sponsor.step
        rw [hqueue, hw]
        rfl
      · show (check L m.today w.balance m.state).2 = _
        rw [h.state]
        rfl
      · show m.settled ++ [(p, (check L m.today w.balance m.state).1)] = _
        rw [h.state]
        rfl
      · show (if (check L m.today w.balance m.state).1 = .ok () then _ else _) = _
        rw [h.state]
        simp [SponsorBudget.finish]
    · refine ⟨.apply, m.applyRecord m.queue.tail w, ?_, h.finish hb hp ?_ rfl rfl rfl
        (List.append_nil _).symm rfl, rfl⟩
      · unfold Sponsor.step
        rw [hqueue, hw]
        rfl
      · show observe m.today w.balance m.state = _
        rw [h.state]
        rfl

/-- A balance that a step of the chain reads has been read of the wallet, on the day it is. -/
def Reads (e : BudgetEvent) (s : Surroundings) : Prop :=
  ∀ p today balance, e = .balance p today (.ok balance) →
    today = s.today ∧ ∃ w, s.reading = .answered w ∧ (w.balance : ℤ) = balance

/-- What the chain does in its surroundings, the sponsor's list of tasks does. -/
theorem Mirrors.step (h : Mirrors b m) (hb : Sound js b)
    (hs : SponsorBudget.step L b e = .ok b') (hread : Reads e (surroundings m)) :
    ∃ es m', Batch.exec (Sponsor.step L) m es = .ok m' ∧ Mirrors b' m'
      ∧ surroundings m' = { surroundings m with reading := readingAfter b b' m.reading } := by
  have hone : ∀ {e : Event} {m' : Sponsor}, Sponsor.step L m e = .ok m' →
      Batch.exec (Sponsor.step L) m [e] = .ok m' := fun he =>
    Batch.exec_cons_ok.2 ⟨_, he, rfl⟩
  cases step_cases hs with
  | acquire =>
    obtain ⟨m', hm, hmirrors⟩ := h.acquire hb
    exact ⟨_, m', hone hm, hmirrors⟩
  | release hp =>
    obtain ⟨m', hm, hmirrors⟩ := h.release hp
    exact ⟨_, m', hone hm, hmirrors⟩
  | react hr => exact h.react hb hr
  | @balance p today outcome job hp =>
    obtain ⟨e, m', hm, hmirrors, hsame⟩ := h.balance hb hp fun balance ho =>
      hread p today balance (congrArg (BudgetEvent.balance p today) ho)
    have hidle : m'.reading = .idle := congrArg Surroundings.reading hsame
    refine ⟨_, m', hone hm, hmirrors, ?_⟩
    rw [hsame, readingAfter, if_pos (hmirrors.reading.1 hidle)]

/-- The sponsor in other surroundings. -/
def moved (m : Sponsor) (s : Surroundings) : Sponsor :=
  { m with today := s.today, wallet := s.wallet, reading := s.reading }

/-- What happens to the surroundings does not touch the chain. -/
theorem Mirrors.moved (h : Mirrors b m) {s : Surroundings}
    (hreading : s.reading = .idle ↔ m.reading = .idle) : Mirrors b (moved m s) where
  state := h.state
  acquired := h.acquired
  settled := h.settled
  queue := h.queue
  active := h.active
  reading := hreading.trans h.reading

theorem Mirrors.exists_path {balance : ℕ} {ks : List (Sponsor × Event)} {s : Surroundings}
    {e : Event} (h : Mirrors b m)
    (hm : Batch.Path (Sponsor.step L) (Sponsor.start balance today) ks m)
    (hstep : Sponsor.step L m e = .ok (SponsorBudget.moved m s))
    (hreading : s.reading = .idle ↔ m.reading = .idle) : ∃ ks m',
      Batch.Path (Sponsor.step L) (Sponsor.start balance today) ks m' ∧ Mirrors b m'
        ∧ surroundings m' = s :=
  ⟨_, _, hm.snoc hstep, h.moved hreading, rfl⟩

/-- Runs of the chain in their surroundings: a request that resolved may withdraw, deposits come in,
the day ends, and what is asked for is answered with the wallet as it is. -/
inductive Beside (L : Limits) (balance today : ℕ) :
    List (SponsorBudget × BudgetEvent) → SponsorBudget → Surroundings → Prop
  | start : Beside L balance today [] .start (surroundings (Sponsor.start balance today))
  | chain {js : List (SponsorBudget × BudgetEvent)} {b b' : SponsorBudget} {s : Surroundings}
      {e : BudgetEvent} : Beside L balance today js b s → SponsorBudget.step L b e = .ok b' →
      Reads e s → Beside L balance today (js ++ [(b, e)]) b'
        { s with reading := readingAfter b b' s.reading }
  | answer {js : List (SponsorBudget × BudgetEvent)} {b : SponsorBudget} {s : Surroundings} :
      Beside L balance today js b s → s.reading = .asked →
      Beside L balance today js b { s with reading := .answered s.wallet }
  | withdraw {js : List (SponsorBudget × BudgetEvent)} {b : SponsorBudget} {s : Surroundings}
      {r x : ℕ} : Beside L balance today js b s → r ∈ b.resolved → x ≤ s.wallet.balance →
      Beside L balance today js b { s with wallet := s.wallet.withdraw r x }
  | deposit {js : List (SponsorBudget × BudgetEvent)} {b : SponsorBudget} {s : Surroundings}
      {x : ℕ} : Beside L balance today js b s →
      Beside L balance today js b
        { s with wallet := { s.wallet with balance := s.wallet.balance + x } }
  | midnight {js : List (SponsorBudget × BudgetEvent)} {b : SponsorBudget} {s : Surroundings} :
      Beside L balance today js b s → Beside L balance today js b { s with today := s.today + 1 }

/-- Every run of the chain in its surroundings is one of the sponsor. -/
theorem Beside.exists_path {balance : ℕ} {s : Surroundings} (h : Beside L balance today js b s) :
    Batch.Path (SponsorBudget.step L) .start js b ∧ ∃ ks m,
      Batch.Path (Sponsor.step L) (Sponsor.start balance today) ks m ∧ Mirrors b m
        ∧ surroundings m = s := by
  induction h with
  | start => exact ⟨.nil, [], _, .nil, mirrors_start balance today, rfl⟩
  | chain _ hstep hread ih =>
    obtain ⟨hpath, ks, m, hm, hmirrors, rfl⟩ := ih
    obtain ⟨es, m', hexec, hmirrors', hs⟩ := hmirrors.step (sound_of_path hpath) hstep hread
    exact ⟨hpath.snoc hstep, _, m', Batch.path_exec es hm hexec, hmirrors', hs⟩
  | answer _ hasked ih =>
    obtain ⟨hpath, ks, m, hm, hmirrors, rfl⟩ := ih
    have hreading : m.reading = .asked := hasked
    refine ⟨hpath, hmirrors.exists_path (e := .answer) hm ?_ (by simp [hreading])⟩
    simp only [Sponsor.step, hreading]
    rfl
  | @withdraw _ b _ r x _ hr hx ih =>
    obtain ⟨hpath, ks, m, hm, hmirrors, rfl⟩ := ih
    have hadm : m.Admitted r := (hmirrors.settled r _).2 (mem_resolved.1 hr)
    exact ⟨hpath, hmirrors.exists_path (e := .withdraw r x) hm (if_pos ⟨hadm, hx⟩) Iff.rfl⟩
  | @deposit _ _ _ x _ ih =>
    obtain ⟨hpath, ks, m, hm, hmirrors, rfl⟩ := ih
    exact ⟨hpath, hmirrors.exists_path (e := .deposit x) hm rfl Iff.rfl⟩
  | midnight _ ih =>
    obtain ⟨hpath, ks, m, hm, hmirrors, rfl⟩ := ih
    exact ⟨hpath, hmirrors.exists_path (e := .midnight) hm rfl Iff.rfl⟩

end SponsorBudget

end Relay

end Oblivia

import Mathlib.Data.Finset.Card
import Oblivia.Lib.Batch
import Oblivia.Lib.Reservations
import Oblivia.Lib.Rounding
/-!
# The sponsor's budget

What the sponsor wallet may spend: the check of a balance reading, and the queue that applies the
readings one at a time, with the wallet it reads. A reading is the wallet as it was at some moment
since it was asked for, so requests withdraw and release while it is under way. Amounts are doubles:
every sum is rounded, which shows above `2 ^ 53` lamports only (`rounded_cases`).
-/

namespace Oblivia

namespace Relay

structure Limits where
  dailyLamports : ℕ
  floorLamports : ℕ
  reserveLamports : ℕ
  deriving DecidableEq

/-- The `state` of a budget; days are numbered. -/
structure BudgetState where
  day : Option ℕ
  baseline : ℤ
  lastBalance : ℤ
  inFlight : ℤ
  deriving DecidableEq

def BudgetState.initial : BudgetState := ⟨none, 0, 0, 0⟩

/-- What an operation on numbers makes of its exact result, of an integer one. -/
def rounded (n : ℤ) : ℤ := FloatFormat.binary64.roundInt n

/-- Of an amount it is the nearest double. -/
theorem rounded_natCast (k : ℕ) : (rounded k : ℚ) = FloatFormat.binary64.nearest k :=
  (FloatFormat.nearest_natCast (by decide) (by decide) k).symm

theorem rounded_cases (n : ℤ) : (-2 ^ 53 ≤ n ∧ n ≤ 2 ^ 53 ∧ rounded n = n)
    ∨ (2 ^ 53 < n ∧ 2 ^ 53 ≤ rounded n) ∨ (n < -2 ^ 53 ∧ rounded n ≤ -2 ^ 53) := by
  rcases FloatFormat.roundInt_cases (F := FloatFormat.binary64) (by decide) n with h | h
  · have hn : n.natAbs ≤ 2 ^ 53 := h.1
    exact .inl ⟨by omega, by omega, h.2⟩
  · exact .inr h

theorem rounded_of_le {n : ℤ} (h : -2 ^ 53 ≤ n) (h' : n ≤ 2 ^ 53) : rounded n = n :=
  FloatFormat.roundInt_of_le (by decide) (by show n.natAbs ≤ 2 ^ 53; omega)

/-- A balance reading on a day: the day's first is its baseline, and a rise moves the baseline. -/
def observe (today : ℕ) (balance : ℤ) (state : BudgetState) : BudgetState :=
  let state :=
    if state.day ≠ some today then { state with day := some today, baseline := balance }
    else if balance > state.lastBalance then
      { state with baseline := rounded (state.baseline + rounded (balance - state.lastBalance)) }
    else state
  { state with lastBalance := balance }

/-- Why an `acquire` rejects: a pause, or what the balance reading rejected with. -/
inductive AcquireError
  | paused (message : String)
  | unreadable (message : String)
  deriving DecidableEq

/-- The two limits, for a balance and the reservations there are. -/
def withinLimits (L : Limits) (balance : ℤ) (state : BudgetState) : Except AcquireError Unit :=
  let reserved := rounded (state.inFlight * L.reserveLamports)
  let spent := max 0 (rounded (state.baseline - balance))
  if rounded (rounded (balance - reserved) - L.reserveLamports) < L.floorLamports then
    .error (.paused "Sponsored signing is paused: the relay wallet is low on funds.")
  else if rounded (rounded (spent + reserved) + L.reserveLamports) > L.dailyLamports then
    .error (.paused
      "Sponsored signing is paused: today's budget is used up. Try again tomorrow (UTC).")
  else .ok ()

/-- `check`, from its balance reading on. -/
def check (L : Limits) (today : ℕ) (balance : ℤ) (state : BudgetState) :
    Except AcquireError Unit × BudgetState :=
  let state := observe today balance state
  match withinLimits L balance state with
  | .ok () => (.ok (), { state with inFlight := state.inFlight + 1 })
  | .error e => (.error e, state)

/-- The wallet: its balance, and what has been withdrawn, by each request and in total. -/
structure Wallet where
  balance : ℕ
  total : ℕ
  spent : ℕ → ℕ

def Wallet.withdraw (w : Wallet) (r x : ℕ) : Wallet where
  balance := w.balance - x
  total := w.total + x
  spent := Function.update w.spent r (w.spent r + x)

/-- The tasks of the queue: the check of an `acquire`, the reading behind a release. -/
inductive Task
  | check (r : ℕ)
  | record
  deriving DecidableEq

/-- The request whose `acquire` a task serves. -/
def Task.caller : Task → Option ℕ
  | check r => some r
  | record => none

/-- The balance reading of the first task. -/
inductive Reading
  | idle
  | asked
  | answered (wallet : Wallet)

/-- A budget with its wallet. `acquired` are the calls of `acquire` and `settled` those that have
settled, in order; `active` the requests admitted and not released; `opening` what had been
withdrawn when the first reading of `state.day` was taken. -/
structure Sponsor where
  state : BudgetState
  queue : List Task
  reading : Reading
  acquired : List ℕ
  settled : List (ℕ × Except AcquireError Unit)
  active : Finset ℕ
  today : ℕ
  wallet : Wallet
  opening : ℕ

def Sponsor.start (balance today : ℕ) : Sponsor where
  state := .initial
  queue := []
  reading := .idle
  acquired := []
  settled := []
  active := ∅
  today := today
  wallet := ⟨balance, 0, fun _ => 0⟩
  opening := 0

inductive Event
  | acquire (r : ℕ)
  | ask
  | answer
  | apply
  | reject (message : String)
  | release (r : ℕ)
  | withdraw (r amount : ℕ)
  | deposit (amount : ℕ)
  | midnight
  deriving DecidableEq

namespace Sponsor

/-- The request was admitted, whether or not it has been released. -/
def Admitted (m : Sponsor) (r : ℕ) : Prop := (r, .ok ()) ∈ m.settled

instance (m : Sponsor) (r : ℕ) : Decidable (m.Admitted r) := inferInstanceAs (Decidable (_ ∈ _))

def acquire (m : Sponsor) (r : ℕ) : Sponsor :=
  { m with acquired := m.acquired ++ [r], queue := m.queue ++ [.check r] }

/-- The release function of an admitted request: only its first call does anything. -/
def release (m : Sponsor) (r : ℕ) : Sponsor :=
  if r ∈ m.active then
    { m with
      state := { m.state with inFlight := m.state.inFlight - 1 }
      active := m.active.erase r
      queue := m.queue ++ [.record] }
  else m

/-- The first task is done, with these tasks behind it. -/
def next (m : Sponsor) (queue : List Task) : Sponsor := { m with queue := queue, reading := .idle }

/-- What had been withdrawn at the first reading of the day, once this reading is applied. -/
def openingAfter (m : Sponsor) (w : Wallet) : ℕ :=
  if m.state.day ≠ some m.today then w.total else m.opening

def applyRecord (m : Sponsor) (queue : List Task) (w : Wallet) : Sponsor :=
  { m.next queue with
    state := observe m.today w.balance m.state
    opening := m.openingAfter w }

def settle (m : Sponsor) (r : ℕ) (outcome : Except AcquireError Unit) : Sponsor :=
  { m with settled := m.settled ++ [(r, outcome)] }

/-- A reading applied to a check: its request becomes active if it is admitted. -/
def applyCheck (L : Limits) (m : Sponsor) (r : ℕ) (queue : List Task) (w : Wallet) : Sponsor :=
  let (outcome, state) := check L m.today w.balance m.state
  { (m.applyRecord queue w).settle r outcome with
    state := state
    active := if outcome = .ok () then insert r m.active else m.active }

/-- A step, if it can happen here. -/
def step (L : Limits) (m : Sponsor) : Event → Except Unit Sponsor
  | .acquire r => if r ∈ m.acquired then .error () else .ok (m.acquire r)
  | .ask => match m.queue, m.reading with
    | _ :: _, .idle => .ok { m with reading := .asked }
    | _, _ => .error ()
  | .answer => match m.reading with
    | .asked => .ok { m with reading := .answered m.wallet }
    | _ => .error ()
  | .apply => match m.queue, m.reading with
    | .check r :: queue, .answered w => .ok (m.applyCheck L r queue w)
    | .record :: queue, .answered w => .ok (m.applyRecord queue w)
    | _, _ => .error ()
  | .reject message => match m.queue, m.reading with
    | _, .idle => .error ()
    | .check r :: queue, _ => .ok ((m.next queue).settle r (.error (.unreadable message)))
    | .record :: queue, _ => .ok (m.next queue)
    | [], _ => .error ()
  | .release r => if m.Admitted r then .ok (m.release r) else .error ()
  | .withdraw r x =>
    if m.Admitted r ∧ x ≤ m.wallet.balance then .ok { m with wallet := m.wallet.withdraw r x }
    else .error ()
  | .deposit x => .ok { m with wallet := { m.wallet with balance := m.wallet.balance + x } }
  | .midnight => .ok { m with today := m.today + 1 }

/-- What a step does, and when it can happen. -/
inductive Step (L : Limits) (m : Sponsor) : Event → Sponsor → Prop
  | acquire {r : ℕ} : r ∉ m.acquired → Step L m (.acquire r) (m.acquire r)
  | ask : m.queue ≠ [] → m.reading = .idle → Step L m .ask { m with reading := .asked }
  | answer : m.reading = .asked → Step L m .answer { m with reading := .answered m.wallet }
  | applyCheck {r : ℕ} {queue : List Task} {w : Wallet} : m.queue = .check r :: queue →
      m.reading = .answered w → Step L m .apply (m.applyCheck L r queue w)
  | applyRecord {queue : List Task} {w : Wallet} : m.queue = .record :: queue →
      m.reading = .answered w → Step L m .apply (m.applyRecord queue w)
  | rejectCheck {r : ℕ} {queue : List Task} {message : String} : m.queue = .check r :: queue →
      m.reading ≠ .idle →
      Step L m (.reject message) ((m.next queue).settle r (.error (.unreadable message)))
  | rejectRecord {queue : List Task} {message : String} : m.queue = .record :: queue →
      m.reading ≠ .idle → Step L m (.reject message) (m.next queue)
  | release {r : ℕ} : m.Admitted r → Step L m (.release r) (m.release r)
  | withdraw {r x : ℕ} : m.Admitted r → x ≤ m.wallet.balance →
      Step L m (.withdraw r x) { m with wallet := m.wallet.withdraw r x }
  | deposit {x : ℕ} : Step L m (.deposit x)
      { m with wallet := { m.wallet with balance := m.wallet.balance + x } }
  | midnight : Step L m .midnight { m with today := m.today + 1 }

variable {L : Limits} {m m' : Sponsor} {e : Event}

theorem step_cases (h : step L m e = .ok m') : Step L m e m' := by
  unfold step at h
  split at h
  · split_ifs at h with hr
    cases h
    exact .acquire hr
  · split at h
    · rename_i hq hr
      cases h
      exact .ask (by simp [hq]) hr
    · cases h
  · split at h
    · rename_i hr
      cases h
      exact .answer hr
    · cases h
  · split at h
    · rename_i hq hr
      cases h
      exact .applyCheck hq hr
    · rename_i hq hr
      cases h
      exact .applyRecord hq hr
    · cases h
  · split at h
    · cases h
    · rename_i hq hr
      cases h
      exact .rejectCheck hq hr
    · rename_i hq hr
      cases h
      exact .rejectRecord hq hr
    · cases h
  · split_ifs at h with hr
    cases h
    exact .release hr
  · split_ifs at h with hr
    cases h
    exact .withdraw hr.1 hr.2
  · cases h
    exact .deposit
  · cases h
    exact .midnight

/-- The books of a budget: reservations are those of the requests admitted and not released, and the
acquires settle in the order they were made. -/
structure Orderly (m : Sponsor) : Prop where
  inFlight : m.state.inFlight = m.active.card
  order : m.acquired = m.settled.map Prod.fst ++ m.queue.filterMap Task.caller
  nodup : m.acquired.Nodup
  admitted : ∀ r ∈ m.active, m.Admitted r
  spent : ∀ r, ¬ m.Admitted r → m.wallet.spent r = 0

theorem orderly_start (balance today : ℕ) : Orderly (start balance today) where
  inFlight := rfl
  order := rfl
  nodup := List.nodup_nil
  admitted := by simp [start]
  spent := fun _ _ => rfl

/-- An acquire that has settled is out of the queue. -/
theorem Orderly.not_queued (h : Orderly m) {r : ℕ} {outcome : Except AcquireError Unit}
    (hr : (r, outcome) ∈ m.settled) : .check r ∉ m.queue := by
  intro hq
  have hnodup := h.nodup
  rw [h.order, List.nodup_append] at hnodup
  exact hnodup.2.2 r (List.mem_map.2 ⟨_, hr, rfl⟩) r (List.mem_filterMap.2 ⟨_, hq, rfl⟩) rfl

/-- The request of a task in the queue has not been admitted. -/
theorem Orderly.not_admitted (h : Orderly m) {r : ℕ} (hr : .check r ∈ m.queue) :
    ¬ m.Admitted r :=
  fun hadm => h.not_queued hadm hr

@[simp]
theorem observe_inFlight (today : ℕ) (balance : ℤ) (state : BudgetState) :
    (observe today balance state).inFlight = state.inFlight := by
  unfold observe
  split_ifs <;> rfl

/-- One more reservation. -/
def reserve (m : Sponsor) (r : ℕ) : Sponsor :=
  { m with
    state := { m.state with inFlight := m.state.inFlight + 1 }
    active := insert r m.active }

/-- A check admits its request and reserves for it, or refuses it. -/
theorem applyCheck_cases (L : Limits) (m : Sponsor) (r : ℕ) (queue : List Task) (w : Wallet) :
    (withinLimits L w.balance (observe m.today w.balance m.state) = .ok ()
      ∧ m.applyCheck L r queue w = ((m.applyRecord queue w).settle r (.ok ())).reserve r)
    ∨ ∃ error, m.applyCheck L r queue w = (m.applyRecord queue w).settle r (.error error) := by
  unfold applyCheck check
  rcases h : withinLimits L w.balance (observe m.today w.balance m.state) with error | ⟨⟨⟩⟩
  · exact .inr ⟨error, by simp [h, settle, applyRecord, next]⟩
  · exact .inl ⟨rfl, by simp [h, settle, reserve, applyRecord, next]⟩

theorem Orderly.release (h : Orderly m) (r : ℕ) : Orderly (m.release r) := by
  unfold Sponsor.release
  split_ifs with hr
  · refine ⟨?_, ?_, h.nodup, fun i hi => h.admitted i (Finset.mem_of_mem_erase hi), h.spent⟩
    · have hcard := Finset.card_erase_add_one hr
      have hin := h.inFlight
      show m.state.inFlight - 1 = ((m.active.erase r).card : ℤ)
      omega
    · rw [h.order]
      simp [Task.caller]
  · exact h

/-- The first task settles its acquire. -/
theorem Orderly.settle (h : Orderly m) {r : ℕ} {queue : List Task}
    (hq : m.queue = .check r :: queue) (outcome : Except AcquireError Unit) :
    Orderly ((m.next queue).settle r outcome) where
  inFlight := h.inFlight
  order := by
    show m.acquired = (m.settled ++ [(r, outcome)]).map Prod.fst ++ queue.filterMap Task.caller
    rw [h.order, hq]
    simp [Task.caller]
  nodup := h.nodup
  admitted i hi := List.mem_append_left _ (h.admitted i hi)
  spent i hi := h.spent i fun hadm => hi (List.mem_append_left _ hadm)

theorem Orderly.pop (h : Orderly m) {queue : List Task} (hq : m.queue = .record :: queue) :
    Orderly (m.next queue) := by
  refine ⟨h.inFlight, ?_, h.nodup, h.admitted, h.spent⟩
  show m.acquired = m.settled.map Prod.fst ++ queue.filterMap Task.caller
  rw [h.order, hq]
  rfl

theorem Orderly.observe (h : Orderly m) (balance : ℤ) (opening : ℕ) :
    Orderly { m with state := Relay.observe m.today balance m.state, opening := opening } :=
  ⟨(observe_inFlight _ _ _).trans h.inFlight, h.order, h.nodup, h.admitted, h.spent⟩

theorem Orderly.reserve (h : Orderly m) {r : ℕ} (hr : r ∉ m.active) (hadm : m.Admitted r) :
    Orderly (m.reserve r) := by
  refine ⟨?_, h.order, h.nodup, fun i hi => ?_, h.spent⟩
  · have hcard := Finset.card_insert_of_notMem hr
    have hin := h.inFlight
    show m.state.inFlight + 1 = ((insert r m.active).card : ℤ)
    omega
  · rcases Finset.mem_insert.1 hi with rfl | hi
    · exact hadm
    · exact h.admitted i hi

/-- The request of the first task is not active yet. -/
theorem Orderly.not_active (h : Orderly m) {r : ℕ} {queue : List Task}
    (hq : m.queue = .check r :: queue) : r ∉ m.active :=
  fun hact => h.not_admitted (hq ▸ List.mem_cons_self) (h.admitted r hact)

theorem Orderly.step (h : Orderly m) (hs : step L m e = .ok m') : Orderly m' := by
  cases step_cases hs with
  | @acquire r hr =>
    refine ⟨h.inFlight, ?_, ?_, h.admitted, h.spent⟩
    · show m.acquired ++ [r] = _
      rw [h.order]
      simp [Sponsor.acquire, Task.caller]
    · refine List.nodup_append.2 ⟨h.nodup, List.nodup_singleton r, fun a ha b hb => ?_⟩
      rw [List.mem_singleton.1 hb]
      exact ne_of_mem_of_not_mem ha hr
  | ask => exact ⟨h.inFlight, h.order, h.nodup, h.admitted, h.spent⟩
  | answer => exact ⟨h.inFlight, h.order, h.nodup, h.admitted, h.spent⟩
  | @applyCheck r queue w hq =>
    rcases applyCheck_cases L m r queue w with ⟨-, heq⟩ | ⟨error, heq⟩
    · rw [heq]
      exact ((h.settle hq _).observe _ _).reserve (h.not_active hq)
        (List.mem_append_right _ (by simp))
    · rw [heq]
      exact (h.settle hq _).observe _ _
  | applyRecord hq => exact (h.pop hq).observe _ _
  | rejectCheck hq => exact h.settle hq _
  | rejectRecord hq => exact h.pop hq
  | release => exact h.release _
  | @withdraw r x hadm =>
    refine ⟨h.inFlight, h.order, h.nodup, h.admitted, fun i hi => ?_⟩
    have hne : i ≠ r := fun he => hi (he ▸ hadm)
    exact (Function.update_of_ne hne _ _).trans (h.spent i hi)
  | deposit => exact ⟨h.inFlight, h.order, h.nodup, h.admitted, h.spent⟩
  | midnight => exact ⟨h.inFlight, h.order, h.nodup, h.admitted, h.spent⟩

end Sponsor

end Relay

end Oblivia

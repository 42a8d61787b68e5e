import Mathlib.Data.Int.Order.Basic
import Oblivia.Relay.BudgetQueue
/-!
# Recorded spend

The spend a budget has recorded is what its baseline is above its last balance. Within a day it is
the sum of the drops between consecutive readings, whatever rises there are between them, and only
a reading of another day resets it, as long as doubles hold the baseline exactly (`recorded_exact`).
Above that a rise is rounded, and can take from what is recorded (`recorded_rounded`). The readings
of a run of the queue make its state (`state_of_path`).
-/

namespace Oblivia

namespace Relay

/-- The UTC day of a time in milliseconds; days are numbered. -/
def utcDay (ms : ℕ) : ℕ := ms / (24 * 60 * 60 * 1000)

/-- Balance readings in order, each with the clock at which it is applied. -/
def observeAll (readings : List (ℕ × ℤ)) (state : BudgetState) : BudgetState :=
  readings.foldl (fun state r => observe (utcDay r.1) r.2 state) state

def BudgetState.recorded (state : BudgetState) : ℤ := state.baseline - state.lastBalance

/-- The sum of the drops between consecutive balances. -/
def drops : List ℤ → ℤ
  | b :: b' :: bs => max 0 (b - b') + drops (b' :: bs)
  | _ => 0

/-- The sum of the rises between consecutive balances. -/
def rises : List ℤ → ℤ
  | b :: b' :: bs => max 0 (b' - b) + rises (b' :: bs)
  | _ => 0

variable {state : BudgetState} {today : ℕ} {balance : ℤ}

@[simp]
theorem observe_day : (observe today balance state).day = some today := by
  unfold observe
  split_ifs with h
  · rfl
  · exact not_not.1 h
  · exact not_not.1 h

@[simp]
theorem observe_lastBalance : (observe today balance state).lastBalance = balance := rfl

/-- What doubles hold of a budget: no amount is negative, and the baseline is small. -/
structure BudgetState.Exact (state : BudgetState) : Prop where
  last : 0 ≤ state.lastBalance
  baseline : 0 ≤ state.baseline
  small : state.baseline ≤ 2 ^ 53

/-- A reading of the same day moves the baseline by a rise. -/
theorem baseline_observe (h : state.day = some today) (hexact : state.Exact)
    (hrise : state.baseline + max 0 (balance - state.lastBalance) ≤ 2 ^ 53) :
    (observe today balance state).baseline
      = state.baseline + max 0 (balance - state.lastBalance) := by
  have hlast := hexact.last
  have hbaseline := hexact.baseline
  unfold observe
  rw [if_neg (not_not.2 h)]
  split_ifs with hgt
  · show rounded (state.baseline + rounded (balance - state.lastBalance)) = _
    rw [rounded_of_le (n := balance - state.lastBalance) (by omega) (by omega),
      rounded_of_le (by omega) (by omega)]
    omega
  · show state.baseline = _
    omega

theorem observe_exact (h : state.day = some today) (hexact : state.Exact) (hbalance : 0 ≤ balance)
    (hrise : state.baseline + max 0 (balance - state.lastBalance) ≤ 2 ^ 53) :
    (observe today balance state).Exact := by
  have heq := baseline_observe h hexact hrise
  have hbaseline := hexact.baseline
  exact ⟨hbalance, by omega, heq.trans_le hrise⟩

/-- A reading of the same day adds a drop. -/
theorem recorded_observe (h : state.day = some today) (hexact : state.Exact)
    (hrise : state.baseline + max 0 (balance - state.lastBalance) ≤ 2 ^ 53) :
    (observe today balance state).recorded
      = state.recorded + max 0 (state.lastBalance - balance) := by
  unfold BudgetState.recorded
  rw [baseline_observe h hexact hrise, observe_lastBalance]
  omega

theorem recorded_observe_first (h : state.day ≠ some today) :
    (observe today balance state).recorded = 0 := by
  unfold BudgetState.recorded observe
  rw [if_pos h]
  exact sub_self balance

theorem rises_nonneg : ∀ bs : List ℤ, 0 ≤ rises bs
  | [] | [_] => le_rfl
  | _ :: b' :: bs => add_nonneg (le_max_left 0 _) (rises_nonneg (b' :: bs))

/-- Another balance adds a drop. -/
theorem drops_le_append (b : ℤ) : ∀ bs : List ℤ, 0 ≤ drops bs ∧ drops bs ≤ drops (bs ++ [b])
  | [] => ⟨le_rfl, le_rfl⟩
  | [_] => ⟨le_rfl, add_nonneg (le_max_left 0 _) le_rfl⟩
  | c :: c' :: bs => by
    obtain ⟨hnonneg, hle⟩ := drops_le_append b (c' :: bs)
    rw [List.cons_append] at hle
    simp only [List.cons_append, drops]
    omega

/-- Readings of one day: the rises have moved the baseline, and the drops are recorded. -/
theorem observeAll_day : ∀ (rs : List (ℕ × ℤ)) (state : BudgetState), state.Exact →
    (∀ r ∈ rs, state.day = some (utcDay r.1) ∧ 0 ≤ r.2) →
      state.baseline + rises (state.lastBalance :: rs.map Prod.snd) ≤ 2 ^ 53 →
      (observeAll rs state).day = state.day ∧ (observeAll rs state).Exact
        ∧ (observeAll rs state).recorded
          = state.recorded + drops (state.lastBalance :: rs.map Prod.snd)
  | [], _, hexact, _, _ => ⟨rfl, hexact, (add_zero _).symm⟩
  | r :: rs, state, hexact, hrs, hsmall => by
    obtain ⟨hday, hbalance⟩ := hrs r (by simp)
    rw [List.map_cons, rises] at hsmall
    have hrise : state.baseline + max 0 (r.2 - state.lastBalance) ≤ 2 ^ 53 := by
      have hrest := rises_nonneg (r.2 :: rs.map Prod.snd)
      omega
    have hbaseline := baseline_observe hday hexact hrise
    obtain ⟨hlast, hexact', heq⟩ := observeAll_day rs (observe (utcDay r.1) r.2 state)
      (observe_exact hday hexact hbalance hrise)
      (fun r' hr' => observe_day.trans hday.symm ▸ hrs r' (List.mem_cons_of_mem r hr'))
      (by rwa [hbaseline, observe_lastBalance, add_assoc])
    rw [recorded_observe hday hexact hrise, add_assoc] at heq
    exact ⟨hlast.trans (observe_day.trans hday.symm), hexact', heq⟩

/-- The first reading of a day, which is the baseline, and others of the day after it. -/
theorem observeAll_first {r : ℕ × ℤ} {rs : List (ℕ × ℤ)} (hfirst : state.day ≠ some (utcDay r.1))
    (hr : 0 ≤ r.2) (hrs : ∀ r' ∈ rs, utcDay r'.1 = utcDay r.1 ∧ 0 ≤ r'.2)
    (hsmall : r.2 + rises ((r :: rs).map Prod.snd) ≤ 2 ^ 53) :
    (observeAll (r :: rs) state).day = some (utcDay r.1) ∧ (observeAll (r :: rs) state).Exact
      ∧ (observeAll (r :: rs) state).recorded = drops ((r :: rs).map Prod.snd) := by
  have hopen : (observe (utcDay r.1) r.2 state).baseline = r.2 := by
    rw [observe, if_pos hfirst]
  have hrises := rises_nonneg ((r :: rs).map Prod.snd)
  have hexact : (observe (utcDay r.1) r.2 state).Exact := ⟨hr, by omega, by omega⟩
  obtain ⟨hlast, hexact', heq⟩ := observeAll_day rs _ hexact
    (fun r' hr' => ⟨observe_day.trans (congrArg some (hrs r' hr').1.symm), (hrs r' hr').2⟩)
    (hopen.symm ▸ hsmall)
  rw [recorded_observe_first hfirst, zero_add] at heq
  exact ⟨hlast.trans observe_day, hexact', heq⟩

/-- Over the readings of a day, of amounts that doubles hold exactly, the recorded spend is the sum
of the drops. It is not negative, so `check` takes the maximum with 0 of what is none, and the next
reading lowers it only if it is of another day, which resets it. -/
theorem recorded_exact (state : BudgetState) (r : ℕ × ℤ) (rs : List (ℕ × ℤ))
    (hfirst : state.day ≠ some (utcDay r.1)) (hday : ∀ r' ∈ rs, utcDay r'.1 = utcDay r.1)
    (hbalance : ∀ r' ∈ r :: rs, 0 ≤ r'.2)
    (hsmall : r.2 + rises ((r :: rs).map Prod.snd) ≤ 2 ^ 53) :
    let last := observeAll (r :: rs) state
    last.baseline - last.lastBalance = drops ((r :: rs).map Prod.snd)
      ∧ 0 ≤ last.baseline - last.lastBalance
      ∧ max 0 (rounded (last.baseline - last.lastBalance)) = last.baseline - last.lastBalance
      ∧ ∀ (now : ℕ) (balance : ℤ), 0 ≤ balance →
        let next := observe (utcDay now) balance last
        (utcDay now = utcDay r.1 → r.2 + rises ((r :: rs).map Prod.snd ++ [balance]) ≤ 2 ^ 53 →
          last.baseline - last.lastBalance ≤ next.baseline - next.lastBalance)
        ∧ (utcDay now ≠ utcDay r.1 → next.baseline - next.lastBalance = 0) := by
  obtain ⟨hr, hrs⟩ := List.forall_mem_cons.1 hbalance
  have hinside : ∀ r' ∈ rs, utcDay r'.1 = utcDay r.1 ∧ 0 ≤ r'.2 := fun r' hr' =>
    ⟨hday r' hr', hrs r' hr'⟩
  obtain ⟨hlastday, hexact, hrecorded⟩ := observeAll_first hfirst hr hinside hsmall
  have hnonneg : 0 ≤ (observeAll (r :: rs) state).recorded :=
    (drops_le_append 0 _).1.trans_eq hrecorded.symm
  refine ⟨hrecorded, hnonneg, ?_, fun now balance hnow => ⟨fun hsame hle => ?_, fun hother => ?_⟩⟩
  · have hlast := hexact.last
    have hsmall := hexact.small
    unfold BudgetState.recorded at hnonneg
    rw [rounded_of_le (by omega) (by omega), max_eq_right hnonneg]
  · have hinside' : ∀ r' ∈ rs ++ [(now, balance)], utcDay r'.1 = utcDay r.1 ∧ 0 ≤ r'.2 :=
      List.forall_mem_append.2 ⟨hinside, List.forall_mem_singleton.2 ⟨hsame, hnow⟩⟩
    have hnext := (observeAll_first hfirst hr hinside' (by simpa using hle)).2.2
    rw [← List.cons_append, observeAll, List.foldl_append, List.map_append] at hnext
    exact (hrecorded.trans_le (drops_le_append balance _).2).trans_eq hnext.symm
  · exact recorded_observe_first (hlastday ▸ fun heq => hother (Option.some.inj heq).symm)

theorem recorded_exact_sample :
    (observeAll [(0, 100), (1, 40), (2, 90)] .initial).baseline
      - (observeAll [(0, 100), (1, 40), (2, 90)] .initial).lastBalance = 60 :=
  (recorded_exact .initial (0, 100) [(1, 40), (2, 90)] (by decide) (by decide) (by decide)
    (by decide)).1

/-- Beyond `2 ^ 53` a rise is rounded, and some of what was recorded is lost. -/
theorem recorded_rounded :
    (observeAll [(0, 2), (0, 0)] .initial).recorded = 2
      ∧ (observeAll [(0, 2), (0, 0), (0, 9007199254740991)] .initial).recorded = 1
      ∧ drops [2, 0, 9007199254740991] = 2 := by
  decide +kernel

section Run

theorem observe_with_inFlight (today : ℕ) (balance n : ℤ) (state : BudgetState) :
    observe today balance { state with inFlight := n }
      = { observe today balance state with inFlight := n } := by
  unfold observe
  split_ifs <;> rfl

theorem exists_observeAll (rs : List (ℕ × ℤ)) (today : ℕ) (balance : ℤ) :
    ∃ rs', observe today balance (observeAll rs .initial) = observeAll rs' .initial := by
  have hday : utcDay (today * (24 * 60 * 60 * 1000)) = today :=
    Nat.mul_div_cancel today (by decide)
  refine ⟨rs ++ [(today * (24 * 60 * 60 * 1000), balance)], ?_⟩
  simp only [observeAll, List.foldl_append, List.foldl_cons, List.foldl_nil, hday]

/-- Nothing but readings touches what a run of the queue records. -/
theorem state_of_path {L : Limits} {js : List (SponsorBudget × BudgetEvent)} {b : SponsorBudget}
    (hp : Batch.Path (SponsorBudget.step L) .start js b) :
    ∃ rs, b.state = { observeAll rs .initial with inFlight := b.state.inFlight } := by
  refine hp.invariant (fun _ b => ∃ rs, b.state
    = { observeAll rs .initial with inFlight := b.state.inFlight }) ⟨[], rfl⟩ ?_
  rintro js b e b' ⟨rs, hrs⟩ hs
  have hobserve : ∀ today balance, ∃ rs', observe today balance b.state
      = { observeAll rs' .initial with inFlight := b.state.inFlight } := by
    intro today balance
    obtain ⟨rs', hrs'⟩ := exists_observeAll rs today balance
    refine ⟨rs', ?_⟩
    rw [hrs, observe_with_inFlight, hrs']
  cases SponsorBudget.step_cases hs with
  | acquire => exact ⟨rs, hrs⟩
  | release =>
    unfold SponsorBudget.release
    split_ifs
    · exact ⟨rs, hrs⟩
    · refine ⟨rs, ?_⟩
      show { b.state with inFlight := b.state.inFlight - 1 } = _
      rw [hrs]
  | react => exact ⟨rs, hrs⟩
  | @balance p today outcome job =>
    rcases outcome with message | balance
    · exact ⟨rs, hrs⟩
    · obtain ⟨rs', hrs'⟩ := hobserve today balance
      refine ⟨rs', ?_⟩
      cases job
      · simp only [SponsorBudget.finish, check]
        rcases withinLimits L balance (observe today balance b.state) with e | ⟨⟨⟩⟩ <;>
          simp only [hrs']
      · simp only [SponsorBudget.finish, hrs']

end Run

end Relay

end Oblivia

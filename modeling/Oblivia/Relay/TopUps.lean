import Mathlib.Data.List.Chain
import Oblivia.Relay.SponsorBudget
/-!
# Deposits and the day's spending

A reading sees only how the balance has changed, so what is deposited since the last one cancels
what was withdrawn. When nothing is in flight, the drop from the baseline is short of what has been
withdrawn today by exactly that (`Measured`), as long as doubles hold the day's baseline exactly: it
covers it in the runs in which no two readings of the day have both a withdrawal and a deposit
between them (`spending_shown`), and in no other. One deposit before a request's release is enough,
and so is one that rounds the baseline (`spending_hidden`).
-/

namespace Oblivia

namespace Relay

/-- What has been paid into the wallet. -/
def Wallet.funds (w : Wallet) : ℕ := w.balance + w.total

/-- From the earlier reading to the later, nothing was withdrawn or nothing was deposited. -/
def Wallet.Unmixed (later earlier : Wallet) : Prop :=
  later.total ≤ earlier.total ∨ later.funds ≤ earlier.funds

instance (later earlier : Wallet) : Decidable (later.Unmixed earlier) :=
  inferInstanceAs (Decidable (_ ∨ _))

/-- The wallet is later: it has been paid into and withdrawn from. -/
structure Wallet.Before (w w' : Wallet) : Prop where
  total : w.total ≤ w'.total
  funds : w.funds ≤ w'.funds

theorem Wallet.Before.refl (w : Wallet) : w.Before w := ⟨le_rfl, le_rfl⟩

theorem Wallet.Before.trans {w₁ w₂ w₃ : Wallet} (h : w₁.Before w₂) (h' : w₂.Before w₃) :
    w₁.Before w₃ :=
  ⟨h.total.trans h'.total, h.funds.trans h'.funds⟩

/-- The withdrawals that deposits have hidden, over readings with the last one first: between two
readings, the smaller of what was withdrawn and what was deposited. -/
def hidden : List Wallet → ℕ
  | w :: w₀ :: ws => min (w.total - w₀.total) (w.funds - w₀.funds) + hidden (w₀ :: ws)
  | _ => 0

theorem hidden_eq_zero : ∀ {ws : List Wallet}, hidden ws = 0 ↔ ws.IsChain Wallet.Unmixed
  | [] => by simp [hidden]
  | [w] => by simp [hidden]
  | w :: w₀ :: ws => by
    have ih : hidden (w₀ :: ws) = 0 ↔ (w₀ :: ws).IsChain Wallet.Unmixed := hidden_eq_zero
    rw [List.isChain_cons_cons, ← ih, hidden]
    unfold Wallet.Unmixed
    omega

namespace Sponsor

/-- The readings applied on the day of the last one, the last one first. -/
def record (ws : List Wallet) (p : Sponsor × Event) : List Wallet :=
  match p.2, p.1.reading with
  | .apply, .answered w => if p.1.state.day ≠ some p.1.today then [w] else w :: ws
  | _, _ => ws

def readings (js : List (Sponsor × Event)) : List Wallet := js.foldl record []

/-- Requests withdraw between their admission and their release, and the reading behind a release
is applied. -/
def Requested (m : Sponsor) : Event → Prop
  | .withdraw r _ => r ∈ m.active
  | .reject _ => m.queue.head? ≠ some .record
  | _ => True

instance (m : Sponsor) : ∀ e, Decidable (Requested m e)
  | .withdraw r _ => inferInstanceAs (Decidable (r ∈ m.active))
  | .reject _ => inferInstanceAs (Decidable (m.queue.head? ≠ some .record))
  | .acquire _ | .ask | .answer | .apply | .release _ | .deposit _ | .midnight => .isTrue trivial

/-- What the readings make of the baseline: it is short of what has been paid in by what had been
withdrawn before the day's first reading, and by what is hidden, unless it was rounded. -/
def Books (state : BudgetState) (opening : ℕ) : List Wallet → Prop
  | [] => state.day = none
  | w :: ws => state.day ≠ none ∧ state.lastBalance = w.balance
    ∧ opening + hidden (w :: ws) ≤ w.total
    ∧ (w.funds ≤ 2 ^ 53 + opening → state.baseline + hidden (w :: ws) + opening = w.funds)

def known (ws : List Wallet) : ℕ := (ws.head?.map Wallet.total).getD 0

/-- The reading behind a release is still to be taken, or has just been taken. -/
def Awaiting (m : Sponsor) : Prop :=
  .record ∈ m.queue.tail
    ∨ .record ∈ m.queue ∧ ∀ w, m.reading = .answered w → w.total = m.wallet.total

/-- The last reading knows of all withdrawals, unless a request is active or its reading is still
to come. -/
def Caught (ws : List Wallet) (m : Sponsor) : Prop :=
  known ws = m.wallet.total ∨ m.active.Nonempty ∨ m.Awaiting

structure Measured (ws : List Wallet) (m : Sponsor) : Prop where
  books : Books m.state m.opening ws
  past : ∀ w ∈ ws.head?, w.Before m.wallet
  pending : ∀ w, m.reading = .answered w → w.Before m.wallet ∧ ∀ w₀ ∈ ws.head?, w₀.Before w
  idle : m.queue = [] → m.reading = .idle
  caught : Caught ws m

variable {L : Limits} {ws : List Wallet} {m m' : Sponsor} {e : Event} {w : Wallet}

theorem measured_start (balance today : ℕ) : Measured [] (start balance today) where
  books := rfl
  past := by simp
  pending := by simp [start]
  idle _ := rfl
  caught := .inl rfl

/-- Another reading, if it is up to date. -/
theorem Caught.reread {reading : Reading} (h : Caught ws m)
    (hreading : ∀ w, reading = .answered w → w.total = m.wallet.total) :
    Caught ws { m with reading := reading } := by
  rcases h with hc | hc | hc | ⟨hc, -⟩
  · exact .inl hc
  · exact .inr (.inl hc)
  · exact .inr (.inr (.inl hc))
  · exact .inr (.inr (.inr ⟨hc, hreading⟩))

/-- A reading applied: a rise moves the baseline, and hides what was withdrawn meanwhile; a drop
hides what was deposited. -/
theorem Books.observe (h : Books m.state m.opening ws) (hw : ∀ w₀ ∈ ws.head?, w₀.Before w) :
    Books (Relay.observe m.today w.balance m.state) (m.openingAfter w)
      (if m.state.day ≠ some m.today then [w] else w :: ws) := by
  by_cases hday : m.state.day = some m.today
  · rcases ws with _ | ⟨w₀, ws⟩
    · have hnone : m.state.day = none := h
      rw [hnone] at hday
      cases hday
    · obtain ⟨-, hlast, hopening, hbase⟩ := h
      obtain ⟨htotal, hfunds⟩ := hw w₀ rfl
      simp only [ne_eq, hday, not_true_eq_false, if_false, Books, Relay.observe, openingAfter,
        hidden]
      unfold Wallet.funds at *
      split_ifs with hrise
      · refine ⟨by simp, trivial, by omega, fun hsmall => ?_⟩
        show rounded (m.state.baseline + rounded (w.balance - m.state.lastBalance)) + _
          + (m.opening : ℤ) = _
        have hexact := hbase (by omega)
        rw [rounded_of_le (n := w.balance - m.state.lastBalance) (by omega) (by omega),
          rounded_of_le (by omega) (by omega)]
        omega
      · refine ⟨by simp [hday], trivial, by omega, fun hsmall => ?_⟩
        show m.state.baseline + _ + (m.opening : ℤ) = _
        have hexact := hbase (by omega)
        omega
  · simp [Relay.observe, openingAfter, hday, Books, hidden, Wallet.funds]

/-- A reading applied to the first task, which is then done. -/
theorem Measured.apply (h : Measured ws m) {task : Task} {queue : List Task}
    (hq : m.queue = task :: queue) (hr : m.reading = .answered w) :
    Measured (record ws (m, .apply)) (m.applyRecord queue w) := by
  obtain ⟨hpast, hws⟩ := h.pending w hr
  have hrecord : record ws (m, .apply) = if m.state.day ≠ some m.today then [w] else w :: ws := by
    simp only [record, hr]
  have hhead : (record ws (m, .apply)).head? = some w := by
    rw [hrecord]
    split_ifs <;> rfl
  refine ⟨hrecord ▸ h.books.observe hws, fun w₁ hw₁ => ?_, by simp [applyRecord, next],
    fun _ => rfl, ?_⟩
  · rw [hhead] at hw₁
    cases hw₁
    exact hpast
  · have hknown : known (record ws (m, .apply)) = w.total := by
      rw [known, hhead]
      rfl
    rcases h.caught with hc | hc | hc | ⟨-, hc⟩
    · -- What the last reading knew, this one knows.
      have hle : known ws ≤ w.total := by
        rcases ws with _ | ⟨w₀, ws⟩
        · exact Nat.zero_le _
        · exact (hws w₀ rfl).total
      refine .inl (hknown.trans (le_antisymm hpast.total ?_))
      show m.wallet.total ≤ w.total
      omega
    · exact .inr (.inl hc)
    · rw [hq] at hc
      exact .inr (.inr (.inr ⟨hc, by simp [applyRecord, next]⟩))
    · exact .inl (hknown.trans (hc w hr))

/-- Only the books, the wallet, the readings and the requests in flight matter. -/
theorem Measured.frame (h : Measured ws m) {n : Sponsor}
    (hbaseline : n.state.baseline = m.state.baseline)
    (hlast : n.state.lastBalance = m.state.lastBalance) (hday : n.state.day = m.state.day)
    (hopening : n.opening = m.opening) (hwallet : n.wallet = m.wallet)
    (hreading : n.reading = m.reading) (hqueue : n.queue = m.queue)
    (hactive : m.active ⊆ n.active) : Measured ws n := by
  obtain ⟨books, past, pending, idle, caught⟩ := h
  refine ⟨?_, hwallet ▸ past, ?_, ?_, ?_⟩
  · rcases ws with _ | ⟨w, ws⟩
    · exact hday.trans books
    · exact ⟨hday ▸ books.1, hlast ▸ books.2.1, hbaseline ▸ hopening ▸ books.2.2⟩
  · rw [hreading, hwallet]
    exact pending
  · rw [hqueue, hreading]
    exact idle
  · rcases caught with hc | hc | hc
    · exact .inl (hwallet ▸ hc)
    · exact .inr (.inl (hc.mono hactive))
    · unfold Awaiting at hc
      rw [← hqueue, ← hreading, ← hwallet] at hc
      exact .inr (.inr hc)

/-- A task that is dropped without its reading. -/
theorem Measured.drop (h : Measured ws m) {r : ℕ} {queue : List Task}
    (hq : m.queue = .check r :: queue) : Measured ws (m.next queue) := by
  refine ⟨h.books, h.past, by simp [next], fun _ => rfl, ?_⟩
  rcases h.caught with hc | hc | hc | ⟨hc, -⟩
  · exact .inl hc
  · exact .inr (.inl hc)
  · rw [hq] at hc
    exact .inr (.inr (.inr ⟨hc, by simp [next]⟩))
  · rw [hq, List.mem_cons] at hc
    exact .inr (.inr (.inr ⟨hc.resolve_left (by simp), by simp [next]⟩))

theorem Measured.release (h : Measured ws m) (r : ℕ) : Measured ws (m.release r) := by
  unfold Sponsor.release
  split_ifs with hr
  · refine ⟨h.books, h.past, h.pending, fun hq => absurd hq (by simp), .inr (.inr ?_)⟩
    rcases hq : m.queue with _ | ⟨task, queue⟩
    · refine .inr ⟨by simp, fun w hw => ?_⟩
      have hidle := h.idle hq
      rw [hidle] at hw
      cases hw
    · exact .inl (by simp)
  · exact h

/-- The wallet moves on after the readings so far. -/
theorem Measured.later (h : Measured ws m) {wallet : Wallet} (hw : m.wallet.Before wallet)
    (hc : wallet.total = m.wallet.total ∨ m.active.Nonempty) :
    Measured ws { m with wallet := wallet } where
  books := h.books
  past w hws := (h.past w hws).trans hw
  pending w hr := ⟨(h.pending w hr).1.trans hw, (h.pending w hr).2⟩
  idle := h.idle
  caught := by
    rcases hc with hc | hc
    · unfold Caught Awaiting
      simp only [hc]
      exact h.caught
    · exact .inr (.inl hc)

theorem Measured.step (h : Measured ws m) (hs : Sponsor.step L m e = .ok m')
    (hreq : Requested m e) : Measured (record ws (m, e)) m' := by
  cases step_cases hs with
  | @acquire r =>
    refine ⟨h.books, h.past, h.pending, fun hq => absurd hq (by simp [Sponsor.acquire]), ?_⟩
    rcases h.caught with hc | hc | hc | ⟨hc, hw⟩
    · exact .inl hc
    · exact .inr (.inl hc)
    · refine .inr (.inr (.inl ?_))
      rcases hq : m.queue with _ | ⟨task, queue⟩
      · rw [hq] at hc
        cases hc
      · rw [hq] at hc
        simpa [Sponsor.acquire, hq] using hc
    · exact .inr (.inr (.inr ⟨List.mem_append_left _ hc, hw⟩))
  | ask hq hr =>
    exact ⟨h.books, h.past, by simp, fun hnil => absurd hnil hq, h.caught.reread (by simp)⟩
  | answer hr =>
    have hne : m.queue ≠ [] := fun hnil => by
      rw [h.idle hnil] at hr
      cases hr
    refine ⟨h.books, h.past, ?_, fun hnil => absurd hnil hne, h.caught.reread (by simp)⟩
    rintro w ⟨⟩
    exact ⟨.refl _, h.past⟩
  | @applyCheck r queue w hq hr =>
    rcases applyCheck_cases L m r queue w with ⟨-, heq⟩ | ⟨error, heq⟩
    · rw [heq]
      exact (h.apply hq hr).frame rfl rfl rfl rfl rfl rfl rfl (Finset.subset_insert r m.active)
    · rw [heq]
      exact (h.apply hq hr).frame rfl rfl rfl rfl rfl rfl rfl subset_rfl
  | applyRecord hq hr => exact h.apply hq hr
  | rejectCheck hq => exact (h.drop hq).frame rfl rfl rfl rfl rfl rfl rfl subset_rfl
  | rejectRecord hq => exact absurd (by rw [hq]; rfl) hreq
  | release => exact h.release _
  | @withdraw r x _ hx =>
    refine h.later ⟨Nat.le_add_right _ _, ?_⟩ (.inr ⟨r, hreq⟩)
    unfold Wallet.funds Wallet.withdraw
    simp only
    omega
  | @deposit x =>
    refine h.later ⟨le_rfl, ?_⟩ (.inl rfl)
    unfold Wallet.funds
    simp only
    omega
  | midnight => exact h.frame rfl rfl rfl rfl rfl rfl rfl subset_rfl

theorem Caught.known_eq (h : Caught ws m) (hq : m.queue = []) (ha : m.active = ∅) :
    known ws = m.wallet.total := by
  rcases h with h | h | h | h
  · exact h
  · rw [ha] at h
    exact absurd h Finset.not_nonempty_empty
  · rw [hq] at h
    cases h
  · rw [hq] at h
    cases h.1

theorem measured_of_path {balance today : ℕ} {js : List (Sponsor × Event)}
    (hp : Batch.Path (Sponsor.step L) (start balance today) js m) :
    (∀ p ∈ js, Requested p.1 p.2) → Measured (readings js) m := by
  refine hp.invariant (fun js m => (∀ p ∈ js, Requested p.1 p.2) → Measured (readings js) m)
    (fun _ => measured_start _ _) ?_
  intro js m e m' ih hs hreq
  have h := (ih fun p hp => hreq p (List.mem_append_left _ hp)).step hs (hreq (m, e) (by simp))
  rwa [readings, List.foldl_append]

/-- When nothing is in flight, the drop from the baseline covers what released requests have
withdrawn since the day's first reading exactly if no two readings of the day in a row have both a
withdrawal and a deposit between them. The day's first balance and what is deposited since have to
be an amount that doubles hold exactly. -/
theorem spending_shown {balance today : ℕ} {js : List (Sponsor × Event)}
    (hp : Batch.Path (Sponsor.step L) (start balance today) js m)
    (hreq : ∀ p ∈ js, Requested p.1 p.2) (hq : m.queue = []) (ha : m.active = ∅)
    (hday : m.state.day = some m.today)
    (hexact : ∀ w ∈ readings js, w.funds - m.opening ≤ 2 ^ 53) :
    (m.wallet.total : ℤ) - m.opening ≤ m.state.baseline - m.state.lastBalance
      ↔ (readings js).IsChain Wallet.Unmixed := by
  have h := measured_of_path hp hreq
  have hknown := h.caught.known_eq hq ha
  have hbooks := h.books
  rcases hws : readings js with _ | ⟨w, ws⟩
  · rw [hws] at hbooks
    have hnone : m.state.day = none := hbooks
    rw [hday] at hnone
    cases hnone
  · rw [hws] at hbooks hknown
    obtain ⟨-, hlast, hopening, hbase⟩ := hbooks
    have hsmall := hexact w (by simp [hws])
    have htotal : w.total = m.wallet.total := hknown
    rw [← hidden_eq_zero, hlast]
    unfold Wallet.funds at hbase hsmall
    omega

section Hidden

def hiddenLimits : Limits := ⟨100, 0, 10⟩

/-- A request withdraws, somebody deposits as much, and the reading behind the release finds the
balance it began with. -/
def hiddenRun : List Event :=
  [.acquire 0, .ask, .answer, .apply, .withdraw 0 10, .deposit 10, .release 0, .ask, .answer,
    .apply]

/-- A request withdraws and its release is read. A deposit comes later, and a second request's
reading moves the baseline to `2 ^ 53 + 1`, which doubles do not have. -/
def roundedRun : List Event :=
  [.acquire 0, .ask, .answer, .apply, .withdraw 0 2, .release 0, .ask, .answer, .apply,
    .deposit (2 ^ 53 - 9), .acquire 1, .ask, .answer, .apply, .release 1, .ask, .answer, .apply]

/-- The deposit hides the withdrawal, or the rounding hides a part of it. -/
theorem spending_hidden :
    (∃ m, Batch.exec (Sponsor.step hiddenLimits) (start 100 0) hiddenRun = .ok m
      ∧ (∀ p ∈ Batch.visits (Sponsor.step hiddenLimits) (start 100 0) hiddenRun,
        Requested p.1 p.2)
      ∧ m.queue = [] ∧ m.active = ∅ ∧ m.state.day = some m.today
      ∧ m.state.baseline - m.state.lastBalance < (m.wallet.total : ℤ) - m.opening)
    ∧ ∃ m, Batch.exec (Sponsor.step hiddenLimits) (start 10 0) roundedRun = .ok m
      ∧ (∀ p ∈ Batch.visits (Sponsor.step hiddenLimits) (start 10 0) roundedRun,
        Requested p.1 p.2)
      ∧ m.queue = [] ∧ m.active = ∅ ∧ m.state.day = some m.today
      ∧ m.state.baseline - m.state.lastBalance < (m.wallet.total : ℤ) - m.opening :=
  ⟨Batch.exists_exec (by decide +kernel), Batch.exists_exec (by decide +kernel)⟩

/-- The same, with the deposit after the reading. -/
def shownRun : List Event :=
  [.acquire 0, .ask, .answer, .apply, .withdraw 0 10, .release 0, .ask, .answer, .apply,
    .deposit 10, .acquire 1, .ask, .answer, .apply, .release 1, .ask, .answer, .apply]

theorem spending_shown_sample :
    ∃ m, Batch.exec (Sponsor.step hiddenLimits) (start 100 0) shownRun = .ok m
      ∧ (m.wallet.total : ℤ) - m.opening ≤ m.state.baseline - m.state.lastBalance := by
  have hrun : ∃ m, Batch.exec (Sponsor.step hiddenLimits) (start 100 0) shownRun = .ok m
      ∧ m.queue = [] ∧ m.active = ∅ ∧ m.state.day = some m.today
      ∧ ∀ w ∈ readings (Batch.visits (Sponsor.step hiddenLimits) (start 100 0) shownRun),
        w.funds - m.opening ≤ 2 ^ 53 := Batch.exists_exec (by decide +kernel)
  obtain ⟨m, hm, hq, ha, hday, hexact⟩ := hrun
  exact ⟨m, hm, (spending_shown (Batch.path_exec _ .nil hm) (by decide +kernel) hq ha hday
    hexact).2 (by decide +kernel)⟩

end Hidden

end Sponsor

end Relay

end Oblivia

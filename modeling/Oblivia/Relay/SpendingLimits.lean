import Oblivia.Relay.SponsorBudget
/-!
# The spending limits

While a balance reading is under way, a request that withdraws after the moment the reading is of
and releases before it is applied is neither in the balance nor among the reservations. The limits
hold in every run in which no check admits on such a reading that would not admit without the
missing amount, of amounts that doubles hold exactly (`limits_hold`), and fail in a run of two
requests (`limits_fail`).
-/

namespace Oblivia

namespace Relay

namespace Sponsor

/-- What requests that are no longer active have withdrawn since a reading. -/
def missed (m : Sponsor) (w : Wallet) : ℤ :=
  m.wallet.total - w.total - Reservation.drawn m.active m.wallet.spent w.spent

/-- Only active requests move the wallet, each by no more than its reserve. -/
def Moved (L : Limits) (m : Sponsor) : Event → Prop
  | .withdraw r x => r ∈ m.active ∧ m.wallet.spent r + x ≤ L.reserveLamports
  | .deposit _ => False
  | _ => True

instance (L : Limits) (m : Sponsor) (e : Event) : Decidable (Moved L m e) := by
  cases e <;> unfold Moved <;> infer_instance

/-- A check that admits on its reading also admits on the reading less what it misses. -/
def Timely (L : Limits) (m : Sponsor) (e : Event) : Prop :=
  match e, m.queue, m.reading with
  | .apply, .check _ :: _, .answered w =>
    withinLimits L w.balance (observe m.today w.balance m.state) = .ok () →
      withinLimits L (w.balance - m.missed w) (observe m.today w.balance m.state) = .ok ()
  | _, _, _ => True

instance (L : Limits) (m : Sponsor) (e : Event) : Decidable (Timely L m e) := by
  unfold Timely
  split <;> infer_instance

/-- Doubles hold exactly what there is in the wallet, or all that the limits ask of it. -/
def Exact (L : Limits) (balance : ℕ) : Prop :=
  balance ≤ 2 ^ 53 ∨ L.floorLamports + L.dailyLamports + L.reserveLamports < 2 ^ 53

/-- What the active requests may still withdraw. -/
def outstanding (L : Limits) (m : Sponsor) : ℕ :=
  Reservation.outstanding L.reserveLamports m.active m.wallet.spent

/-- A reading that is not applied yet: what has been withdrawn since, or still may be, fits in the
daily budget. -/
structure Pending (L : Limits) (funds : ℕ) (state : BudgetState) (wallet : Wallet)
    (outstanding : ℕ) (w : Wallet) : Prop where
  conserved : w.balance + w.total = funds
  drawn : ∀ s, Reservation.drawn s wallet.spent w.spent + w.total ≤ wallet.total
  covered : wallet.total + outstanding ≤ L.dailyLamports + w.total
  last : state.day ≠ none → (w.balance : ℤ) ≤ state.lastBalance
  past : wallet.balance ≤ w.balance

/-- The state a reading leaves: what has been withdrawn since the day's first one, or still may be,
fits in the daily budget. -/
structure Opened (L : Limits) (funds : ℕ) (wallet : Wallet) (outstanding : ℕ) (state : BudgetState)
    (opening : ℕ) : Prop where
  baseline : state.baseline + opening = funds
  last : (wallet.balance : ℤ) ≤ state.lastBalance
  covered : wallet.total + outstanding ≤ L.dailyLamports + opening

/-- The reservations are covered by both limits. -/
structure Covered (L : Limits) (funds : ℕ) (m : Sponsor) : Prop where
  conserved : m.wallet.balance + m.wallet.total = funds
  within : ∀ r ∈ m.active, m.wallet.spent r ≤ L.reserveLamports
  reserved : m.active.card * L.reserveLamports ≤ L.dailyLamports
  floor : m.active.Nonempty → L.floorLamports + m.outstanding L ≤ m.wallet.balance
  pending : ∀ w, m.reading = .answered w →
    Pending L funds m.state m.wallet (m.outstanding L) w
  opened : m.state.day ≠ none → Opened L funds m.wallet (m.outstanding L) m.state m.opening

variable {L : Limits} {funds : ℕ} {m m' : Sponsor} {e : Event} {w : Wallet}

theorem covered_start (balance today : ℕ) : Covered L balance (start balance today) where
  conserved := rfl
  within := by simp [start]
  reserved := by simp [start]
  floor := by simp [start]
  pending := by simp [start]
  opened := by simp [start, BudgetState.initial]

theorem outstanding_le (h : Covered L funds m) : m.outstanding L ≤ L.dailyLamports :=
  Reservation.outstanding_le.trans h.reserved

/-- A reading is the wallet as it is when it is taken. -/
theorem Covered.answer (h : Covered L funds m) :
    Pending L funds m.state m.wallet (m.outstanding L) m.wallet where
  conserved := h.conserved
  drawn := by simp
  covered := by
    have hle := outstanding_le h
    omega
  last hday := (h.opened hday).last
  past := le_rfl

/-- What is withdrawn lowers the balance, so no reading raises the baseline. -/
theorem Covered.observe (h : Covered L funds m) (hr : m.reading = .answered w) :
    Opened L funds m.wallet (m.outstanding L) (observe m.today w.balance m.state)
      (m.openingAfter w) := by
  have hp := h.pending w hr
  have hfunds := hp.conserved
  refine ⟨?_, ?_, ?_⟩
  · unfold Relay.observe openingAfter
    by_cases hday : m.state.day = some m.today
    · have hlast := hp.last (by simp [hday])
      have hbase := (h.opened (by simp [hday])).baseline
      simpa [hday, not_lt.2 hlast] using hbase
    · simp only [ne_eq, hday, not_false_eq_true, if_true]
      omega
  · show (m.wallet.balance : ℤ) ≤ w.balance
    exact_mod_cast hp.past
  · unfold openingAfter
    by_cases hday : m.state.day = some m.today
    · simpa [hday] using (h.opened (by simp [hday])).covered
    · simpa [hday] using hp.covered

section Rounding

variable {balance reserved reserve drop floor daily : ℤ}

/-- The floor is compared as with the exact amounts: what is rounded is beyond it. -/
theorem rounded_lt_floor (hfloor : 0 ≤ floor) (hreserve : 0 ≤ reserve) (hreserved : 0 ≤ reserved)
    (hzero : reserve = 0 → reserved = 0)
    (h : balance ≤ 2 ^ 53 ∨ reserved ≤ 2 ^ 53 ∧ floor + reserve < 2 ^ 53) :
    rounded (rounded (balance - rounded reserved) - reserve) < floor
      ↔ balance - reserved - reserve < floor := by
  have h₁ := rounded_cases reserved
  have h₂ := rounded_cases (balance - rounded reserved)
  have h₃ := rounded_cases (rounded (balance - rounded reserved) - reserve)
  omega

theorem daily_lt_rounded (hreserve : 0 ≤ reserve) (hreserved : 0 ≤ reserved)
    (h : max 0 drop + reserved + reserve ≤ 2 ^ 53 ∨ daily < 2 ^ 53) :
    daily < rounded (rounded (max 0 (rounded drop) + rounded reserved) + reserve)
      ↔ daily < max 0 drop + reserved + reserve := by
  have h₁ := rounded_cases drop
  have h₂ := rounded_cases reserved
  have h₃ := rounded_cases (max 0 (rounded drop) + rounded reserved)
  have h₄ := rounded_cases (rounded (max 0 (rounded drop) + rounded reserved) + reserve)
  omega

end Rounding

theorem withinLimits_eq_ok {balance : ℤ} {state : BudgetState} (hin : 0 ≤ state.inFlight)
    (hexact : balance ≤ 2 ^ 53 ∧ state.baseline ≤ 2 ^ 53
      ∨ L.floorLamports + L.dailyLamports + L.reserveLamports < 2 ^ 53) :
    withinLimits L balance state = .ok () ↔
      L.floorLamports + state.inFlight * L.reserveLamports + L.reserveLamports ≤ balance
        ∧ max 0 (state.baseline - balance) + state.inFlight * L.reserveLamports + L.reserveLamports
          ≤ L.dailyLamports := by
  have hreserve : (0 : ℤ) ≤ L.reserveLamports := by positivity
  have hreserved : 0 ≤ state.inFlight * (L.reserveLamports : ℤ) := by positivity
  have hzero : (L.reserveLamports : ℤ) = 0 → state.inFlight * (L.reserveLamports : ℤ) = 0 :=
    fun h => by rw [h, mul_zero]
  have hok : withinLimits L balance state = .ok () ↔
      ¬ rounded (rounded (balance - rounded (state.inFlight * L.reserveLamports))
          - L.reserveLamports) < L.floorLamports
        ∧ ¬ L.dailyLamports < rounded (rounded (max 0 (rounded (state.baseline - balance))
          + rounded (state.inFlight * L.reserveLamports)) + L.reserveLamports) := by
    simp only [withinLimits]
    split_ifs <;> simp_all
  rw [hok]
  generalize state.inFlight * (L.reserveLamports : ℤ) = reserved at *
  rcases hexact with ⟨hbalance, hbaseline⟩ | hlimits
  · -- a balance above the floor holds the reservations, and the baseline what is spent besides
    rw [rounded_lt_floor (by positivity) hreserve hreserved hzero (.inl hbalance)]
    constructor
    · rintro ⟨hfloor, hdaily⟩
      rw [daily_lt_rounded hreserve hreserved (.inl (by omega))] at hdaily
      omega
    · rintro ⟨hfloor, hdaily⟩
      rw [daily_lt_rounded hreserve hreserved (.inl (by omega))]
      omega
  · -- the daily budget holds the reservations
    rw [daily_lt_rounded hreserve hreserved (.inr (by omega))]
    constructor
    · rintro ⟨hfloor, hdaily⟩
      rw [rounded_lt_floor (by positivity) hreserve hreserved hzero (.inr (by omega))] at hfloor
      omega
    · rintro ⟨hfloor, hdaily⟩
      rw [rounded_lt_floor (by positivity) hreserve hreserved hzero (.inr (by omega))]
      omega

theorem Covered.applyRecord (h : Covered L funds m) (hr : m.reading = .answered w)
    (queue : List Task) : Covered L funds (m.applyRecord queue w) where
  conserved := h.conserved
  within := h.within
  reserved := h.reserved
  floor := h.floor
  pending := by simp [Sponsor.applyRecord, next]
  opened _ :=
    have hobs := h.observe hr
    ⟨hobs.baseline, hobs.last, hobs.covered⟩

/-- An admission that both limits allow on the reading less what it misses keeps the reservations
covered: what else has been withdrawn since the reading is by requests that are still active, out
of their reserves. -/
theorem Covered.reserve (h : Covered L funds m) (ho : Orderly m) (hexact : Exact L funds) {r : ℕ}
    {queue : List Task} (hq : m.queue = .check r :: queue) (hr : m.reading = .answered w)
    (hadm : withinLimits L (w.balance - m.missed w) (Relay.observe m.today w.balance m.state)
      = .ok ()) :
    Covered L funds ((m.applyRecord queue w).reserve r) := by
  have hobs := h.observe hr
  have hbase := hobs.baseline
  have hp := h.pending w hr
  have hreading := hp.conserved
  have hdrawn := hp.drawn m.active
  obtain ⟨hfloor, hdaily⟩ := (withinLimits_eq_ok (by simp [ho.inFlight])
    (hexact.imp_left fun hle => by unfold missed; omega)).1 hadm
  rw [observe_inFlight, ho.inFlight, ← Int.natCast_mul] at hfloor hdaily
  have hnew : r ∉ m.active := ho.not_active hq
  have hzero : m.wallet.spent r = 0 := ho.spent r (ho.not_admitted (by simp [hq]))
  have hins : Reservation.outstanding L.reserveLamports (insert r m.active) m.wallet.spent
      = m.outstanding L + L.reserveLamports := Reservation.outstanding_insert hnew hzero
  have hcard : (insert r m.active).card * L.reserveLamports
      = m.active.card * L.reserveLamports + L.reserveLamports := by
    rw [Finset.card_insert_of_notMem hnew, Nat.add_mul, Nat.one_mul]
  have hfit : m.outstanding L + Reservation.drawn m.active m.wallet.spent w.spent
      ≤ m.active.card * L.reserveLamports := Reservation.outstanding_add_drawn_le h.within
  have hconserved := h.conserved
  unfold missed at hfloor hdaily
  generalize m.active.card * L.reserveLamports = reserved at hcard hfit hfloor hdaily
  refine ⟨hconserved, fun i hi => ?_, ?_, fun _ => ?_, by simp [Sponsor.reserve,
    Sponsor.applyRecord, next], fun _ => ⟨hbase, hobs.last, ?_⟩⟩
  · rcases Finset.mem_insert.1 hi with rfl | hi
    · exact hzero.trans_le (Nat.zero_le _)
    · exact h.within i hi
  · show (insert r m.active).card * L.reserveLamports ≤ L.dailyLamports
    omega
  · show L.floorLamports + Reservation.outstanding L.reserveLamports (insert r m.active)
      m.wallet.spent ≤ m.wallet.balance
    omega
  · show m.wallet.total + Reservation.outstanding L.reserveLamports (insert r m.active)
      m.wallet.spent ≤ L.dailyLamports + m.openingAfter w
    omega

theorem Covered.release (h : Covered L funds m) (r : ℕ) : Covered L funds (m.release r) := by
  unfold Sponsor.release
  split_ifs
  · have hle : Reservation.outstanding L.reserveLamports (m.active.erase r) m.wallet.spent
        ≤ m.outstanding L := Reservation.outstanding_erase_le
    have hcard : (m.active.erase r).card * L.reserveLamports
        ≤ m.active.card * L.reserveLamports :=
      Nat.mul_le_mul_right _ (Finset.card_le_card (Finset.erase_subset r m.active))
    refine ⟨h.conserved, fun i hi => h.within i (Finset.mem_of_mem_erase hi),
      hcard.trans h.reserved, fun hne => ?_, fun w hw => ?_, fun hday => ?_⟩
    · have hfloor := h.floor (hne.mono (Finset.erase_subset r m.active))
      exact (Nat.add_le_add_left hle _).trans hfloor
    · have hp := h.pending w hw
      exact ⟨hp.conserved, hp.drawn, (Nat.add_le_add_left hle _).trans hp.covered, hp.last, hp.past⟩
    · have hop := h.opened hday
      exact ⟨hop.baseline, hop.last, (Nat.add_le_add_left hle _).trans hop.covered⟩
  · exact h

/-- A withdrawal moves an amount from what is outstanding to what has been withdrawn. -/
theorem Covered.withdraw (h : Covered L funds m) {r x : ℕ} (hr : r ∈ m.active)
    (hx : m.wallet.spent r + x ≤ L.reserveLamports) (hbal : x ≤ m.wallet.balance) :
    Covered L funds { m with wallet := m.wallet.withdraw r x } := by
  let spent := Function.update m.wallet.spent r (m.wallet.spent r + x)
  have hout : Reservation.outstanding L.reserveLamports m.active spent + x = m.outstanding L :=
    Reservation.outstanding_spend hr hx
  have hconserved := h.conserved
  refine ⟨?_, fun i hi => ?_, h.reserved, fun hne => ?_, fun w hw => ?_, fun hday => ?_⟩
  · show m.wallet.balance - x + (m.wallet.total + x) = funds
    omega
  · show spent i ≤ L.reserveLamports
    by_cases hi' : i = r
    · rw [hi']
      exact (Function.update_self r _ m.wallet.spent).trans_le hx
    · exact (Function.update_of_ne hi' _ m.wallet.spent).trans_le (h.within i hi)
  · have hfloor := h.floor hne
    show L.floorLamports + Reservation.outstanding L.reserveLamports m.active spent
      ≤ m.wallet.balance - x
    omega
  · have hp := h.pending w hw
    have hcov := hp.covered
    have hpast := hp.past
    refine ⟨hp.conserved, fun s => ?_, ?_, hp.last, ?_⟩
    · have hdrawn := hp.drawn s
      have hspend : Reservation.drawn s spent w.spent
          ≤ Reservation.drawn s m.wallet.spent w.spent + x := Reservation.drawn_spend_le
      show Reservation.drawn s spent w.spent + w.total ≤ m.wallet.total + x
      omega
    · show m.wallet.total + x + Reservation.outstanding L.reserveLamports m.active spent
        ≤ L.dailyLamports + w.total
      omega
    · show m.wallet.balance - x ≤ w.balance
      omega
  · have hop := h.opened hday
    have hcov := hop.covered
    have hlast := hop.last
    refine ⟨hop.baseline, ?_, ?_⟩
    · show ((m.wallet.balance - x : ℕ) : ℤ) ≤ m.state.lastBalance
      omega
    · show m.wallet.total + x + Reservation.outstanding L.reserveLamports m.active spent
        ≤ L.dailyLamports + m.opening
      omega

/-- Only the reservations, the wallet and the readings matter. -/
theorem Covered.frame (h : Covered L funds m) {n : Sponsor} (hstate : n.state = m.state)
    (hactive : n.active = m.active) (hwallet : n.wallet = m.wallet)
    (hopening : n.opening = m.opening)
    (hreading : ∀ w, n.reading = .answered w → m.reading = .answered w) : Covered L funds n := by
  obtain ⟨conserved, within, reserved, floor, pending, opened⟩ := h
  unfold Sponsor.outstanding at floor pending opened
  rw [← hactive, ← hwallet] at floor within
  rw [← hactive] at reserved
  rw [← hwallet] at conserved
  rw [← hstate, ← hactive, ← hwallet] at pending
  rw [← hstate, ← hactive, ← hwallet, ← hopening] at opened
  exact ⟨conserved, within, reserved, floor, fun w hw => pending w (hreading w hw), opened⟩

/-- A step that moves only what requests have reserved, and admits on no reading that misses too
much, keeps the reservations covered. -/
theorem Covered.step (h : Covered L funds m) (ho : Orderly m) (hexact : Exact L funds)
    (hs : step L m e = .ok m') (hmoved : Moved L m e) (htimely : Timely L m e) :
    Covered L funds m' := by
  cases step_cases hs with
  | acquire => exact h.frame rfl rfl rfl rfl fun _ hw => hw
  | ask => exact h.frame rfl rfl rfl rfl fun _ hw => by cases hw
  | answer =>
    refine ⟨h.conserved, h.within, h.reserved, h.floor, fun w hw => ?_, h.opened⟩
    cases hw
    exact h.answer
  | @applyCheck r queue w hq hr =>
    rcases applyCheck_cases L m r queue w with ⟨hadm, heq⟩ | ⟨error, heq⟩
    · rw [heq]
      have hless : withinLimits L (w.balance - m.missed w)
          (Relay.observe m.today w.balance m.state) = .ok () := by
        simp only [Timely, hq, hr] at htimely
        exact htimely hadm
      exact (h.reserve ho hexact hq hr hless).frame rfl rfl rfl rfl fun _ hw => hw
    · rw [heq]
      exact (h.applyRecord hr queue).frame rfl rfl rfl rfl fun _ hw => hw
  | applyRecord hq hr => exact h.applyRecord hr _
  | rejectCheck => exact h.frame rfl rfl rfl rfl fun _ hw => by cases hw
  | rejectRecord => exact h.frame rfl rfl rfl rfl fun _ hw => by cases hw
  | release => exact h.release _
  | withdraw _ hbal => exact h.withdraw hmoved.1 hmoved.2 hbal
  | deposit => exact hmoved.elim
  | midnight => exact h.frame rfl rfl rfl rfl fun _ hw => hw

/-- In a run that meets both conditions the reservations are covered throughout. -/
theorem covered_of_path {balance today : ℕ} {js : List (Sponsor × Event)}
    (hp : Batch.Path (step L) (start balance today) js m) (hexact : Exact L balance) :
    (∀ p ∈ js, Moved L p.1 p.2) → (∀ p ∈ js, Timely L p.1 p.2) →
      Orderly m ∧ Covered L balance m := by
  refine hp.invariant (fun js m => (∀ p ∈ js, Moved L p.1 p.2) → (∀ p ∈ js, Timely L p.1 p.2) →
    Orderly m ∧ Covered L balance m) (fun _ _ => ⟨orderly_start _ _, covered_start _ _⟩) ?_
  intro js m e m' ih hs hmoved htimely
  obtain ⟨ho, hc⟩ := ih (fun p hp => hmoved p (List.mem_append_left _ hp))
    (fun p hp => htimely p (List.mem_append_left _ hp))
  exact ⟨ho.step hs, hc.step ho hexact hs (hmoved (m, e) (by simp)) (htimely (m, e) (by simp))⟩

/-- What is withdrawn in a day fits in its budget. -/
theorem Covered.daily (h : Covered L funds m) (hday : m.state.day = some m.today) :
    m.wallet.total - m.opening ≤ L.dailyLamports := by
  have hcov := (h.opened (by simp [hday])).covered
  omega

/-- No withdrawal takes the balance below the floor. -/
theorem Covered.above_floor (h : Covered L funds m) {r x : ℕ}
    (hs : Sponsor.step L m (.withdraw r x) = .ok m') (hm : Moved L m (.withdraw r x)) :
    L.floorLamports ≤ m'.wallet.balance := by
  cases step_cases hs with
  | withdraw _ hbal =>
    have hfloor := (h.withdraw hm.1 hm.2 hbal).floor ⟨r, hm.1⟩
    exact (Nat.le_add_right _ _).trans hfloor

/-- Between the first reading of a day and its end no more than the daily budget is withdrawn, and
no request takes the balance below the floor, if no check admits on a reading that misses too much
of what released requests have withdrawn, and the amounts that decide are exact. -/
theorem limits_hold {balance today : ℕ} {js : List (Sponsor × Event)}
    (hp : Batch.Path (step L) (start balance today) js m) (hexact : Exact L balance)
    (hmoved : ∀ p ∈ js, Moved L p.1 p.2) (htimely : ∀ p ∈ js, Timely L p.1 p.2) :
    (m.state.day = some m.today → m.wallet.total - m.opening ≤ L.dailyLamports)
      ∧ ∀ r x m', step L m (.withdraw r x) = .ok m' → Moved L m (.withdraw r x) →
        L.floorLamports ≤ m'.wallet.balance := by
  obtain ⟨-, hc⟩ := covered_of_path hp hexact hmoved htimely
  exact ⟨hc.daily, fun _ _ _ => hc.above_floor⟩

section Stale

def staleLimits : Limits := ⟨10, 85, 10⟩

/-- The balance for the second request is read before the first withdraws, and applied after the
first has withdrawn and released. -/
def staleRun : List Event :=
  [.acquire 0, .ask, .answer, .apply, .acquire 1, .ask, .answer, .withdraw 0 10, .release 0,
    .apply, .withdraw 1 10]

/-- Both limits fail for two requests that withdraw no more than their reserves. -/
theorem limits_fail :
    ∃ m, Batch.exec (step staleLimits) (start 100 0) staleRun = .ok m
      ∧ (∀ p ∈ Batch.visits (step staleLimits) (start 100 0) staleRun, Moved staleLimits p.1 p.2)
      ∧ m.state.day = some m.today ∧ staleLimits.dailyLamports < m.wallet.total - m.opening
      ∧ m.wallet.balance < staleLimits.floorLamports :=
  Batch.exists_exec (by decide +kernel)

/-- The same requests, the second reading taken after the first request's release. -/
def timelyRun : List Event :=
  [.acquire 0, .ask, .answer, .apply, .acquire 1, .ask, .withdraw 0 5, .release 0, .answer,
    .apply]

theorem limits_hold_sample :
    ∃ m, Batch.exec (step staleLimits) (start 100 0) timelyRun = .ok m
      ∧ m.wallet.total - m.opening ≤ staleLimits.dailyLamports := by
  have hrun : ∃ m, Batch.exec (step staleLimits) (start 100 0) timelyRun = .ok m
      ∧ m.state.day = some m.today := Batch.exists_exec (by decide +kernel)
  obtain ⟨m, hm, hday⟩ := hrun
  exact ⟨m, hm, (limits_hold (Batch.path_exec _ .nil hm) (.inl (by decide)) (by decide +kernel)
    (by decide +kernel)).1 hday⟩

end Stale

end Sponsor

end Relay

end Oblivia

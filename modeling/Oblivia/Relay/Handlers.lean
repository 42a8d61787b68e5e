import Oblivia.Relay.Connections
import Oblivia.Relay.SpendingLimits
/-!
# The reservations of the handlers

Every run of the server is a run of the budget (`sponsor_path`). In a run in which no `close`
releases a request that may still send, and no admitted request is let in after its `close`, the
reservations cover the requests that may send and none outlasts them (`reservations_cover`), and
the server keeps the spending limits (`limits_kept`). Either fails when a client leaves at the
wrong moment (`reservations_fail`).
-/

namespace Oblivia

namespace Relay

section Books

variable {L : Limits} {s s' : Sponsor} {new : Finset ℕ} {r i : ℕ}

/-- A step of the budget that admits these requests, and releases none. -/
structure Sponsor.Admits (s : Sponsor) (new : Finset ℕ) (s' : Sponsor) : Prop where
  acquired : s'.acquired = s.acquired
  queue : ∀ r, .check r ∈ s'.queue → .check r ∈ s.queue
  pending : ∀ r ∈ new, .check r ∈ s.queue
  active : s'.active = s.active ∪ new
  admitted : ∀ r, s'.Admitted r ↔ s.Admitted r ∨ r ∈ new

theorem Sponsor.Admits.none (hacq : s'.acquired = s.acquired) (hactive : s'.active = s.active)
    (hqueue : ∀ r, .check r ∈ s'.queue → .check r ∈ s.queue)
    (hadm : ∀ r, s'.Admitted r ↔ s.Admitted r) : s.Admits ∅ s' where
  acquired := hacq
  queue := hqueue
  pending := by simp
  active := by simp [hactive]
  admitted := by simp [hadm]

theorem Sponsor.admitted_settle_error {error : AcquireError} :
    (s.settle r (.error error)).Admitted i ↔ s.Admitted i := by
  simp [Admitted, settle]

theorem Sponsor.admits_of_internal {e : Event} (hs : s.step L e = .ok s')
    (he : e.isInternal = true) : ∃ new, s.Admits new s' := by
  cases step_cases hs with
  | acquire => cases he
  | ask => exact ⟨∅, .none rfl rfl (fun _ h => h) fun _ => Iff.rfl⟩
  | answer => exact ⟨∅, .none rfl rfl (fun _ h => h) fun _ => Iff.rfl⟩
  | @applyCheck r queue w hq =>
    have hpop : ∀ i, Task.check i ∈ queue → Task.check i ∈ s.queue :=
      fun i hi => hq ▸ List.mem_cons_of_mem _ hi
    rcases applyCheck_cases L s r queue w with ⟨-, heq⟩ | ⟨error, heq⟩
    · refine ⟨{r}, heq ▸ ⟨rfl, hpop, ?_, ?_, ?_⟩⟩
      · simp [hq]
      · show insert r s.active = s.active ∪ {r}
        rw [Finset.insert_eq, Finset.union_comm]
      · intro i
        simp [Admitted, Sponsor.reserve, settle, applyRecord, next]
    · exact ⟨∅, heq ▸ .none rfl rfl hpop fun i => admitted_settle_error⟩
  | applyRecord hq =>
    exact ⟨∅, .none rfl rfl (fun i hi => hq ▸ List.mem_cons_of_mem _ hi) fun _ => Iff.rfl⟩
  | rejectCheck hq =>
    exact ⟨∅, .none rfl rfl (fun i hi => hq ▸ List.mem_cons_of_mem _ hi)
      fun _ => admitted_settle_error⟩
  | rejectRecord hq =>
    exact ⟨∅, .none rfl rfl (fun i hi => hq ▸ List.mem_cons_of_mem _ hi) fun _ => Iff.rfl⟩
  | release => cases he
  | withdraw => cases he
  | deposit => exact ⟨∅, .none rfl rfl (fun _ h => h) fun _ => Iff.rfl⟩
  | midnight => exact ⟨∅, .none rfl rfl (fun _ h => h) fun _ => Iff.rfl⟩

theorem Sponsor.admits_of_withdraw {x : ℕ} (hs : s.step L (.withdraw r x) = .ok s') :
    s.Admits ∅ s' := by
  cases step_cases hs with
  | withdraw => exact .none rfl rfl (fun _ h => h) fun _ => Iff.rfl

@[simp]
theorem Sponsor.acquired_release : (s.release r).acquired = s.acquired := by
  unfold release
  split_ifs <;> rfl

@[simp]
theorem Sponsor.active_release : (s.release r).active = s.active.erase r := by
  unfold release
  split_ifs with hr
  · rfl
  · exact (Finset.erase_eq_of_notMem hr).symm

@[simp]
theorem Sponsor.admitted_release : (s.release r).Admitted i ↔ s.Admitted i := by
  unfold release
  split_ifs <;> rfl

@[simp]
theorem Sponsor.check_mem_release : .check i ∈ (s.release r).queue ↔ .check i ∈ s.queue := by
  unfold release
  split_ifs <;> simp

theorem Sponsor.mem_settled_of_lookup {outcome : Except AcquireError Unit}
    (h : s.settled.lookup r = some outcome) : (r, outcome) ∈ s.settled := by
  obtain ⟨pre, post, heq, -⟩ := List.lookup_eq_some_iff.1 h
  simp [heq]

/-- An acquire settles once. -/
theorem Sponsor.Orderly.settled_unique (h : s.Orderly) {a b : Except AcquireError Unit}
    (ha : (r, a) ∈ s.settled) (hb : (r, b) ∈ s.settled) : a = b := by
  have hnodup := h.nodup
  rw [h.order] at hnodup
  have heq := List.inj_on_of_nodup_map (List.nodup_append.1 hnodup).1 ha hb rfl
  exact (Prod.ext_iff.1 heq).2

theorem Sponsor.Orderly.acquired (h : s.Orderly) (hr : s.Admitted r) : r ∈ s.acquired := by
  rw [h.order]
  exact List.mem_append_left _ (List.mem_map.2 ⟨_, hr, rfl⟩)

end Books

/-- What the middleware has done for a request agrees with the books of the budget. -/
structure Wired (s : Sponsor) (r : ℕ) (x : Exchange) : Prop where
  arrived : r ∈ s.acquired → x.phase ≠ .absent
  pending : .check r ∈ s.queue → ∃ route body, x.phase = .acquiring route body
  listening : x.listening = true → s.Admitted r
  finishing : x.finishing = true → x.phase = .done

/-- The code of the request may still send. -/
def Phase.canSend : Phase → Bool
  | acquiring _ _ => true
  | handling route stage => Relay.canSend route stage
  | _ => false

/-- The request has been admitted, and its code may still send. -/
def MaySpend (s : Sponsor) (r : ℕ) (x : Exchange) : Prop :=
  s.Admitted r ∧ x.phase.canSend = true

/-- There is no such request, or its code and its connection have ended with both events emitted. -/
def Exchange.resting (x : Exchange) : Bool :=
  match x.phase with
  | .absent => true
  | .done => x.closed && !x.finishing
  | _ => false

/-- A request that may spend has its reservation, and a reservation will be released: its
listeners are attached and `close` is still to come, or they are about to be. -/
structure Held (s : Sponsor) (r : ℕ) (x : Exchange) : Prop where
  spending : MaySpend s r x → r ∈ s.active
  watched : r ∈ s.active →
    (∃ route body, x.phase = .acquiring route body) ∨ (x.listening = true ∧ x.closed = false)

section Request

variable {s s' : Sponsor} {new : Finset ℕ} {r i : ℕ} {x : Exchange}

theorem Wired.admits (h : Wired s r x) (ha : s.Admits new s') : Wired s' r x where
  arrived hr := h.arrived (ha.acquired ▸ hr)
  pending hr := h.pending (ha.queue r hr)
  listening hl := (ha.admitted r).2 (.inl (h.listening hl))
  finishing := h.finishing

theorem Wired.release (h : Wired s r x) (i : ℕ) : Wired (s.release i) r x where
  arrived hr := h.arrived (by simpa using hr)
  pending hr := h.pending (by simpa using hr)
  listening hl := by simpa using h.listening hl
  finishing := h.finishing

theorem Wired.acquire (h : Wired s r x) (hi : r ≠ i) : Wired (s.acquire i) r x where
  arrived hr := h.arrived (by simpa [Sponsor.acquire, hi] using hr)
  pending hr := h.pending (by simpa [Sponsor.acquire, hi] using hr)
  listening := h.listening
  finishing := h.finishing

theorem Held.admits (h : Held s r x) (hw : Wired s r x) (ha : s.Admits new s') : Held s' r x where
  spending hs := by
    rw [ha.active, Finset.mem_union]
    rcases (ha.admitted r).1 hs.1 with hadm | hnew
    · exact .inl (h.spending ⟨hadm, hs.2⟩)
    · exact .inr hnew
  watched hr := by
    rw [ha.active, Finset.mem_union] at hr
    rcases hr with hr | hnew
    · exact h.watched hr
    · exact .inl (hw.pending (ha.pending r hnew))

/-- A reservation is released once its request cannot spend any more. -/
theorem Held.release (h : Held s r x) (hi : i = r → ¬ MaySpend s r x) : Held (s.release i) r x where
  spending hs := by
    have hbefore : MaySpend s r x := ⟨by simpa using hs.1, hs.2⟩
    rw [Sponsor.active_release, Finset.mem_erase]
    exact ⟨fun he => hi he.symm hbefore, h.spending hbefore⟩
  watched hr := by
    rw [Sponsor.active_release] at hr
    exact h.watched (Finset.mem_of_mem_erase hr)

end Request

namespace Server

variable {L : Limits} {m m' : Server} {e : ServerEvent} {r : ℕ} {x : Exchange}

def Wired (m : Server) : Prop := m.sponsor.Orderly ∧ ∀ r, Relay.Wired m.sponsor r (m.exchange r)

def Held (m : Server) : Prop := ∀ r, Relay.Held m.sponsor r (m.exchange r)

def MaySpend (m : Server) (r : ℕ) : Prop := Relay.MaySpend m.sponsor r (m.exchange r)

instance (m : Server) (r : ℕ) : Decidable (m.MaySpend r) := inferInstanceAs (Decidable (_ ∧ _))

/-- No code runs, and every connection has ended with its events emitted. -/
def Quiet (m : Server) : Prop := ∀ r, (m.exchange r).resting = true

/-- A `close` that releases comes when its request can no longer spend, and an admitted request is
let in before its `close`. -/
def Attended (m : Server) : ServerEvent → Prop
  | .close r => (m.exchange r).listening = true → ¬ m.MaySpend r
  | .resume r _ => m.sponsor.Admitted r → (m.exchange r).closed = false
  | _ => True

instance (m : Server) (e : ServerEvent) : Decidable (Attended m e) := by
  cases e <;> unfold Attended <;> infer_instance

/-- A run that leaves the requests it is about at rest leaves all of them so. -/
theorem quiet_of_exec {balance today : ℕ} {es : List ServerEvent} {rs : List ℕ}
    (h : Batch.exec (step L) (start balance today) es = .ok m)
    (hes : ∀ e ∈ es, ∀ i ∈ e.request, i ∈ rs) (hrest : ∀ i ∈ rs, (m.exchange i).resting = true) :
    m.Quiet := by
  intro i
  by_cases hi : i ∈ rs
  · exact hrest i hi
  · rw [exec_frame h fun e he hreq => hi (hes e he i hreq)]
    rfl

theorem Wired.set (h : m.Wired) (hx : Relay.Wired m.sponsor r x) : (m.set r x).Wired :=
  ⟨h.1, (Function.forall_update_iff m.exchange (Relay.Wired m.sponsor)).2 ⟨hx, fun i _ => h.2 i⟩⟩

theorem Wired.emit (h : m.Wired) (r : ℕ) : (m.emit r).Wired := by
  unfold Server.emit
  split_ifs
  · exact ⟨h.1.release r, fun i => (h.2 i).release r⟩
  · exact h

/-- A request that is not in the queue goes on, to somewhere behind its arrival. -/
theorem Wired.move (h : m.Wired) (hq : .check r ∉ m.sponsor.queue) (hphase : x.phase ≠ .absent)
    (hlisten : x.listening = true → m.sponsor.Admitted r)
    (hfinish : x.finishing = true → x.phase = .done) : (m.set r x).Wired :=
  h.set ⟨fun _ => hphase, fun hr => absurd hr hq, hlisten, hfinish⟩

theorem Wired.respond (h : m.Wired) (hq : .check r ∉ m.sponsor.queue) (error : Option RelayError) :
    (m.respond r error).Wired :=
  h.move hq (by simp [Exchange.respond]) (h.2 r).listening fun _ => rfl

theorem Wired.not_queued (h : m.Wired)
    (hphase : ∀ route body, (m.exchange r).phase ≠ .acquiring route body) :
    .check r ∉ m.sponsor.queue := by
  intro hq
  obtain ⟨route, body, hacq⟩ := (h.2 r).pending hq
  exact hphase route body hacq

theorem Wired.sponsor_emit (h : m.Wired) (hx : x.listening = (m.exchange r).listening) :
    ((m.set r x).emit r).sponsor = m.sponsor ∨ ∃ e, some (.release r) = some e
      ∧ Sponsor.step L m.sponsor e = .ok ((m.set r x).emit r).sponsor := by
  have hlisten : ((m.set r x).exchange r).listening = (m.exchange r).listening := by
    simp [Server.set, hx]
  unfold Server.emit
  rw [hlisten]
  split_ifs with hl
  · exact .inr ⟨_, rfl, if_pos ((h.2 r).listening hl)⟩
  · exact .inl rfl

/-- What a step of the server does to the budget is a step of the budget. -/
theorem Wired.sponsor_step (h : m.Wired) (hs : Step L m e m') :
    m'.sponsor = m.sponsor
      ∨ ∃ e', e.effect = some e' ∧ Sponsor.step L m.sponsor e' = .ok m'.sponsor := by
  cases hs with
  | @arrive r route body admission hphase =>
    cases admission with
    | limited => exact .inl rfl
    | misconfigured => exact .inl rfl
    | budgeted => exact .inr ⟨.acquire r, rfl, if_neg fun hr => (h.2 r).arrived hr hphase⟩
  | budget _ hs => exact .inr ⟨_, rfl, hs⟩
  | resume => exact .inl rfl
  | refuse => exact .inl rfl
  | @advance r route stage reply o => cases o <;> exact .inl rfl
  | spend _ _ hs => exact .inr ⟨_, rfl, hs⟩
  | hangUp => exact .inl rfl
  | close => exact h.sponsor_emit rfl
  | finish => exact h.sponsor_emit rfl

theorem Wired.step (h : m.Wired) (hs : Step L m e m') : m'.Wired := by
  cases hs with
  | @arrive r route body admission hphase =>
    have hq : .check r ∉ m.sponsor.queue := h.not_queued (by simp [hphase])
    cases admission with
    | limited => exact h.respond hq _
    | misconfigured => exact h.respond hq _
    | budgeted =>
      have hnew : r ∉ m.sponsor.acquired := fun hr => (h.2 r).arrived hr hphase
      refine ⟨h.1.step (L := L) (e := .acquire r) (if_neg hnew), ?_⟩
      refine (Function.forall_update_iff m.exchange (Relay.Wired (m.sponsor.acquire r))).2
        ⟨⟨by simp, fun _ => ⟨route, body, rfl⟩, (h.2 r).listening, fun hf => ?_⟩,
          fun i hi => (h.2 i).acquire hi⟩
      exact absurd ((h.2 r).finishing hf) (by simp [hphase])
  | budget he hs =>
    obtain ⟨new, ha⟩ := Sponsor.admits_of_internal hs he
    exact ⟨h.1.step hs, fun i => (h.2 i).admits ha⟩
  | @resume r route body configured hphase hsettled =>
    have hadm := Sponsor.mem_settled_of_lookup hsettled
    unfold handle
    split
    · exact h.move (h.1.not_queued hadm) (by simp [Exchange.respond]) (fun _ => hadm) fun _ => rfl
    · refine h.move (h.1.not_queued hadm) (by simp) (fun _ => hadm) fun hf => ?_
      exact absurd ((h.2 r).finishing hf) (by simp [hphase])
  | refuse _ hsettled => exact h.respond (h.1.not_queued (Sponsor.mem_settled_of_lookup hsettled)) _
  | @advance r route stage reply o hphase =>
    have hq : .check r ∉ m.sponsor.queue := h.not_queued (by simp [hphase])
    cases o with
    | answer error => exact h.respond hq _
    | wait next =>
      refine h.move hq (by simp) (h.2 r).listening fun hf => ?_
      exact absurd ((h.2 r).finishing hf) (by simp [hphase])
  | spend _ _ hs => exact ⟨h.1.step hs, fun i => (h.2 i).admits (Sponsor.admits_of_withdraw hs)⟩
  | @hangUp r =>
    have hr := h.2 r
    exact h.set ⟨hr.arrived, hr.pending, hr.listening, hr.finishing⟩
  | @close r =>
    have hr := h.2 r
    have hset : (m.set r { m.exchange r with closed := true }).Wired :=
      h.set ⟨hr.arrived, hr.pending, hr.listening, hr.finishing⟩
    exact hset.emit r
  | @finish r =>
    have hr := h.2 r
    have hset : (m.set r { m.exchange r with finishing := false }).Wired :=
      h.set ⟨hr.arrived, hr.pending, hr.listening, fun hf => by cases hf⟩
    exact hset.emit r

theorem wired_start (balance today : ℕ) : (start balance today).Wired :=
  ⟨Sponsor.orderly_start balance today, fun _ => ⟨by simp [start, Sponsor.start],
    by simp [start, Sponsor.start], by simp [start, Exchange.unknown],
    by simp [start, Exchange.unknown]⟩⟩

/-- Every run of the server is a run of the budget, of what its steps bring about. -/
theorem sponsor_path {balance today : ℕ} {js : List (Server × ServerEvent)}
    (hp : Batch.Path (step L) (start balance today) js m) :
    m.Wired ∧ ∃ ks, Batch.Path (Sponsor.step L) (Sponsor.start balance today) ks m.sponsor
      ∧ ∀ k ∈ ks, ∃ j ∈ js, j.1.sponsor = k.1 ∧ j.2.effect = some k.2 := by
  induction hp with
  | nil => exact ⟨wired_start _ _, [], .nil, by simp⟩
  | @snoc js m m' e _ hs ih =>
    obtain ⟨hw, ks, hks, hjs⟩ := ih
    have hbefore : ∀ k ∈ ks, ∃ j ∈ js ++ [(m, e)], j.1.sponsor = k.1 ∧ j.2.effect = some k.2 :=
      fun k hk => (hjs k hk).imp fun _ hj => ⟨List.mem_append_left _ hj.1, hj.2⟩
    have hstep := step_cases hs
    refine ⟨hw.step hstep, ?_⟩
    rcases hw.sponsor_step hstep with heq | ⟨e', heffect, he'⟩
    · exact ⟨ks, heq ▸ hks, hbefore⟩
    · refine ⟨_, hks.snoc he', fun k hk => ?_⟩
      rcases List.mem_append.1 hk with hk | hk
      · exact hbefore k hk
      · rw [List.mem_singleton.1 hk]
        exact ⟨(m, e), by simp, rfl, heffect⟩

theorem Held.set (h : m.Held) (hx : Relay.Held m.sponsor r x) : (m.set r x).Held :=
  (Function.forall_update_iff m.exchange (Relay.Held m.sponsor)).2 ⟨hx, fun i _ => h i⟩

/-- An event of a response that no longer may spend. -/
theorem Held.emit (h : m.Held) (hr : (m.exchange r).listening = true → ¬ m.MaySpend r) :
    (m.emit r).Held := by
  unfold Server.emit
  split_ifs with hl
  · exact fun i => (h i).release fun he => he ▸ hr hl
  · exact h

/-- An active request whose code is behind the middleware is watched by its listeners. -/
theorem Held.behind (h : m.Held)
    (hphase : ∀ route body, (m.exchange r).phase ≠ .acquiring route body)
    (hr : r ∈ m.sponsor.active) :
    (m.exchange r).listening = true ∧ (m.exchange r).closed = false := by
  rcases (h r).watched hr with ⟨route, body, hacq⟩ | hwatched
  · exact absurd hacq (hphase route body)
  · exact hwatched

theorem Held.respond (h : m.Held)
    (hwatched : r ∈ m.sponsor.active →
      (m.exchange r).listening = true ∧ (m.exchange r).closed = false)
    (error : Option RelayError) : (m.respond r error).Held :=
  h.set ⟨fun hs => absurd hs.2 Bool.false_ne_true, fun hr => .inr (hwatched hr)⟩

/-- A `close` releases, and after it nothing watches. -/
theorem Held.close (h : m.Held) (hr : (m.exchange r).listening = true → ¬ m.MaySpend r) :
    ((m.set r { m.exchange r with closed := true }).emit r).Held := by
  have hlisten : ((m.set r { m.exchange r with closed := true }).exchange r).listening
      = (m.exchange r).listening := by simp [Server.set]
  unfold Server.emit
  rw [hlisten]
  split_ifs with hl
  · refine (Function.forall_update_iff m.exchange (Relay.Held (m.sponsor.release r))).2
      ⟨⟨fun hs => absurd ⟨by simpa using hs.1, hs.2⟩ (hr hl), fun hact => ?_⟩, fun i hi => ?_⟩
    · simp at hact
    · exact (h i).release fun he => absurd he.symm hi
  · exact h.set ⟨(h r).spending, fun hact =>
      ((h r).watched hact).imp_right fun hwatched => absurd hwatched.1 hl⟩

theorem Held.step (h : m.Held) (hw : m.Wired) (hs : Step L m e m') (hatt : Attended m e) :
    m'.Held := by
  cases hs with
  | @arrive r route body admission hphase =>
    have hnew : r ∉ m.sponsor.acquired := fun hr => (hw.2 r).arrived hr hphase
    have hact : r ∉ m.sponsor.active := fun hr => hnew (hw.1.acquired (hw.1.admitted r hr))
    cases admission with
    | limited => exact h.respond (fun hr => absurd hr hact) _
    | misconfigured => exact h.respond (fun hr => absurd hr hact) _
    | budgeted =>
      have hset : (m.set r { m.exchange r with phase := .acquiring route body }).Held :=
        h.set ⟨fun hs => absurd (hw.1.acquired hs.1) hnew, fun _ => .inl ⟨route, body, rfl⟩⟩
      exact fun i => ⟨(hset i).spending, (hset i).watched⟩
  | budget he hs =>
    obtain ⟨new, ha⟩ := Sponsor.admits_of_internal hs he
    exact fun i => (h i).admits (hw.2 i) ha
  | @resume r route body configured hphase hsettled =>
    have hadm := Sponsor.mem_settled_of_lookup hsettled
    have hopen : (m.exchange r).closed = false := hatt hadm
    unfold handle
    split
    · exact h.set ⟨fun hs => absurd hs.2 Bool.false_ne_true, fun _ => .inr ⟨rfl, hopen⟩⟩
    · refine h.set ⟨fun _ => (h r).spending ⟨hadm, ?_⟩, fun _ => .inr ⟨rfl, hopen⟩⟩
      rw [hphase]
      rfl
  | @refuse r _ _ _ error _ hsettled =>
    refine h.respond (fun hr => ?_) _
    have hrej := Sponsor.mem_settled_of_lookup hsettled
    cases hw.1.settled_unique (hw.1.admitted r hr) hrej
  | @advance r route stage reply o hphase ho =>
    have hwatched := h.behind (r := r) (by simp [hphase])
    cases o with
    | answer error => exact h.respond hwatched _
    | wait next =>
      refine h.set ⟨fun hs => (h r).spending ⟨hs.1, ?_⟩, fun hr => .inr (hwatched hr)⟩
      rw [hphase]
      exact canSend_of_proceed ho hs.2
  | spend _ _ hs => exact fun i => (h i).admits (hw.2 i) (Sponsor.admits_of_withdraw hs)
  | @hangUp r => exact h.set ⟨(h r).spending, (h r).watched⟩
  | close => exact h.close hatt
  | @finish r hfinish =>
    have hdone := (hw.2 r).finishing hfinish
    have hset : (m.set r { m.exchange r with finishing := false }).Held :=
      h.set ⟨(h r).spending, (h r).watched⟩
    refine hset.emit fun _ hs => ?_
    have hsend := hs.2
    simp [Server.set, hdone, Phase.canSend] at hsend

theorem held_of_path {balance today : ℕ} {js : List (Server × ServerEvent)}
    (hp : Batch.Path (step L) (start balance today) js m) :
    (∀ p ∈ js, Attended p.1 p.2) → m.Held := by
  induction hp with
  | nil =>
    exact fun _ _ => ⟨fun hs => absurd hs.2 Bool.false_ne_true, by simp [start, Sponsor.start]⟩
  | snoc hp hs ih =>
    intro hatt
    exact (ih fun p hp => hatt p (List.mem_append_left _ hp)).step (sponsor_path hp).1
      (step_cases hs) (hatt _ (List.mem_append_right _ (List.mem_singleton_self _)))

/-- Nothing is active at rest. -/
theorem Held.active_eq_empty (h : m.Held) (hw : m.Wired) (hquiet : m.Quiet) :
    m.sponsor.active = ∅ := by
  refine Finset.eq_empty_of_forall_notMem fun r hr => ?_
  have hrest := hquiet r
  unfold Exchange.resting at hrest
  split at hrest
  · rename_i habsent
    exact (hw.2 r).arrived (hw.1.acquired (hw.1.admitted r hr)) habsent
  · rename_i hdone
    have hopen := (h.behind (by simp [hdone]) hr).2
    simp [hopen] at hrest
  · cases hrest

/-- In a run whose steps are all attended, the reservations cover the requests that may spend, and
none is left once everything has come to rest. -/
theorem reservations_cover {balance today : ℕ} {js : List (Server × ServerEvent)}
    (hp : Batch.Path (step L) (start balance today) js m) (hatt : ∀ p ∈ js, Attended p.1 p.2) :
    (∀ S : Finset ℕ, (∀ r ∈ S, m.MaySpend r) → S.card ≤ m.sponsor.state.inFlight)
      ∧ (m.Quiet → m.sponsor.state.inFlight = 0) := by
  have hw := (sponsor_path hp).1
  have hheld := held_of_path hp hatt
  rw [hw.1.inFlight]
  refine ⟨fun S hS => ?_, fun hquiet => ?_⟩
  · exact_mod_cast Finset.card_le_card fun r hr => (hheld r).spending (hS r hr)
  · rw [hheld.active_eq_empty hw hquiet]
    rfl

section Spending

/-- No request spends more than its reserve, nothing else moves the wallet, and no check admits on a
reading that misses too much. -/
def Frugal (L : Limits) (m : Server) (e : ServerEvent) : Prop :=
  ∀ e' ∈ e.effect, Sponsor.Timely L m.sponsor e' ∧ match e' with
    | .withdraw r x => m.sponsor.wallet.spent r + x ≤ L.reserveLamports
    | .deposit _ => False
    | _ => True

/-- Only active requests spend. -/
theorem Held.moved (h : m.Held) (hs : Server.step L m e = .ok m') (hf : Frugal L m e) {e' : Event}
    (he : e.effect = some e') : Sponsor.Moved L m.sponsor e' := by
  have hfrugal := (hf e' he).2
  cases e' with
  | withdraw r x =>
    cases step_cases hs with
    | budget hint =>
      cases he
      cases hint
    | @spend _ _ _ _ _ hphase hsend hwithdraw =>
      cases he
      refine ⟨(h r).spending ⟨?_, ?_⟩, hfrugal⟩
      · cases Sponsor.step_cases hwithdraw with
        | withdraw hadm => exact hadm
      · rw [hphase]
        exact canSend_of_sending hsend
    | _ => cases he
  | deposit => exact hfrugal
  | _ => trivial

/-- In a run whose steps are all attended and frugal, of amounts that doubles hold exactly, the
server keeps both limits. -/
theorem limits_kept {balance today : ℕ} {js : List (Server × ServerEvent)}
    (hp : Batch.Path (step L) (start balance today) js m) (hexact : Sponsor.Exact L balance)
    (hatt : ∀ p ∈ js, Attended p.1 p.2) (hf : ∀ p ∈ js, Frugal L p.1 p.2) :
    (m.sponsor.state.day = some m.sponsor.today →
        m.sponsor.wallet.total - m.sponsor.opening ≤ L.dailyLamports)
      ∧ ∀ r x m', step L m (.spend r x) = .ok m' → Frugal L m (.spend r x) →
        L.floorLamports ≤ m'.sponsor.wallet.balance := by
  obtain ⟨-, ks, hks, hjs⟩ := sponsor_path hp
  have hmoved : ∀ k ∈ ks, Sponsor.Moved L k.1 k.2 := by
    intro k hk
    obtain ⟨⟨n, e⟩, hj, heq, heffect⟩ := hjs k hk
    obtain ⟨pre, post, rfl⟩ := List.append_of_mem hj
    obtain ⟨hpre, n', hstep, -⟩ := hp.at_step rfl
    have hheld := held_of_path hpre fun p hp => hatt p (List.mem_append_left _ hp)
    exact heq ▸ hheld.moved hstep (hf _ hj) heffect
  have htimely : ∀ k ∈ ks, Sponsor.Timely L k.1 k.2 := by
    intro k hk
    obtain ⟨j, hj, heq, heffect⟩ := hjs k hk
    exact heq ▸ (hf j hj k.2 heffect).1
  obtain ⟨-, hc⟩ := Sponsor.covered_of_path hks hexact hmoved htimely
  refine ⟨hc.daily, fun r x m' hs hfrugal => ?_⟩
  have hspend := (held_of_path hp hatt).moved hs hfrugal rfl
  cases step_cases hs with
  | spend _ _ hwithdraw => exact hc.above_floor hwithdraw hspend

end Spending

section Leaving

def leavingLimits : Limits := ⟨10, 0, 10⟩

def createBody : Json := .object
  [("contractHash".toList, jsonBytes (List.replicate 32 0)),
    ("threshold".toList, .number (.ofNat 1)), ("maxSigners".toList, .number (.ofNat 1))]

/-- The client leaves while its handler runs. -/
def releasedEarly : List ServerEvent :=
  [.arrive 0 .create (some createBody) .budgeted, .budget .ask, .budget .answer, .budget .apply,
    .resume 0 true, .hangUp 0, .close 0, .advance 0 .absent]

/-- The client leaves while the balance is read, and its handler runs to its end. -/
def neverReleased : List ServerEvent :=
  [.arrive 0 .create (some createBody) .budgeted, .budget .ask, .hangUp 0, .close 0,
    .budget .answer, .budget .apply, .resume 0 true, .advance 0 .found, .advance 0 .found]

theorem reservations_fail :
    (∃ m, Batch.exec (step leavingLimits) (start 100 0) releasedEarly = .ok m
      ∧ m.MaySpend 0 ∧ m.sponsor.state.inFlight = 0)
    ∧ ∃ m, Batch.exec (step leavingLimits) (start 100 0) neverReleased = .ok m
      ∧ m.Quiet ∧ m.sponsor.state.inFlight = 1 := by
  refine ⟨Batch.exists_exec (by decide +kernel), ?_⟩
  have hrun : ∃ m, Batch.exec (step leavingLimits) (start 100 0) neverReleased = .ok m
      ∧ (∀ i ∈ [0], (m.exchange i).resting = true) ∧ m.sponsor.state.inFlight = 1 :=
    Batch.exists_exec (by decide +kernel)
  obtain ⟨m, hm, hrest, hin⟩ := hrun
  exact ⟨m, hm, quiet_of_exec hm (by decide +kernel) hrest, hin⟩

/-- The client leaves once its handler has failed to read the contract. -/
def attendedRun : List ServerEvent :=
  [.arrive 0 .create (some createBody) .budgeted, .budget .ask, .budget .answer, .budget .apply,
    .resume 0 true]

def attendedEnd : List ServerEvent :=
  [.advance 0 (.failed ⟨502, "Solana request failed"⟩), .finish 0, .hangUp 0, .close 0]

theorem reservations_cover_sample :
    (∃ m, Batch.exec (step leavingLimits) (start 100 0) attendedRun = .ok m
      ∧ 1 ≤ m.sponsor.state.inFlight)
    ∧ ∃ m, Batch.exec (step leavingLimits) (start 100 0) (attendedRun ++ attendedEnd) = .ok m
      ∧ m.sponsor.state.inFlight = 0 := by
  have hrun : ∃ m, Batch.exec (step leavingLimits) (start 100 0) attendedRun = .ok m
      ∧ ∀ r ∈ ({0} : Finset ℕ), m.MaySpend r := Batch.exists_exec (by decide +kernel)
  have hend : ∃ m, Batch.exec (step leavingLimits) (start 100 0) (attendedRun ++ attendedEnd)
      = .ok m ∧ ∀ i ∈ [0], (m.exchange i).resting = true := Batch.exists_exec (by decide +kernel)
  obtain ⟨m, hm, hspend⟩ := hrun
  obtain ⟨m', hm', hrest⟩ := hend
  refine ⟨⟨m, hm, ?_⟩, m', hm', ?_⟩
  · exact (reservations_cover (Batch.path_exec _ .nil hm) (by decide +kernel)).1 {0} hspend
  · exact (reservations_cover (Batch.path_exec _ .nil hm') (by decide +kernel)).2
      (quiet_of_exec hm' (by decide +kernel) hrest)

end Leaving

end Server

end Relay

end Oblivia

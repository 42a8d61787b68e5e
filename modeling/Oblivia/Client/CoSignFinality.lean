import Oblivia.Client.CoSignPage
/-!
# A final agreement stays final on the page

Once the page has rendered a validated status that is final, every section of every handler leaves
it displayed, and none of them starts to submit a signature (`finality_kept`): each write to the
button and to the progress line either renders the final status or comes after a check that none is
known.
-/

namespace Oblivia

namespace MultisigPage

open Async Dialogue

/-- The page shows that the agreement is final, if it knows that it is. -/
def Shown (p : Page) : Prop :=
  ∀ final, p.finalizedStatus = some final → final.Valid 0 ∧ final.finalized = true
    ∧ p.progress = final.text ∧ p.scanBtn = ⟨true, "Agreement Finalized"⟩

/-- A section shows what is final, keeps it, and does not go on to submit a signature. -/
def Settles (_ : Turn Wait Wait.Answer) (p : Page) (q : Option Wait) (p' : Page) : Prop :=
  Shown p' ∧ ∀ final, p.finalizedStatus = some final →
    p'.finalizedStatus = some final ∧ ∀ body, q ≠ some (.postSign body)

/-- So far the section, which began with `o`, has kept what is final. -/
def Kept (o : Turn Wait Wait.Answer × Page) (p : Page) : Prop :=
  Shown p ∧ ∀ final, o.2.finalizedStatus = some final → p.finalizedStatus = some final

section Writes

variable {o : Turn Wait Wait.Answer × Page} {p p' : Page} {status : AgreementStatus}

theorem Kept.settles {q : Option Wait} (h : Kept o p) (hq : ∀ body, q ≠ some (.postSign body)) :
    Settles o.1 o.2 q p :=
  ⟨h.1, fun final hfinal => ⟨h.2 final hfinal, hq⟩⟩

/-- A write to other elements. -/
theorem Kept.other (h : Kept o p) (hfinal : p'.finalizedStatus = p.finalizedStatus)
    (hprogress : p'.progress = p.progress) (hbtn : p'.scanBtn = p.scanBtn) : Kept o p' := by
  unfold Kept Shown at h ⊢
  rw [hfinal, hprogress, hbtn]
  exact h

/-- A write while nothing final is known. -/
theorem Kept.open (h : Kept o p) (hp : p.finalizedStatus = none)
    (hp' : p'.finalizedStatus = none) : Kept o p' := by
  refine ⟨fun final hfinal => ?_, fun final hfinal => ?_⟩
  · rw [hp'] at hfinal
    cases hfinal
  · have := h.2 final hfinal
    rw [hp] at this
    cases this

theorem renderStatus_of_final {final : AgreementStatus} (hp : p.finalizedStatus = some final)
    (hfinal : final.finalized = true) : renderStatus status p = { p with
      progress := final.text
      scanBtn := ⟨true, "Agreement Finalized"⟩
      createPasskeyDisabled := true } := by
  simp [renderStatus, Page.finalizes, hp, hfinal]

theorem Kept.render (h : Kept o p) (hstatus : status.Valid 0) : Kept o (renderStatus status p) := by
  rcases hp : p.finalizedStatus with _ | final
  · rcases hfinal : status.finalized with _ | _
    · exact h.open hp (by simp [renderStatus, Page.finalizes, hp, hfinal])
    · have hrender : renderStatus status p = { p with
          finalizedStatus := some status
          progress := status.text
          scanBtn := ⟨true, "Agreement Finalized"⟩
          createPasskeyDisabled := true } := by
        simp [renderStatus, Page.finalizes, hp, hfinal]
      rw [hrender]
      refine ⟨fun final heq => ?_, fun final heq => ?_⟩
      · obtain rfl : status = final := Option.some.inj heq
        exact ⟨hstatus, hfinal, rfl, rfl⟩
      · have := h.2 final heq
        rw [hp] at this
        cases this
  · obtain ⟨hvalid, hfinal, -, -⟩ := h.1 final hp
    rw [renderStatus_of_final hp hfinal]
    refine ⟨fun final' heq => ?_, fun final' heq => h.2 final' heq⟩
    obtain rfl : final = final' := Option.some.inj (hp.symm.trans heq)
    exact ⟨hvalid, hfinal, rfl, rfl⟩

end Writes

section Handlers

/-- Every section of a handler keeps what is final. -/
abbrev Keeps {ε α : Type} (x : Task ε α) : Prop :=
  Keeping (fun _ p => Shown p) Settles Kept x

theorem keeps_receive {ε : Type} {q : Wait} (hq : ∀ body, q ≠ .postSign body) :
    Keeps (receive q : Task ε q.Answer) :=
  keeping_receive (fun _ _ h => h.settles fun body heq => hq body (Option.some.inj heq))
    fun _ _ hp => ⟨hp, fun _ hfinal => hfinal⟩

theorem keeps_modify {ε : Type} {f : Page → Page} (hf : ∀ o p, Kept o p → Kept o (f p)) :
    Keeps (modify f : Task ε Unit) :=
  keeping_modify hf

theorem keeps_tryStatus (revision : ℕ) : Keeps (tryStatus revision) := by
  unfold tryStatus
  refine keeping_get.bind fun p => Keeping.ite keeping_throw ?_
  refine (keeps_receive (by simp)).bind fun answer => keeping_attempt.bind fun s => ?_
  refine keeping_get.bind fun p => Keeping.ite keeping_pure (Keeping.ite keeping_throw ?_)
  intro o p h
  refine meets_attempt_bind.2 ?_
  rcases hs : validateStatus s 0 with e | status
  · exact h
  · exact h.render (valid_of_validateStatus hs)

theorem keeps_refreshStatus : Keeps refreshStatus := by
  unfold refreshStatus
  refine Keeping.bind (keeps_modify ?_) fun _ => ?_
  · exact fun o p h => h.other rfl rfl rfl
  refine keeping_get.bind fun p => Keeping.catching (keeps_tryStatus _) fun _ => ?_
  unfold statusFailed
  refine keeping_get.bind fun p => Keeping.ite keeping_pure (keeps_modify fun o p h => ?_)
  split
  · rename_i final hfinal
    exact h.render (h.1 final hfinal).1
  · rename_i hopen
    exact h.open hopen hopen

variable {sha256 : List UInt8 → Bytes 32} {clock : ℕ → Text} {config : ℕ × ℕ}
  {domain : Except String (Option Text)} {create : Bool}

theorem keeps_takeAnswer (l : Locals) (answer : RelayAnswer) : Keeps (takeAnswer l answer) := by
  unfold takeAnswer
  refine keeping_attempt.bind fun data => keeping_attempt.bind fun transaction => ?_
  refine Keeping.bind (keeps_modify ?_) fun _ => Keeping.ite ?_ ?_
  · exact fun o p h => h.other rfl rfl rfl
  · refine Keeping.bind (keeps_modify fun o p h => ?_) fun _ => keeping_pure
    unfold statusUnavailable
    split
    · exact h
    · rename_i hopen
      exact h.open hopen hopen
  · intro o p h
    refine meets_attempt_bind.2 ?_
    rcases hs : validateStatus data 1 with e | status
    · exact h
    have hvalid : status.Valid 0 := (valid_of_validateStatus hs).mono (by decide)
    refine Keeping.bind (keeps_modify fun o p h => h.render hvalid) (fun _ => ?_) o p h
    refine keeping_get_bind fun o p h => ?_
    split_ifs with hopen
    · have hnone : p.finalizedStatus = none := by simpa using hopen.2
      exact h.open hnone hnone
    · exact h

theorem keeps_trySign : Keeps (trySign sha256 clock config) := by
  unfold trySign
  refine keeping_get_bind fun o p h => meets_attempt_bind.2 ?_
  rcases hb : buildInput sha256 clock p with e | p'
  · exact h
  have hp' : Kept o p' := by
    obtain ⟨inputs, readings, rfl⟩ := buildInput_eq_ok hb
    exact h.other rfl rfl rfl
  refine meets_set_bind.2 (Keeping.bind ?_ (fun answer => ?_) o p' hp')
  · exact keeps_receive (by simp)
  refine keeping_attempt.bind fun ⟨proof, publicSignals⟩ => keeping_get_bind fun o p h => ?_
  -- a proof that comes after the agreement is final is dropped
  rcases hopen : p.finalizedStatus with _ | final
  · rw [if_neg (by simp)]
    refine meets_attempt_bind.2 ?_
    rcases grothPayload proof publicSignals with e | payload
    · exact h
    refine meets_get_bind.2 (meets_receive_bind.2 ⟨⟨h.1, fun final hfinal => ?_⟩, fun r hr => ?_⟩)
    · have := h.2 final hfinal
      rw [hopen] at this
      cases this
    · exact keeps_takeAnswer _ r.1 _ r.2 ⟨hr, fun final hfinal => hfinal⟩
  · exact h

theorem Kept.signFailed {o : Turn Wait Wait.Answer × Page} {p : Page} {l : Locals}
    (h : Kept o p) : Kept o (signFailed l p) := by
  unfold MultisigPage.signFailed
  split
  · rename_i final hfinal
    exact h.render (h.1 final hfinal).1
  · rename_i hopen
    split_ifs
    · exact h.open hopen hopen
    · exact h.open hopen hopen
    · exact h

theorem Kept.signDone {o : Turn Wait Wait.Answer × Page} {p : Page} {l : Locals}
    (h : Kept o p) : Kept o (signDone l p) := by
  have hp : Kept o { p with toSignerMemory := p.release l.input, signingInProgress := false } :=
    h.other rfl rfl rfl
  unfold MultisigPage.signDone
  simp only []
  split
  · rename_i final hfinal
    exact hp.render (h.1 final hfinal).1
  · rename_i hopen
    exact hp.open hopen hopen

theorem keeps_doSign : Keeps (doSign sha256 clock) := by
  unfold doSign
  refine keeping_get_bind fun o p h => ?_
  split_ifs with hguard
  · exact h
  push Not at hguard
  rcases hconfig : p.currentConfig with _ | config
  · exact h
  have hopen : p.finalizedStatus = none := by simpa using hguard.2.1
  refine meets_modify_bind.2 ?_
  refine Keeping.bind (Keeping.catching keeps_trySign fun l => ?_) (fun l => ?_) o _
    (h.open hopen hopen)
  · exact Keeping.bind (keeps_modify fun o p h => h.signFailed) fun _ => keeping_pure
  · exact keeps_modify fun o p h => h.signDone

theorem keeps_bioStatus (text : String) :
    Keeps (modify fun p => { p with bioStatus := text } : Task Unit Unit) :=
  keeps_modify fun _ _ h => h.other rfl rfl rfl

theorem keeps_unlockPasskey : Keeps (unlockPasskey sha256 clock) := by
  unfold unlockPasskey
  refine (keeps_bioStatus _).bind fun _ => (keeps_receive (by simp)).bind fun answer => ?_
  refine keeping_attempt.bind fun secret => Keeping.bind (keeps_modify ?_) fun _ => ?_
  · exact fun o p h => h.other rfl rfl rfl
  refine keeping_get.bind fun p => Keeping.ite keeping_pure ?_
  refine Keeping.bind (keeps_modify ?_) fun _ => ?_
  · exact fun o p h => h.other rfl rfl rfl
  · exact keeps_doSign.bind fun _ => keeps_receive (by simp)

theorem keeps_tryUnlock : Keeps (tryUnlock sha256 clock domain create) := by
  unfold tryUnlock
  refine keeping_attempt.bind fun _ => Keeping.ite ?_ keeps_unlockPasskey
  refine (keeps_bioStatus _).bind fun _ => (keeps_receive (by simp)).bind fun answer => ?_
  refine keeping_attempt.bind fun _ => keeping_get.bind fun p => ?_
  exact Keeping.ite keeping_pure keeps_unlockPasskey

theorem Kept.unlockDone {o : Turn Wait Wait.Answer × Page} {p : Page} (h : Kept o p) :
    Kept o (unlockDone p) := by
  have hp : Kept o (clearSigner p) := h.other rfl rfl rfl
  unfold MultisigPage.unlockDone
  simp only []
  split
  · rename_i final hfinal
    exact Kept.render (hp.other rfl rfl rfl) (h.1 final hfinal).1
  · exact hp

theorem keeps_unlockSigner : Keeps (unlockSigner sha256 clock domain create) := by
  unfold unlockSigner
  refine keeping_get_bind fun o p h => ?_
  split_ifs with hguard
  · exact h
  push Not at hguard
  have hopen : p.finalizedStatus = none := by simpa using hguard.2
  refine meets_modify_bind.2 ?_
  refine Keeping.andFinally (Keeping.catching keeps_tryUnlock fun _ => keeps_modify fun o p h => ?_)
    (keeps_modify fun o p h => h.unlockDone) o _ (h.open hopen hopen)
  unfold unlockFailed
  split
  · exact h
  · rename_i hopen
    exact h.open hopen hopen

theorem keeps_handler (event : Event) : Keeps (handler sha256 clock domain event) := by
  cases event with
  | refresh => exact keeps_refreshStatus
  | click create => exact keeps_unlockSigner

end Handlers

section Session

variable (sha256 : List UInt8 → Bytes 32) (clock : ℕ → Text)
  (domain : Except String (Option Text)) (contract : List UInt8) (config : Option (ℕ × ℕ))
  {ι : Type} (events : ι → Event)

theorem sound_session : (session sha256 clock domain contract config events).Sound
    (fun _ p => Shown p) Settles fun _ p => Shown p := by
  refine Crowd.sound_start (fun final hfinal => ?_) fun i r p hp => ?_
  · cases hfinal
  · have hkept : Kept (⟨.event, r⟩, p) p := ⟨hp, fun _ hfinal => hfinal⟩
    exact (keeps_handler (events i) _ p hkept).mono fun _ _ _ h => h.settles (by simp)

theorem invariant_shown [DecidableEq ι] : Crowd.Invariant (ι := ι) (fun _ p => Shown p) Settles
    fun _ p => Shown p :=
  ⟨fun h _ => h, fun _ _ hstep => hstep.1⟩

variable [DecidableEq ι]

/-- Whatever the events are and in whatever order their answers come: rendering a final status
makes it known; from then on it is the same, it is displayed, the button is disabled, and no
section ends in submitting a signature. -/
theorem finality_kept {c : Crowd ι Wait Wait.Answer Page (Except Unit Unit)}
    (hruns : Crowd.Runs (session sha256 clock domain contract config events) c) :
    (∀ status, status.finalized = true →
      (renderStatus status c.state).finalizedStatus.isSome = true)
    ∧ ∀ final, c.state.finalizedStatus = some final → ∀ c', Crowd.Runs c c' →
      final.Valid 0 ∧ c'.state.finalizedStatus = some final ∧ c'.state.progress = final.text
        ∧ c'.state.scanBtn = ⟨true, "Agreement Finalized"⟩
        ∧ ∀ i e c'', Crowd.Step c' i e c'' → ∀ body, c''.waits i ≠ some (.postSign body) := by
  refine ⟨fun status hstatus => ?_, fun final hfinal c' hruns' => ?_⟩
  · rw [renderStatus_finalizedStatus]
    exact isSome_finalizes hstatus
  · have hsound := (sound_session sha256 clock domain contract config events).runs
      invariant_shown hruns
    obtain ⟨hsound', hfinal'⟩ : c'.Sound (fun _ p => Shown p) Settles (fun _ p => Shown p)
        ∧ c'.state.finalizedStatus = some final := by
      induction hruns' with
      | refl => exact ⟨hsound, hfinal⟩
      | tail _ hstep ih =>
        obtain ⟨i, e, hstep⟩ := hstep
        obtain ⟨hsettles, hsound''⟩ := ih.1.resume invariant_shown hstep
        exact ⟨hsound'', (hsettles.2 final ih.2).1⟩
    obtain ⟨hvalid, -, hprogress, hbtn⟩ := hsound'.2 final hfinal'
    refine ⟨hvalid, hfinal', hprogress, hbtn, fun i e c'' hstep => ?_⟩
    exact ((hsound'.resume invariant_shown hstep).1.2 final hfinal').2

end Session

section Sample

/-- A page whose signer has clicked while the status is being looked up. -/
def sampleSession : Crowd Bool Wait Wait.Answer Page (Except Unit Unit) :=
  session (fun _ => .zero 32) (fun _ => []) (.ok none) (Bytes.utf8 "Agreement") (some (2, 3))
    fun click => if click then .click false else .refresh

def sampleFinal : List (Bool × Turn Wait Wait.Answer) :=
  let answer := Relay.statusAnswer (some ⟨.zero 32, 2, 2, 3, true, 1700000000, 254⟩)
  [(false, ⟨.event, ()⟩), (true, ⟨.event, ()⟩),
    (false, ⟨.getStatus 1, .ok (answer.status, answer.body.stringify)⟩)]

/-- The passkey is unlocked only when the agreement is known to be final. -/
theorem finality_kept_sample : ∃ c, Crowd.Runs sampleSession c
    ∧ c.state.progress = "2 of 2 signed — FINALIZED ✓" ∧ c.state.signerSecret = none
    ∧ ∀ i e c', Crowd.Step c i e c' → ∀ body, c'.waits i ≠ some (.postSign body) := by
  have hplay : (sampleSession.play sampleFinal).map (·.state.finalizedStatus)
      = some (some ⟨2, 2, true⟩) := by decide +kernel
  have hplay' : ((sampleSession.play sampleFinal).bind
      (·.play [(true, ⟨.getPasskeySecret, .ok (List.replicate 32 5)⟩)])).map (·.state.signerSecret)
      = some none := by decide +kernel
  obtain ⟨c, hc, hfinal⟩ := Option.map_eq_some_iff.1 hplay
  rw [hc, Option.bind_some] at hplay'
  obtain ⟨c', hc', hsecret⟩ := Option.map_eq_some_iff.1 hplay'
  have hruns := Crowd.runs_of_play hc
  obtain ⟨-, -, hprogress, -, hpost⟩ :=
    (finality_kept _ _ _ _ _ _ hruns).2 _ hfinal c' (Crowd.runs_of_play hc')
  exact ⟨c', hruns.trans (Crowd.runs_of_play hc'), hprogress, hsecret, hpost⟩

end Sample

end MultisigPage

end Oblivia

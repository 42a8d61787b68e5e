import Oblivia.Client.CoSignFinality
import Oblivia.Client.CoSignReceipts
/-!
# The button of the co-signing page

The button is disabled while a signer's operation waits, under a receipt and once the agreement is
final, and at no other time: whatever an operation ends with, a signer who has no receipt can click
again, and no signing stays in progress (`never_stuck`).
-/

namespace Oblivia

namespace MultisigPage

open Async Dialogue

/-- A signing that is in progress waits for this. -/
def Wait.signing : Wait → Bool
  | .fullProve _ | .postSign _ => true
  | _ => false

theorem Wait.active_of_signing {q : Wait} (h : q.signing = true) : q.active = true := by
  cases q with
  | fullProve => rfl
  | postSign => rfl
  | _ => cases h

/-- The page is of an agreement with these settings, and its button is disabled if the agreement is
known to be final. -/
structure Steady (config : ℕ × ℕ) (p : Page) : Prop where
  config : p.currentConfig = some config
  final : ∀ status, p.finalizedStatus = some status →
    status.finalized = true ∧ p.scanBtn.disabled = true

/-- The button is disabled, without a receipt or a final status. -/
def Page.Taken (p : Page) : Prop :=
  p.scanBtn.disabled = true ∧ p.finalizedStatus = none ∧ p.txLink = none

/-- What a section finds that follows `q`: no signing is in progress where an operation has not come
to it yet, or may be started. -/
structure Prepared (config : ℕ × ℕ) (q : Wait) (p : Page) : Prop where
  steady : Steady config p
  idle : q.signing = false → q.active = true ∨ p.scanBtn.disabled = false →
    p.signingInProgress = false

/-- A section, up to what its function waits for next. It leaves the button taken only if it goes on
to wait for an operation, or is not one of an operation and has found it so; and a signing in
progress likewise. -/
structure Frees (config : ℕ × ℕ) (e : Turn Wait Wait.Answer) (p : Page) (q : Option Wait)
    (p' : Page) : Prop where
  steady : Steady config p'
  taken : p'.Taken → (∃ q', q = some q' ∧ q'.active = true) ∨ e.1.active = false ∧ p.Taken
  signing : p'.signingInProgress = true → (∃ q', q = some q' ∧ q'.signing = true)
    ∨ e.1.active = false ∧ p.signingInProgress = true

/-- A write that does not take the button. -/
structure Mild (p p' : Page) : Prop where
  steady : ∀ {config}, Steady config p → Steady config p'
  taken : p'.Taken → p.Taken
  signing : p'.signingInProgress = p.signingInProgress
  link : p'.txLink = p.txLink

/-- A section of an operation that has not come to its signing. -/
structure Begun (config : ℕ × ℕ) (p : Page) : Prop where
  steady : Steady config p
  signing : p.signingInProgress = false

/-- A section of a signing with these local variables. -/
structure Signs (config : ℕ × ℕ) (l : Locals) (p : Page) : Prop where
  steady : Steady config p
  receipt : l.transaction.isSome = true → p.txLink ≠ none

/-- A section of an operation that has given the button back. -/
structure Done (config : ℕ × ℕ) (p : Page) : Prop where
  steady : Steady config p
  free : ¬p.Taken
  signing : p.signingInProgress = false

/-- A section of no operation. -/
structure Passing (config : ℕ × ℕ) (o : Turn Wait Wait.Answer × Page) (p : Page) : Prop where
  steady : Steady config p
  passive : o.1.1.active = false
  taken : p.Taken → o.2.Taken
  signing : p.signingInProgress = true → o.2.signingInProgress = true

section Writes

variable {config : ℕ × ℕ} {p p' p'' : Page} {status : AgreementStatus} {l : Locals}

theorem Mild.trans (h : Mild p p') (h' : Mild p' p'') : Mild p p'' :=
  ⟨fun hp => h'.steady (h.steady hp), fun ht => h.taken (h'.taken ht),
    h'.signing.trans h.signing, h'.link.trans h.link⟩

/-- A write to other elements. -/
theorem mild_other (hconfig : p'.currentConfig = p.currentConfig)
    (hfinal : p'.finalizedStatus = p.finalizedStatus)
    (hbtn : p'.scanBtn.disabled = p.scanBtn.disabled)
    (hsigning : p'.signingInProgress = p.signingInProgress) (hlink : p'.txLink = p.txLink) :
    Mild p p' := by
  refine ⟨fun h => ⟨hconfig.trans h.config, fun status hs => ?_⟩, fun h => ?_, hsigning, hlink⟩
  · rw [hbtn]
    exact h.final status (hfinal ▸ hs)
  · unfold Page.Taken at h ⊢
    rw [← hbtn, ← hfinal, ← hlink]
    exact h

theorem renderStatus_of_open (hp : p.finalizedStatus = none) (hopen : status.finalized = false) :
    renderStatus status p = { p with progress := status.text } := by
  simp [renderStatus, Page.finalizes, hp, hopen]

@[simp]
theorem renderStatus_signingInProgress :
    (renderStatus status p).signingInProgress = p.signingInProgress := by
  unfold renderStatus
  simp only []
  split_ifs <;> rfl

theorem steady_renderStatus (h : Steady config p) : Steady config (renderStatus status p) := by
  rcases hp : p.finalizedStatus with _ | final
  · rcases hfinal : status.finalized with _ | _
    · rw [renderStatus_of_open hp hfinal]
      exact ⟨h.config, h.final⟩
    · have hrender : renderStatus status p = { p with
          finalizedStatus := some status
          progress := status.text
          scanBtn := ⟨true, "Agreement Finalized"⟩
          createPasskeyDisabled := true } := by
        simp [renderStatus, Page.finalizes, hp, hfinal]
      rw [hrender]
      exact ⟨h.config, fun final heq => ⟨Option.some.inj heq ▸ hfinal, rfl⟩⟩
  · rw [renderStatus_of_final hp (h.final final hp).1]
    exact ⟨h.config, fun final heq => ⟨(h.final final heq).1, rfl⟩⟩

theorem mild_renderStatus : Mild p (renderStatus status p) := by
  refine ⟨steady_renderStatus, fun h => ?_, renderStatus_signingInProgress, renderStatus_txLink⟩
  obtain ⟨hdisabled, hfinal, hlink⟩ := h
  rw [renderStatus_finalizedStatus] at hfinal
  rw [renderStatus_txLink] at hlink
  unfold Page.finalizes at hfinal
  split_ifs at hfinal with hnew
  have hopen : status.finalized = false := by simpa [hfinal] using hnew
  rw [renderStatus_of_open hfinal hopen] at hdisabled
  exact ⟨hdisabled, hfinal, hlink⟩

theorem mild_statusUnavailable : Mild p (statusUnavailable p) := by
  unfold statusUnavailable
  split <;> exact mild_other rfl rfl rfl rfl rfl

theorem mild_signFailed : Mild p (signFailed l p) := by
  unfold signFailed
  split
  · exact mild_renderStatus
  · split_ifs <;> exact mild_other rfl rfl rfl rfl rfl

theorem mild_unlockDone : Mild p (unlockDone p) := by
  have hclear : Mild p (clearSigner p) := mild_other rfl rfl rfl rfl rfl
  unfold unlockDone
  simp only []
  split
  · have hstatus : Mild p { clearSigner p with bioStatus := "Agreement finalized." } :=
      mild_other rfl rfl rfl rfl rfl
    exact hstatus.trans mild_renderStatus
  · exact hclear

end Writes

section Sections

variable {config : ℕ × ℕ} {o : Turn Wait Wait.Answer × Page} {e : Turn Wait Wait.Answer}
  {p p' p'' : Page} {l : Locals} {q : Wait} {next : Option Wait}

theorem Begun.frees (h : Begun config p) (hq : q.active = true) :
    Frees config o.1 o.2 (some q) p := by
  refine ⟨h.steady, fun _ => .inl ⟨q, rfl, hq⟩, fun hs => ?_⟩
  rw [h.signing] at hs
  cases hs

theorem Signs.frees (h : Signs config l p) (hq : q.signing = true) :
    Frees config o.1 o.2 (some q) p :=
  ⟨h.steady, fun _ => .inl ⟨q, rfl, Wait.active_of_signing hq⟩, fun _ => .inl ⟨q, rfl, hq⟩⟩

theorem Done.frees (h : Done config p) : Frees config e p' next p := by
  refine ⟨h.steady, fun ht => absurd ht h.free, fun hs => ?_⟩
  rw [h.signing] at hs
  cases hs

theorem Passing.frees (h : Passing config o p) : Frees config o.1 o.2 next p :=
  ⟨h.steady, fun ht => .inr ⟨h.passive, h.taken ht⟩, fun hs => .inr ⟨h.passive, h.signing hs⟩⟩

theorem Prepared.passing {r : q.Answer} (h : Prepared config q p) (hq : q.active = false) :
    Passing config (⟨q, r⟩, p) p := ⟨h.steady, hq, id, id⟩

theorem Begun.write (h : Begun config p) (hp : Mild p p') : Begun config p' :=
  ⟨hp.steady h.steady, hp.signing.trans h.signing⟩

theorem Signs.write (h : Signs config l p) (hp : Mild p p') : Signs config l p' :=
  ⟨hp.steady h.steady, fun hl => hp.link ▸ h.receipt hl⟩

theorem Frees.write (h : Frees config e p next p') (hp : Mild p' p'') :
    Frees config e p next p'' :=
  ⟨hp.steady h.steady, fun ht => h.taken (hp.taken ht), fun hs => h.signing (hp.signing ▸ hs)⟩

theorem Passing.write (h : Passing config o p) (hp : Mild p p') : Passing config o p' :=
  ⟨hp.steady h.steady, h.passive, fun ht => h.taken (hp.taken ht),
    fun hs => h.signing (hp.signing ▸ hs)⟩

/-- A final agreement leaves the button as it is. -/
theorem Begun.closed (h : Begun config p) (hfinal : p.finalizedStatus.isSome = true) :
    Done config p := by
  refine ⟨h.steady, fun ⟨_, hopen, _⟩ => ?_, h.signing⟩
  rw [hopen] at hfinal
  cases hfinal

theorem Begun.unlockFailed (h : Begun config p) : Done config (unlockFailed p) := by
  unfold MultisigPage.unlockFailed
  split
  · rename_i final hfinal
    exact h.closed (by simp [hfinal])
  · rename_i hopen
    refine ⟨⟨h.steady.config, fun final heq => ?_⟩, fun ⟨hdisabled, _⟩ => ?_, h.signing⟩
    · cases hopen.symm.trans heq
    · cases hdisabled

theorem Signs.signDone (h : Signs config l p) : Done config (signDone l p) := by
  have hsteady : Steady config
      { p with toSignerMemory := p.release l.input, signingInProgress := false } :=
    ⟨h.steady.config, h.steady.final⟩
  unfold MultisigPage.signDone
  simp only []
  split
  · rename_i final hfinal
    refine ⟨steady_renderStatus hsteady, fun ht => ?_, renderStatus_signingInProgress⟩
    cases hfinal.symm.trans (mild_renderStatus.taken ht).2.1
  · rename_i hopen
    refine ⟨⟨h.steady.config, fun final heq => ?_⟩, fun ⟨hdisabled, _, hlink⟩ => ?_, rfl⟩
    · cases hopen.symm.trans heq
    · exact h.receipt hdisabled hlink

end Sections

section Handlers

variable {sha256 : List UInt8 → Bytes 32} {clock : ℕ → Text} {config : ℕ × ℕ}
  {domain : Except String (Option Text)} {create : Bool} {o : Turn Wait Wait.Answer × Page}
  {p : Page} {l : Locals}

/-- The sections of a function that is called in a section which began with `o`; the last of them
meets `post`. -/
abbrev Opens (config : ℕ × ℕ) {ε α : Type} (x : Task ε α)
    (post : Turn Wait Wait.Answer × Page → Except ε α → Page → Prop)
    (o : Turn Wait Wait.Answer × Page) (p : Page) : Prop :=
  Meets (Prepared config) (Frees config) x post o p

/-- However the signing ends, the local variables know of the receipt. -/
def Finished (config : ℕ × ℕ) : Except Locals Locals → Page → Prop
  | .ok l, p => Signs config l p
  | .error l, p => Signs config l p

theorem opens_takeAnswer {answer : RelayAnswer} (h : Signs config l p) :
    Opens config (takeAnswer l answer) (fun _ r p => Finished config r p) o p := by
  unfold takeAnswer
  refine meets_attempt_bind.2 ?_
  rcases received answer with e | data
  · exact h
  refine meets_attempt_bind.2 ?_
  rcases validateTransaction (data.field "transaction") with e | transaction
  · exact h
  have hshown : Signs config { l with transaction := some transaction }
      (showTransaction transaction { p with statusRevision := p.statusRevision + 1 }) :=
    ⟨⟨h.steady.config, h.steady.final⟩, fun _ => Option.some_ne_none transaction⟩
  refine meets_modify_bind.2 ?_
  split_ifs
  · exact hshown.write mild_statusUnavailable
  refine meets_attempt_bind.2 ?_
  rcases validateStatus data 1 with e | status
  · exact hshown
  have hrendered : Signs config _ (renderStatus status _) := hshown.write mild_renderStatus
  refine meets_modify_bind.2 (meets_get_bind.2 ?_)
  split_ifs
  · exact hrendered.write (mild_other rfl rfl rfl rfl rfl)
  · exact hrendered

theorem opens_trySign (h : Signs config ⟨none, none, false⟩ p) :
    Opens config (trySign sha256 clock config) (fun _ r p => Finished config r p) o p := by
  unfold trySign
  refine meets_get_bind.2 (meets_attempt_bind.2 ?_)
  rcases hb : buildInput sha256 clock p with e | p'
  · exact h
  obtain ⟨inputs, readings, rfl⟩ := buildInput_eq_ok hb
  refine meets_set_bind.2 (meets_receive_bind.2 ⟨?_, fun ⟨proved, p⟩ hproved => ?_⟩)
  · exact Signs.frees (h.write (mild_other rfl rfl rfl rfl rfl)) rfl
  -- whatever was shown meanwhile, the local variables have no receipt yet
  have hsigns {l : Locals} (hl : l.transaction = none) {q : Wait} {p : Page}
      (hq : Prepared config q p) : Signs config l p := by
    refine ⟨hq.steady, fun hsome => ?_⟩
    rw [hl] at hsome
    cases hsome
  refine meets_attempt_bind.2 ?_
  rcases proved with e | ⟨proof, publicSignals⟩
  · exact hsigns rfl hproved
  refine meets_get_bind.2 ?_
  split_ifs
  · exact hsigns rfl hproved
  refine meets_attempt_bind.2 ?_
  rcases grothPayload proof publicSignals with e | payload
  · exact hsigns rfl hproved
  refine meets_get_bind.2 (meets_receive_bind.2 ⟨?_, fun ⟨answer, p⟩ hanswer => ?_⟩)
  · exact Signs.frees (l := ⟨none, none, false⟩) (hsigns rfl hproved) rfl
  · exact opens_takeAnswer (hsigns rfl hanswer)

/-- A signing that is begun gives the button back, or shows its receipt. -/
theorem opens_doSign (h : Begun config p) (hunlocked : p.signerUnlocked = true) :
    Opens config (doSign sha256 clock) (fun _ r p => r = .ok () ∧ Done config p) o p := by
  unfold doSign
  refine meets_get_bind.2 ?_
  split_ifs with hguard
  · rcases hguard with hsigning | hfinal | hlocked
    · cases h.signing.symm.trans hsigning
    · exact ⟨rfl, h.closed hfinal⟩
    · cases hunlocked.symm.trans hlocked
  rw [h.steady.config]
  refine meets_modify_bind.2 (meets_bind.2 (meets_catching.2 ?_))
  have hstart : Signs config ⟨none, none, false⟩
      (.disable true { p with signingInProgress := true }) :=
    ⟨⟨h.steady.config, fun final heq => ⟨(h.steady.final final heq).1, rfl⟩⟩, nofun⟩
  refine (opens_trySign hstart).mono fun o r p h => ?_
  cases r with
  | ok l => exact ⟨rfl, Signs.signDone h⟩
  | error l => exact ⟨rfl, (Signs.write h mild_signFailed).signDone⟩

/-- An unlocking has come to its end, or fails before the signing. -/
def Unlocks (config : ℕ × ℕ) (o : Turn Wait Wait.Answer × Page) : Except Unit Unit → Page → Prop
  | .ok _, p => Frees config o.1 o.2 none p
  | .error _, p => Begun config p

theorem opens_unlockPasskey (h : Begun config p) :
    Opens config (unlockPasskey sha256 clock) (Unlocks config) o p := by
  unfold unlockPasskey
  refine meets_modify_bind.2 (meets_receive_bind.2 ⟨?_, fun ⟨unlocked, p⟩ hready => ?_⟩)
  · exact Begun.frees (h.write (mild_other rfl rfl rfl rfl rfl)) rfl
  have hbegun : Begun config p := ⟨hready.steady, hready.idle rfl (.inl rfl)⟩
  refine meets_attempt_bind.2 ?_
  rcases unlocked with e | secret
  · exact hbegun
  have hkept : Begun config { p with toSignerMemory := p.keep secret } :=
    hbegun.write (mild_other rfl rfl rfl rfl rfl)
  refine meets_modify_bind.2 (meets_get_bind.2 ?_)
  split_ifs with hfinal
  · exact (hkept.closed hfinal).frees
  refine meets_modify_bind.2 ?_
  refine Meets.andThen (opens_doSign (hkept.write (mild_other rfl rfl rfl rfl rfl)) ?_) ?_ ?_
  · rfl
  · intro _ o p ⟨_, hdone⟩
    exact meets_receive.2 ⟨hdone.frees, fun r hturn => (hturn.passing rfl).frees⟩
  · rintro e o p ⟨heq, -⟩
    cases heq

theorem opens_tryUnlock (h : Begun config p) :
    Opens config (tryUnlock sha256 clock domain create) (Unlocks config) o p := by
  unfold tryUnlock
  refine meets_attempt_bind.2 ?_
  rcases domain with e | rpId
  · exact h
  cases create with
  | false => exact opens_unlockPasskey h
  | true =>
    refine meets_modify_bind.2 (meets_receive_bind.2 ⟨?_, fun ⟨created, p⟩ hready => ?_⟩)
    · exact Begun.frees (h.write (mild_other rfl rfl rfl rfl rfl)) rfl
    have hbegun : Begun config p := ⟨hready.steady, hready.idle rfl (.inl rfl)⟩
    refine meets_attempt_bind.2 ?_
    rcases created with e | _
    · exact hbegun
    refine meets_get_bind.2 ?_
    split_ifs with hfinal
    · exact (hbegun.closed hfinal).frees
    · exact opens_unlockPasskey hbegun

theorem opens_unlockSigner {r : Unit} (h : Prepared config .event p) :
    Opens config (unlockSigner sha256 clock domain create)
      (fun o _ p => Frees config o.1 o.2 none p) (⟨.event, r⟩, p) p := by
  unfold unlockSigner
  refine meets_get_bind.2 ?_
  split_ifs with hguard
  · exact (h.passing rfl).frees
  push Not at hguard
  have henabled : p.scanBtn.disabled = false := by simpa using hguard.1
  have hbegun : Begun config (p.disable true) :=
    ⟨⟨h.steady.config, fun final heq => ⟨(h.steady.final final heq).1, rfl⟩⟩,
      h.idle rfl (.inr henabled)⟩
  refine meets_modify_bind.2 (meets_andFinally.2 (meets_catching.2 ?_))
  refine (opens_tryUnlock hbegun).mono fun o r p h => ?_
  cases r with
  | ok _ => exact Frees.write h mild_unlockDone
  | error _ => exact (Begun.unlockFailed h).frees.write mild_unlockDone

theorem opens_tryStatus {revision : ℕ} (h : Passing config o p) :
    Opens config (tryStatus revision) (fun o _ p => Passing config o p) o p := by
  unfold tryStatus
  refine meets_get_bind.2 ?_
  split_ifs
  · exact h
  refine meets_receive_bind.2 ⟨h.frees, fun ⟨answer, p⟩ hready => ?_⟩
  have hanswered : Passing config (⟨.getStatus revision, answer⟩, p) p := hready.passing rfl
  refine meets_attempt_bind.2 ?_
  rcases received answer with e | s
  · exact hanswered
  refine meets_get_bind.2 ?_
  split_ifs
  · exact hanswered
  · exact hanswered
  refine meets_attempt_bind.2 ?_
  rcases validateStatus s 0 with e | status
  · exact hanswered
  · exact hanswered.write mild_renderStatus

theorem opens_refreshStatus {r : Unit} (h : Prepared config .event p) :
    Opens config refreshStatus (fun o _ p => Frees config o.1 o.2 none p) (⟨.event, r⟩, p) p := by
  unfold refreshStatus
  refine meets_modify_bind.2 (meets_get_bind.2 (meets_catching.2 ?_))
  have hnext : Passing config (⟨.event, r⟩, p) { p with statusRevision := p.statusRevision + 1 } :=
    (h.passing rfl).write (mild_other rfl rfl rfl rfl rfl)
  refine (opens_tryStatus hnext).mono fun o r p h => ?_
  cases r with
  | ok _ => exact h.frees
  | error _ =>
    unfold statusFailed
    refine meets_get_bind.2 ?_
    split_ifs
    · exact h.frees
    · refine (h.write ?_).frees
      simp only []
      split
      · exact mild_renderStatus
      · exact mild_other rfl rfl rfl rfl rfl

theorem opens_handler {event : Event} {r : Unit} (h : Prepared config .event p) :
    Opens config (handler sha256 clock domain event) (fun o _ p => Frees config o.1 o.2 none p)
      (⟨.event, r⟩, p) p := by
  cases event with
  | refresh => exact opens_refreshStatus h
  | click create => exact opens_unlockSigner h

end Handlers

section Session

variable {ι : Type} {config : ℕ × ℕ} {w : ι → Option Wait} {p p' : Page} {i : ι}
  {e : Turn Wait Wait.Answer} {q : Wait} {next : Option Wait}

/-- The button is taken only while a signer's operation waits, and a signing is in progress only
while it waits. -/
structure Free (config : ℕ × ℕ) (w : ι → Option Wait) (p : Page) : Prop where
  steady : Steady config p
  taken : p.Taken → ∃ i q, w i = some q ∧ q.active = true
  signing : p.signingInProgress = true → ∃ i q, w i = some q ∧ q.signing = true

/-- No signing is in progress where one operation waits for something else, or the button is
enabled. -/
theorem Free.prepared (h : Free config w p) (hsingle : Single w p) (hi : w i = some q) :
    Prepared config q p := by
  refine ⟨h.steady, fun hq hidle => ?_⟩
  rw [← Bool.not_eq_true]
  intro hsigning
  obtain ⟨j, q', hj, hq'⟩ := h.signing hsigning
  have hactive := Wait.active_of_signing hq'
  rcases hidle with hmine | henabled
  · obtain rfl := hsingle.locked.one i j q q' hi hmine hj hactive
    obtain rfl : q = q' := Option.some.inj (hi.symm.trans hj)
    cases hq.symm.trans hq'
  · cases henabled.symm.trans (hsingle.locked.held j q' hj hactive).1

variable [DecidableEq ι]

theorem Free.kept (h : Free config w p) (hi : w i = some e.1) (hstep : Frees config e p next p') :
    Free config (Function.update w i next) p' := by
  refine ⟨hstep.steady, fun ht => ?_, fun hs => ?_⟩
  · exact Crowd.exists_waiting (fun _ => id) hi
      ((hstep.taken ht).imp id fun ⟨hpassive, ht⟩ => ⟨hpassive, h.taken ht⟩)
  · exact Crowd.exists_waiting (fun _ => Wait.active_of_signing) hi
      ((hstep.signing hs).imp id fun ⟨hpassive, hs⟩ => ⟨hpassive, h.signing hs⟩)

variable (sha256 : List UInt8 → Bytes 32) (clock : ℕ → Text)
  (domain : Except String (Option Text)) (contract : List UInt8) (config : ℕ × ℕ)
  (events : ι → Event)

omit [DecidableEq ι] in
theorem sound_free : (session sha256 clock domain contract (some config) events).Sound
    (Prepared config) (Frees config) (Free config) := by
  refine Crowd.sound_start ⟨⟨rfl, nofun⟩, fun ht => ?_, nofun⟩ fun _ _ _ hp => opens_handler hp
  cases ht.1

variable {c : Crowd ι Wait Wait.Answer Page (Except Unit Unit)}

/-- Whatever the events are and in whatever order their answers come: the button is disabled
exactly while a signer's operation waits, under a receipt, and once the agreement is known to be
final; and a signing is in progress only while it waits for its proof or its answer. -/
theorem never_stuck
    (hruns : Crowd.Runs (session sha256 clock domain contract (some config) events) c) :
    (c.state.scanBtn.disabled = true ↔ c.state.finalizedStatus.isSome = true
      ∨ c.state.txLink.isSome = true ∨ ∃ i q, c.waits i = some q ∧ q.active = true)
    ∧ (c.state.signingInProgress = true → ∃ i q, c.waits i = some q ∧ q.signing = true) := by
  have hstart := sound_single sha256 clock domain contract (some config) events
  have hsingle := (hstart.runs invariant_single hruns).2
  have hfree : Free config c.waits c.state :=
    (hstart.beside (J := Free config) invariant_single (fun hw hw' hi => hw'.prepared hw hi)
      Free.kept (sound_free sha256 clock domain contract config events) hruns).2
  refine ⟨⟨fun hdisabled => ?_, ?_⟩, hfree.signing⟩
  · rcases hfinal : c.state.finalizedStatus with _ | final
    · rcases hlink : c.state.txLink with _ | transaction
      · exact .inr (.inr (hfree.taken ⟨hdisabled, hfinal, hlink⟩))
      · exact .inr (.inl rfl)
    · exact .inl rfl
  · rintro (hfinal | hlink | ⟨i, q, hi, hq⟩)
    · obtain ⟨final, hfinal⟩ := Option.isSome_iff_exists.1 hfinal
      exact (hfree.steady.final final hfinal).2
    · exact hsingle.shown (Option.isSome_iff_ne_none.1 hlink)
    · exact (hsingle.locked.held i q hi hq).1

/-- A signer whose passkey is refused can click again. -/
theorem never_stuck_sample : ∃ c, Crowd.Runs samplePending c ∧ c.waits true = none
    ∧ c.state.scanBtn.disabled = false ∧ c.state.signingInProgress = false := by
  have hplay : (samplePending.play [(true, ⟨.event, ()⟩),
      (true, ⟨.getPasskeySecret, .error "NotAllowedError"⟩)]).map (fun c =>
        (c.waits true, c.waits false, c.state.finalizedStatus, c.state.txLink))
      = some (none, some .event, none, none) := by decide +kernel
  obtain ⟨c, hc, hstate⟩ := Option.map_eq_some_iff.1 hplay
  simp only [Prod.mk.injEq] at hstate
  obtain ⟨hclick, hrefresh, hfinal, hlink⟩ := hstate
  have hruns := Crowd.runs_of_play hc
  have hnone : ∀ i q, c.waits i = some q → q.active = false := by
    rintro (_ | _) q hq
    · cases hrefresh.symm.trans hq
      rfl
    · cases hclick.symm.trans hq
  obtain ⟨hbutton, hsigning⟩ := never_stuck _ _ _ _ _ _ hruns
  refine ⟨c, hruns, hclick, ?_, ?_⟩
  · rw [← Bool.not_eq_true, hbutton, hfinal, hlink]
    rintro (h | h | ⟨i, q, hi, hq⟩)
    · cases h
    · cases h
    · cases (hnone i q hi).symm.trans hq
  · rw [← Bool.not_eq_true]
    intro hs
    obtain ⟨i, q, hi, hq⟩ := hsigning hs
    cases (hnone i q hi).symm.trans (Wait.active_of_signing hq)

end Session

end MultisigPage

end Oblivia

import Oblivia.Client.SignPageReceipts
/-!
# The button of the signing page

The button is enabled exactly when a signer is unlocked, neither an unlocking nor a signing is in
progress, and the text in the editor is not the one this signer has signed last; and what is in
progress waits for its answer, so nothing stays in progress for good (`button_exact`).
-/

namespace Oblivia

namespace SignPage

open Async Dialogue

/-- An unlocking waits for this. -/
def Wait.unlocking : Wait → Bool
  | .createSignerPasskey | .getPasskeySecret => true
  | _ => false

/-- Whether the button is to be disabled. -/
def Page.closed (p : Page) : Bool :=
  !p.signerUnlocked || p.unlockInProgress || p.signingInProgress || (alreadySigned p).isSome

/-- The page between two sections. -/
structure Settled (p : Page) : Prop where
  button : p.signBtnDisabled = p.closed
  editor : p.contractDisabled = p.signingInProgress
  apart : p.unlockInProgress = true → p.signingInProgress = false
  unlocked : p.signingInProgress = true → p.signerUnlocked = true
  forgotten : p.unlockInProgress = true → p.confirmedSignerReceipt = none

/-- What a section finds that follows `q`. -/
structure Prepared (q : Wait) (p : Page) : Prop where
  settled : Settled p
  unlocking : q.unlocking = true → p.unlockInProgress = true
  signing : q.active = true → p.signingInProgress = true

/-- A section, up to what its function waits for next. -/
structure Frees (e : Turn Wait Wait.Answer) (p : Page) (q : Option Wait) (p' : Page) : Prop where
  settled : Settled p'
  unlocking : Crowd.Returns Wait.unlocking (fun p => p.unlockInProgress = true) e p q p'
  signing : Crowd.Returns Wait.active (fun p => p.signingInProgress = true) e p q p'

/-- A section of an unlocking. -/
structure Unlocks (o : Turn Wait Wait.Answer × Page) (p : Page) : Prop where
  settled : Settled p
  busy : p.unlockInProgress = true
  mine : o.1.1.unlocking = true ∨ o.2.unlockInProgress = false
  quiet : o.2.signingInProgress = false

/-- A section of a signing. -/
structure Signs (o : Turn Wait Wait.Answer × Page) (p : Page) : Prop where
  busy : p.signingInProgress = true
  button : p.signBtnDisabled = true
  editor : p.contractDisabled = true
  unlocked : p.signerUnlocked = true
  alone : p.unlockInProgress = false
  mine : o.1.1.active = true ∨ o.2.signingInProgress = false
  quiet : o.2.unlockInProgress = false

section Sections

variable {o : Turn Wait Wait.Answer × Page} {e : Turn Wait Wait.Answer} {p p' : Page} {q : Wait}

theorem Wait.active_of_unlocking (h : q.unlocking = true) : q.active = false := by
  cases q with
  | createSignerPasskey => rfl
  | getPasskeySecret => rfl
  | _ => cases h

theorem Wait.unlocking_of_active (h : q.active = true) : q.unlocking = false := by
  rw [← Bool.not_eq_true]
  intro hq
  cases h.symm.trans (Wait.active_of_unlocking hq)

/-- The button is disabled while something is in progress. -/
theorem Settled.disabled (h : Settled p)
    (hbusy : p.unlockInProgress = true ∨ p.signingInProgress = true) :
    p.signBtnDisabled = true := by
  rw [h.button, Page.closed]
  rcases hbusy with hbusy | hbusy <;> simp [hbusy]

/-- The end of an operation. -/
theorem frees_done (hsettled : Settled p') (hunlocking : p'.unlockInProgress = false)
    (hsigning : p'.signingInProgress = false)
    (hunlocks : e.1.unlocking = true ∨ p.unlockInProgress = false)
    (hsigns : e.1.active = true ∨ p.signingInProgress = false) : Frees e p none p' := by
  refine ⟨hsettled, Crowd.returns_free nofun ?_ ?_, Crowd.returns_free nofun ?_ ?_⟩
  · simp [hunlocking]
  · exact hunlocks.imp id fun h => by simp [h]
  · simp [hsigning]
  · exact hsigns.imp id fun h => by simp [h]

/-- A section of no operation. -/
theorem frees_event {r : Unit} (hsettled : Settled p')
    (hunlocking : p'.unlockInProgress = p.unlockInProgress)
    (hsigning : p'.signingInProgress = p.signingInProgress) : Frees ⟨.event, r⟩ p none p' :=
  ⟨hsettled, Crowd.returns_other nofun rfl (by rw [hunlocking]),
    Crowd.returns_other nofun rfl (by rw [hsigning])⟩

theorem Unlocks.frees (h : Unlocks o p) (hq : q.unlocking = true) :
    Frees o.1 o.2 (some q) p := by
  refine ⟨h.settled, Crowd.returns_waits hq h.busy (h.mine.imp id fun hm => by simp [hm]), ?_⟩
  refine Crowd.returns_free (fun q' heq => ?_) ?_ (.inr (by simp [h.quiet]))
  · exact Option.some.inj heq ▸ Wait.active_of_unlocking hq
  · simp [h.settled.apart h.busy]

theorem Signs.settled (h : Signs o p) : Settled p := by
  refine ⟨?_, h.editor.trans h.busy.symm, fun hu => ?_, fun _ => h.unlocked, fun hu => ?_⟩
  · rw [h.button, Page.closed, h.busy]
    simp
  · cases h.alone.symm.trans hu
  · cases h.alone.symm.trans hu

theorem Signs.frees (h : Signs o p) (hq : q.active = true) : Frees o.1 o.2 (some q) p := by
  refine ⟨h.settled, ?_, Crowd.returns_waits hq h.busy (h.mine.imp id fun hm => by simp [hm])⟩
  refine Crowd.returns_free (fun q' heq => ?_) (by simp [h.alone]) (.inr (by simp [h.quiet]))
  exact Option.some.inj heq ▸ Wait.unlocking_of_active hq

theorem Prepared.unlocks {r : q.Answer} (h : Prepared q p) (hq : q.unlocking = true) :
    Unlocks (⟨q, r⟩, p) p :=
  ⟨h.settled, h.unlocking hq, .inl hq, h.settled.apart (h.unlocking hq)⟩

theorem Prepared.signs {r : q.Answer} (h : Prepared q p) (hq : q.active = true) :
    Signs (⟨q, r⟩, p) p := by
  have hbusy := h.signing hq
  have halone : p.unlockInProgress = false := by
    rw [← Bool.not_eq_true]
    intro hu
    cases (h.settled.apart hu).symm.trans hbusy
  exact ⟨hbusy, h.settled.disabled (.inr hbusy), h.settled.editor.trans hbusy,
    h.settled.unlocked hbusy, halone, .inl hq, halone⟩

/-- A write of a signing. -/
theorem Signs.write (h : Signs o p) (hbusy : p'.signingInProgress = p.signingInProgress)
    (hbutton : p'.signBtnDisabled = p.signBtnDisabled)
    (heditor : p'.contractDisabled = p.contractDisabled)
    (hunlocked : p'.signerUnlocked = p.signerUnlocked)
    (halone : p'.unlockInProgress = p.unlockInProgress) : Signs o p' :=
  ⟨hbusy.trans h.busy, hbutton.trans h.button, heditor.trans h.editor,
    hunlocked.trans h.unlocked, halone.trans h.alone, h.mine, h.quiet⟩

theorem Signs.signDone {contract : Utf16} {l : Locals} (h : Signs o p) :
    Frees o.1 o.2 none (signDone contract l p) := by
  refine frees_done ⟨?_, rfl, fun hu => ?_, nofun, fun hu => ?_⟩ h.alone rfl (.inr h.quiet) h.mine
  · have hclosed : (SignPage.signDone contract l p).closed
        = (!p.signerUnlocked || p.unlockInProgress || false || (alreadySigned p).isSome) := rfl
    rw [hclosed, h.unlocked, h.alone]
    simp [SignPage.signDone]
  · cases h.alone.symm.trans hu
  · cases h.alone.symm.trans hu

theorem Unlocks.unlockFailed (h : Unlocks o p) :
    Frees o.1 o.2 none { unlockFailed p with unlockInProgress := false } := by
  have hsigning := h.settled.apart h.busy
  have hbutton : p.signBtnDisabled = true := h.settled.disabled (.inl h.busy)
  refine frees_done ⟨hbutton, h.settled.editor, nofun, fun hs => ?_, nofun⟩ rfl hsigning h.mine
    (.inr h.quiet)
  cases hsigning.symm.trans hs

/-- An edit. -/
theorem Settled.contractInput (h : Settled p) (value : Utf16) :
    Settled (contractInput { p with contract := value }) := by
  unfold SignPage.contractInput
  split_ifs with hsigning
  · refine ⟨?_, h.editor, h.apart, h.unlocked, h.forgotten⟩
    have hbutton : p.signBtnDisabled = true := h.disabled (.inr hsigning)
    rw [show ({ p with contract := value } : Page).signBtnDisabled = true from hbutton,
      Page.closed, hsigning]
    simp
  have hidle : p.signingInProgress = false := by simpa using hsigning
  split
  · rename_i receipt hreceipt
    refine ⟨?_, h.editor, h.apart, h.unlocked, h.forgotten⟩
    have hclosed : Page.closed (showConfirmedReceipt receipt
        { p with contract := value, signBtnDisabled := true }) = (!p.signerUnlocked
          || p.unlockInProgress || p.signingInProgress
          || (alreadySigned { p with contract := value }).isSome) := rfl
    rw [hclosed, hreceipt]
    simp [showConfirmedReceipt]
  · rename_i hnone
    refine ⟨?_, h.editor, h.apart, h.unlocked, h.forgotten⟩
    change (!p.signerUnlocked || p.unlockInProgress) = (!p.signerUnlocked
      || p.unlockInProgress || p.signingInProgress
      || (alreadySigned { p with contract := value }).isSome)
    rw [hnone, hidle]
    simp

/-- The signer is unlocked. -/
theorem Unlocks.opened (h : Unlocks o p) (secret : List UInt8) :
    Frees o.1 o.2 none { p with
      toSignerMemory := { p.keep secret with signerUnlocked := true }
      passkeyActive := true
      passkeyStatus := "Passkey unlocked. Signer ready."
      passkeyIcon := "◉"
      signBtnDisabled := false
      unlockInProgress := false } := by
  have hsigning := h.settled.apart h.busy
  refine frees_done ⟨?_, h.settled.editor, nofun, fun _ => rfl, nofun⟩ rfl hsigning h.mine
    (.inr h.quiet)
  simp [Page.closed, alreadySigned, h.settled.forgotten h.busy, hsigning]

/-- A write to the elements of the passkey. -/
theorem Unlocks.passkey (h : Unlocks o p) (status icon : String) :
    Unlocks o { p with passkeyStatus := status, passkeyIcon := icon } := by
  refine ⟨⟨?_, h.settled.editor, h.settled.apart, h.settled.unlocked, h.settled.forgotten⟩, h.busy,
    h.mine, h.quiet⟩
  exact h.settled.button

end Sections

section Handlers

variable {sha256 : List UInt8 → Bytes 32} {clock : ℕ → Text} {contract : Utf16}
  {domain : Except String (Option Text)} {create : Bool} {o : Turn Wait Wait.Answer × Page}
  {p : Page}

/-- The sections of a function that is called in a section which began with `o`; the last of them
meets `post`. -/
abbrev Opens {ε α : Type} (x : Task ε α)
    (post : Turn Wait Wait.Answer × Page → Except ε α → Page → Prop)
    (o : Turn Wait Wait.Answer × Page) (p : Page) : Prop :=
  Meets Prepared Frees x post o p

/-- An unlocking ends in its last write, or fails before it. -/
def Opened (o : Turn Wait Wait.Answer × Page) : Except Unit Unit → Page → Prop
  | .ok _, p => Frees o.1 o.2 none { p with unlockInProgress := false }
  | .error _, p => Unlocks o p

theorem opens_unlockPasskey (h : Unlocks o p) : Opens unlockPasskey Opened o p := by
  unfold unlockPasskey
  refine meets_modify_bind.2 (meets_receive_bind.2 ⟨?_, fun ⟨unlocked, p⟩ hready => ?_⟩)
  · exact Unlocks.frees (h.passkey _ _) rfl
  refine meets_attempt_bind.2 ?_
  rcases unlocked with e | secret
  · exact hready.unlocks rfl
  · exact meets_modify.2 (Unlocks.opened (hready.unlocks rfl) secret)

theorem opens_tryUnlock (h : Unlocks o p) : Opens (tryUnlock domain create) Opened o p := by
  unfold tryUnlock
  refine meets_attempt_bind.2 ?_
  rcases domain with e | rpId
  · exact h
  cases create with
  | false => exact opens_unlockPasskey h
  | true =>
    refine meets_modify_bind.2 (meets_receive_bind.2 ⟨?_, fun ⟨created, p⟩ hready => ?_⟩)
    · exact Unlocks.frees (h.passkey _ p.passkeyIcon) rfl
    refine meets_attempt_bind.2 ?_
    rcases created with e | _
    · exact hready.unlocks rfl
    · exact opens_unlockPasskey (hready.unlocks rfl)

theorem opens_unlockSigner {r : Unit} (h : Prepared .event p) :
    Opens (unlockSigner domain create) (fun o _ p => Frees o.1 o.2 none p) (⟨.event, r⟩, p) p := by
  unfold unlockSigner
  refine meets_get_bind.2 ?_
  split_ifs with hguard
  · exact frees_event h.settled rfl rfl
  push Not at hguard
  obtain ⟨hunlocking, hsigning⟩ : p.unlockInProgress = false ∧ p.signingInProgress = false := by
    simpa using hguard
  have hstarts : Unlocks (⟨.event, r⟩, p) (unlockStarts p) := by
    refine ⟨⟨?_, h.settled.editor, fun _ => hsigning, fun hs => ?_, fun _ => rfl⟩, rfl,
      .inr hunlocking, hsigning⟩
    · simp [Page.closed, unlockStarts]
    · cases hsigning.symm.trans hs
  refine meets_modify_bind.2 (meets_bind.2 (meets_catching.2 ?_))
  refine (opens_tryUnlock hstarts).mono fun o r p h => ?_
  cases r with
  | ok _ => exact h
  | error _ => exact Unlocks.unlockFailed h

/-- However a signing ends, it is still one. -/
theorem opens_trySign (h : Signs o p) :
    Opens (trySign sha256 clock contract) (fun o _ p => Signs o p) o p := by
  unfold trySign
  refine meets_get_bind.2 (meets_attempt_bind.2 ?_)
  rcases hb : buildInput sha256 clock contract p with e | p'
  · exact h
  obtain ⟨inputs, readings, rfl⟩ := buildInput_eq_ok hb
  refine meets_set_bind.2 (meets_receive_bind.2 ⟨?_, fun ⟨proved, p⟩ hproved => ?_⟩)
  · exact Signs.frees (h.write rfl rfl rfl rfl rfl) rfl
  have hsigns : Signs (⟨.fullProve _, proved⟩, p) p := hproved.signs rfl
  refine meets_attempt_bind.2 ?_
  rcases proved with e | ⟨proof, publicSignals⟩
  · exact hsigns
  refine meets_attempt_bind.2 ?_
  rcases anchorProof proof publicSignals with e | payload
  · exact hsigns
  refine meets_modify_bind.2 (meets_get_bind.2 ?_)
  split
  · exact meets_modify_bind.2 (hsigns.write rfl rfl rfl rfl rfl)
  · refine meets_receive_bind.2 ⟨?_, fun ⟨answer, p⟩ hanswer => meets_attempt_bind.2 ?_⟩
    · exact Signs.frees (hsigns.write rfl rfl rfl rfl rfl) rfl
    · rcases confirmed answer with e | transaction
      · exact hanswer.signs rfl
      · exact meets_modify_bind.2 (Signs.write (hanswer.signs rfl) rfl rfl rfl rfl rfl)

theorem opens_signContract {r : Unit} (h : Prepared .event p) :
    Opens (signContract sha256 clock) (fun o _ p => Frees o.1 o.2 none p) (⟨.event, r⟩, p) p := by
  unfold signContract
  refine meets_get_bind.2 ?_
  split_ifs with hguard
  · exact frees_event h.settled rfl rfl
  push Not at hguard
  obtain ⟨hsigning, hunlocking, -, hunlocked⟩ := hguard
  have hfree : p.signingInProgress = false := by simpa using hsigning
  have halone : p.unlockInProgress = false := by simpa using hunlocking
  have hopen : p.signerUnlocked = true := by simpa using hunlocked
  split
  · rename_i receipt hreceipt
    refine frees_event ⟨?_, h.settled.editor, h.settled.apart, h.settled.unlocked,
      h.settled.forgotten⟩ rfl rfl
    have hclosed : Page.closed { showConfirmedReceipt receipt p with signBtnDisabled := true }
        = (!p.signerUnlocked || p.unlockInProgress || p.signingInProgress
          || (alreadySigned p).isSome) := rfl
    rw [hclosed, hreceipt]
    simp
  · have hstarts : Signs (⟨.event, r⟩, p) (signStarts p) :=
      ⟨rfl, rfl, rfl, hopen, halone, .inr hfree, halone⟩
    refine meets_modify_bind.2 (meets_bind.2 (meets_catching.2 ?_))
    refine (opens_trySign hstarts).mono fun o r p h => ?_
    cases r with
    | ok l => exact h.signDone
    | error l =>
      refine Signs.signDone (h.write ?_ ?_ ?_ ?_ ?_)
      all_goals
        simp only [signFailed]
        split_ifs <;> rfl

theorem opens_handler {event : Event} {r : Unit} (h : Prepared .event p) :
    Opens (handler sha256 clock domain event) (fun o _ p => Frees o.1 o.2 none p)
      (⟨.event, r⟩, p) p := by
  cases event with
  | edit value =>
    have hsame : (contractInput { p with contract := value }).unlockInProgress = p.unlockInProgress
        ∧ (contractInput { p with contract := value }).signingInProgress
          = p.signingInProgress := by
      unfold contractInput
      split_ifs
      · exact ⟨rfl, rfl⟩
      · split <;> exact ⟨rfl, rfl⟩
    exact frees_event (h.settled.contractInput value) hsame.1 hsame.2
  | unlock create => exact opens_unlockSigner h
  | sign => exact opens_signContract h

end Handlers

section Session

variable {ι : Type}

/-- What is in progress waits for its answer. -/
structure Exact (w : ι → Option Wait) (p : Page) : Prop where
  settled : Settled p
  unlocks : Crowd.Locked Wait.unlocking (fun p : Page => p.unlockInProgress = true) w p
  signs : Crowd.Locked Wait.active (fun p : Page => p.signingInProgress = true) w p
  unlocking : p.unlockInProgress = true → ∃ i q, w i = some q ∧ q.unlocking = true
  signing : p.signingInProgress = true → ∃ i q, w i = some q ∧ q.active = true

variable (sha256 : List UInt8 → Bytes 32) (clock : ℕ → Text)
  (domain : Except String (Option Text)) (contract : Utf16) (events : ι → Event)

theorem sound_exact :
    (session sha256 clock domain contract events).Sound Prepared Frees Exact :=
  Crowd.sound_start ⟨⟨rfl, rfl, nofun, nofun, nofun⟩, Crowd.locked_start rfl,
    Crowd.locked_start rfl, nofun, nofun⟩ fun _ _ _ hp => opens_handler hp

variable [DecidableEq ι]

theorem invariant_exact : Crowd.Invariant (ι := ι) Prepared Frees Exact :=
  ⟨fun h hi => ⟨h.settled, h.unlocks.held _ _ hi, h.signs.held _ _ hi⟩,
    fun h hi hstep => ⟨hstep.settled, h.unlocks.kept hi hstep.unlocking.toGuards,
      h.signs.kept hi hstep.signing.toGuards, hstep.unlocking.waiting hi h.unlocking,
      hstep.signing.waiting hi h.signing⟩⟩

variable {sha256 clock domain contract events} {c : Session ι}

/-- Whatever the events are and in whatever order their answers come: the button is enabled exactly
when a signer is unlocked, nothing is in progress and the text in the editor is not the one that
this signer has signed last; the editor is enabled exactly when no signing is in progress; and an
unlocking or a signing is in progress exactly while it waits for its answer. -/
theorem button_exact
    (hruns : Crowd.Runs (session sha256 clock domain contract events) c) :
    (c.state.signBtnDisabled = false ↔ c.state.signerUnlocked = true
      ∧ c.state.unlockInProgress = false ∧ c.state.signingInProgress = false
      ∧ alreadySigned c.state = none)
    ∧ c.state.contractDisabled = c.state.signingInProgress
    ∧ (c.state.unlockInProgress = true ↔ ∃ i q, c.waits i = some q ∧ q.unlocking = true)
    ∧ (c.state.signingInProgress = true ↔ ∃ i q, c.waits i = some q ∧ q.active = true) := by
  have hexact : Exact c.waits c.state :=
    ((sound_exact sha256 clock domain contract events).runs invariant_exact hruns).2
  refine ⟨?_, hexact.settled.editor, ⟨hexact.unlocking, fun ⟨i, q, hi, hq⟩ =>
    hexact.unlocks.held i q hi hq⟩, ⟨hexact.signing, fun ⟨i, q, hi, hq⟩ =>
    hexact.signs.held i q hi hq⟩⟩
  rw [hexact.settled.button, Page.closed]
  simp [and_assoc]

/-- A signer whose passkey is unlocked can sign. -/
theorem button_exact_sample : ∃ c, Crowd.Runs sampleSession c ∧ c.state.signBtnDisabled = false
    ∧ ∀ i q, c.waits i = some q → q.active = false := by
  have hplay : (sampleSession.play (sampleSigned.take 3)).map (fun c =>
      (c.state.signerUnlocked, c.state.unlockInProgress, c.state.signingInProgress,
        alreadySigned c.state)) = some (true, false, false, none) := by decide +kernel
  obtain ⟨c, hc, hstate⟩ := Option.map_eq_some_iff.1 hplay
  simp only [Prod.mk.injEq] at hstate
  obtain ⟨hunlocked, hunlocking, hsigning, hsigned⟩ := hstate
  have hruns := Crowd.runs_of_play hc
  obtain ⟨hbutton, -, -, hactive⟩ := button_exact hruns
  refine ⟨c, hruns, hbutton.2 ⟨hunlocked, hunlocking, hsigning, hsigned⟩, fun i q hi => ?_⟩
  rw [← Bool.not_eq_true]
  intro hq
  cases hsigning.symm.trans (hactive.2 ⟨i, q, hi, hq⟩)

end Session

end SignPage

end Oblivia

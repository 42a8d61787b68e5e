import Oblivia.Client.CoSignReceipts
import Oblivia.Client.SignPageReceipts
import Oblivia.Lib.Exclusive
/-!
# No secret outlives its use

Both pages give the memory of their signer to one operation at a time. The co-signing page unlocks
a passkey for one signature, and when no such operation waits all buffers of the passkey are zeros
and no witness input has a key in it. The signing page keeps the secret of one signer between its
operations, zeroes it before it asks for another, and takes the key out of the input of a proof
when the signing is over (`signer_secrets_end`).
-/

namespace Oblivia

open Async Dialogue
open SignerMemory (Clean Proving)

namespace MultisigPage

def Event.IsClick (event : Event) : Prop := ∃ create, event = .click create

/-- A click begins an operation unless the button is disabled. It holds the memory until it has had
its turn after the signing, when the button may be enabled again. -/
def discipline {ι : Type} (events : ι → Event) :
    Discipline ι Wait Wait.Answer Page SignerMemory where
  event := .event
  pending q := q.active || q = .turn
  turn q := q = .turn
  lock p := p.scanBtn.disabled = true
  memory := Page.toSignerMemory
  rest := Clean
  during i _ _ := (events i).IsClick
  does _ _ _ _ := True

section Writes

variable {p : Page} {status : AgreementStatus} {l : Locals}

@[simp]
theorem renderStatus_memory : (renderStatus status p).toSignerMemory = p.toSignerMemory := by
  unfold renderStatus
  simp only []
  split_ifs <;> rfl

@[simp]
theorem statusUnavailable_memory : (statusUnavailable p).toSignerMemory = p.toSignerMemory := by
  unfold statusUnavailable
  split <;> rfl

@[simp]
theorem signFailed_memory : (signFailed l p).toSignerMemory = p.toSignerMemory := by
  unfold signFailed
  split
  · exact renderStatus_memory
  · split_ifs <;> rfl

@[simp]
theorem signDone_memory : (signDone l p).toSignerMemory = p.release l.input := by
  unfold signDone
  simp only []
  split
  · exact renderStatus_memory
  · rfl

@[simp]
theorem unlockFailed_memory : (unlockFailed p).toSignerMemory = p.toSignerMemory := by
  unfold unlockFailed
  split <;> rfl

@[simp]
theorem unlockDone_memory : (unlockDone p).toSignerMemory = p.toSignerMemory.clearSigner := by
  unfold unlockDone
  simp only []
  split
  · exact renderStatus_memory
  · rfl

end Writes

section Handlers

variable {ι : Type} {events : ι → Event} {i : ι} {sha256 : List UInt8 → Bytes 32}
  {clock : ℕ → Text} {config : ℕ × ℕ} {domain : Except String (Option Text)} {create : Bool}
  {o : Turn Wait Wait.Answer × Page} {p : Page} {l : Locals} {P : SignerMemory → Prop}

variable (events) in
/-- A section of an operation that holds the button, with `P` of the memory. -/
abbrev Holds (P : SignerMemory → Prop) (o : Turn Wait Wait.Answer × Page) (p : Page) : Prop :=
  (discipline events).Within P o p

/-- What the functions of an operation do. -/
abbrev Acts (events : ι → Event) (i : ι) {ε α : Type} (x : Task ε α)
    (post : Turn Wait Wait.Answer × Page → Except ε α → Page → Prop)
    (o : Turn Wait Wait.Answer × Page) (p : Page) : Prop :=
  Relies (discipline events).Finds ((discipline events).Does i) x post o p

/-- A write that leaves the memory alone. -/
theorem holds_quiet {p' : Page} (h : Holds events P o p) (hp : Quiet p p')
    (hmemory : p'.toSignerMemory = p.toSignerMemory) : Holds events P o p' :=
  h.write hp.btn fun hP => (congrArg P hmemory).mpr hP

theorem buildInput_append {p' : Page} (h : buildInput sha256 clock p = .ok p') :
    ∃ input, p'.toSignerMemory = { p.toSignerMemory with inputs := p.inputs ++ [input] }
      ∧ p'.scanBtn.disabled = p.scanBtn.disabled := by
  unfold buildInput at h
  simp only [Batch.bind_eq_ok, Batch.pure_eq_ok] at h
  obtain ⟨input, -, rfl⟩ := h
  exact ⟨input, rfl, rfl⟩

/-- However the signing ends, the local variables know of the input. -/
def Signed (events : ι → Event) (o : Turn Wait Wait.Answer × Page) :
    Except Locals Locals → Page → Prop
  | .ok l, p => Holds events (Proving l.input) o p
  | .error l, p => Holds events (Proving l.input) o p

theorem acts_takeAnswer {answer : RelayAnswer} (h : Holds events (Proving l.input) o p) :
    Acts events i (takeAnswer l answer) (Signed events) o p := by
  unfold takeAnswer
  refine relies_attempt_bind.2 ?_
  rcases received answer with e | data
  · exact h
  refine relies_attempt_bind.2 ?_
  rcases validateTransaction (data.field "transaction") with e | transaction
  · exact h
  have hshown : Holds events (Proving l.input) o
      (showTransaction transaction { p with statusRevision := p.statusRevision + 1 }) :=
    h.write id id
  refine relies_modify_bind.2 ?_
  split_ifs
  · exact holds_quiet hshown quiet_statusUnavailable statusUnavailable_memory
  refine relies_attempt_bind.2 ?_
  rcases validateStatus data 1 with e | status
  · exact hshown
  have hrendered : Holds events (Proving l.input) o (renderStatus status _) :=
    holds_quiet hshown quiet_renderStatus renderStatus_memory
  refine relies_modify_bind.2 (relies_get_bind.2 ?_)
  split_ifs
  · exact hrendered.write id id
  · exact hrendered

variable (hi : (events i).IsClick)
include hi

/-- An operation waits for the passkey, the proof or the relay. -/
theorem acts_receive_bind {ε α : Type} {q : Wait} {f : q.Answer → Task ε α}
    {post : Turn Wait Wait.Answer × Page → Except ε α → Page → Prop} (h : Holds events P o p)
    (hq : q.active = true)
    (hf : ∀ r p', Holds events P (⟨q, r⟩, p') p' → Acts events i (f r) post (⟨q, r⟩, p') p') :
    Acts events i (receive q >>= f) post o p := by
  refine h.receive_bind ?_ ?_ hi trivial hf
  · simp [discipline, hq]
  · have hturn : q ≠ .turn := by
      rintro rfl
      cases hq
    simp [discipline, hturn]

theorem acts_trySign (h : Holds events (Proving none) o p) :
    Acts events i (trySign sha256 clock config) (Signed events) o p := by
  unfold trySign
  refine relies_get_bind.2 (relies_attempt_bind.2 ?_)
  rcases hb : buildInput sha256 clock p with e | p'
  · exact h
  obtain ⟨input, hmemory, hbtn⟩ := buildInput_append hb
  -- from here on the input of the local variables is the last one
  have hbuilt : Holds events (Proving (some (p'.inputs.length - 1))) o p' := by
    refine h.write (fun hlock => hbtn.trans hlock) fun hproving => ?_
    change Proving (some (p'.toSignerMemory.inputs.length - 1)) p'.toSignerMemory
    rw [hmemory, List.length_append, List.length_singleton, Nat.add_sub_cancel]
    exact hproving.append input
  refine relies_set_bind.2 ?_
  refine acts_receive_bind hi hbuilt rfl fun proved p h => ?_
  refine relies_attempt_bind.2 ?_
  rcases proved with e | ⟨proof, publicSignals⟩
  · exact h
  refine relies_get_bind.2 ?_
  split_ifs
  · exact h
  refine relies_attempt_bind.2 ?_
  rcases grothPayload proof publicSignals with e | payload
  · exact h
  refine relies_get_bind.2 ?_
  exact acts_receive_bind hi h rfl fun answer p h => acts_takeAnswer h

/-- An operation that has signed, or has not: it may have enabled the button. -/
def Settled (events : ι → Event) (o : Turn Wait Wait.Answer × Page) (p : Page) : Prop :=
  (discipline events).Mine o.1 o.2 ∧ Proving none ((discipline events).memory p)

omit hi in
theorem settled (h : Holds events (Proving none) o p) : Settled events o p := ⟨h.mine, h.memory⟩

omit hi in
theorem settled_of_clean (h : Holds events Clean o p) : Settled events o p :=
  ⟨h.mine, h.memory.proving⟩

theorem acts_doSign (h : Holds events (Proving none) o p) :
    Acts events i (doSign sha256 clock) (fun o r p => r = .ok () ∧ Settled events o p) o p := by
  unfold doSign
  refine relies_get_bind.2 ?_
  split_ifs
  · exact ⟨rfl, settled h⟩
  rcases p.currentConfig with _ | config
  · exact ⟨rfl, settled h⟩
  refine relies_modify_bind.2 (relies_bind.2 (relies_catching.2 ?_))
  have hdone {o : Turn Wait Wait.Answer × Page} {l : Locals} {p : Page}
      (h : Holds events (Proving l.input) o p) : Settled events o (signDone l p) := by
    refine ⟨h.mine, ?_⟩
    change Proving none (signDone l p).toSignerMemory
    rw [signDone_memory]
    exact h.memory
  have hsign : Acts events i (trySign sha256 clock config) (Signed events) o
      (.disable true { p with signingInProgress := true }) :=
    acts_trySign hi (h.write (fun _ => rfl) id)
  refine hsign.mono fun o r p h => ?_
  cases r with
  | ok l => exact ⟨rfl, hdone h⟩
  | error l => exact ⟨rfl, hdone (holds_quiet h quiet_signFailed signFailed_memory)⟩

theorem acts_unlockPasskey (h : Holds events Clean o p) :
    Acts events i (unlockPasskey sha256 clock) (fun o _ p => Settled events o p) o p := by
  unfold unlockPasskey
  refine relies_modify_bind.2 ?_
  have hasked : Holds events Clean o
      { p with bioStatus := "Confirm with Face ID, Touch ID or device PIN..." } := h.write id id
  refine acts_receive_bind hi hasked rfl fun unlocked p h => relies_attempt_bind.2 ?_
  rcases unlocked with e | secret
  · exact settled_of_clean h
  have hkept : Holds events (Proving none) (⟨.getPasskeySecret, .ok secret⟩, p)
      { p with toSignerMemory := p.keep secret } :=
    h.write id fun hclean => hclean.keep secret
  refine relies_modify_bind.2 (relies_get_bind.2 ?_)
  split_ifs
  · exact settled hkept
  refine relies_modify_bind.2 ?_
  refine (acts_doSign hi ?_).andThen ?_ ?_
  · exact hkept.write id id
  · intro _ o p ⟨_, h⟩
    -- no event comes before its turn, so the memory is still the one it left
    exact Discipline.relies_turn h.1 rfl rfl hi trivial h.2
  · rintro e o p ⟨heq, -⟩
    cases heq

theorem acts_tryUnlock (h : Holds events Clean o p) :
    Acts events i (tryUnlock sha256 clock domain create) (fun o _ p => Settled events o p) o p := by
  unfold tryUnlock
  refine relies_attempt_bind.2 ?_
  rcases domain with e | rpId
  · exact settled_of_clean h
  cases create with
  | false => exact acts_unlockPasskey hi h
  | true =>
    refine relies_modify_bind.2 ?_
    have hcreating : Holds events Clean o
        { p with bioStatus := "Creating passkey..." } := h.write id id
    refine acts_receive_bind hi hcreating rfl fun created p h => relies_attempt_bind.2 ?_
    rcases created with e | _
    · exact settled_of_clean h
    refine relies_get_bind.2 ?_
    split_ifs
    · exact settled_of_clean h
    · exact acts_unlockPasskey hi h

theorem acts_unlockSigner {r : Unit} {l : Page}
    (h : (discipline events).Finds (.event, l) p) :
    Acts events i (unlockSigner sha256 clock domain create)
      (fun o _ p => (discipline events).Does i o.1 o.2 none p) (⟨.event, r⟩, p) p := by
  unfold unlockSigner
  refine relies_get_bind.2 ?_
  split_ifs with hguard
  · exact (h.apart rfl).does nofun trivial
  push Not at hguard
  have hfree : ¬(discipline events).lock p := hguard.1
  have hstarted : Holds events Clean (⟨.event, r⟩, p)
      (p.disable true) := ⟨.inr ⟨rfl, hfree⟩, rfl, h.rest rfl hfree⟩
  have hdone {o : Turn Wait Wait.Answer × Page} {p : Page} (h : Settled events o p) :
      (discipline events).Does i o.1 o.2 none (unlockDone p) := by
    refine Discipline.does_done h.1 ?_ trivial
    change (unlockDone p).toSignerMemory.Clean
    rw [unlockDone_memory]
    exact h.2.clean_clearSigner
  refine relies_modify_bind.2 (relies_andFinally.2 (relies_catching.2 ?_))
  refine (acts_tryUnlock hi hstarted).mono fun o r p h => ?_
  cases r with
  | ok _ => exact hdone h
  | error _ =>
    refine hdone ⟨h.1, ?_⟩
    change Proving none (unlockFailed p).toSignerMemory
    rw [unlockFailed_memory]
    exact h.2

omit hi

theorem acts_tryStatus {revision : ℕ} (h : (discipline events).Apart o p) :
    Acts events i (tryStatus revision) (fun o _ p => (discipline events).Apart o p) o p := by
  unfold tryStatus
  refine relies_get_bind.2 ?_
  split_ifs
  · exact h
  refine ⟨h.does (fun q hq => Option.some.inj hq ▸ rfl) trivial, fun ⟨answer, p⟩ hfinds => ?_⟩
  have hanswered := Discipline.Finds.apart (r := answer) hfinds rfl
  refine relies_attempt_bind.2 ?_
  rcases received answer with e | s
  · exact hanswered
  refine relies_get_bind.2 ?_
  split_ifs
  · exact hanswered
  · exact hanswered
  refine relies_attempt_bind.2 ?_
  rcases validateStatus s 0 with e | status
  · exact hanswered
  · exact hanswered.write renderStatus_memory renderStatus_disabled

theorem acts_refreshStatus {r : Unit} {l : Page}
    (h : (discipline events).Finds (.event, l) p) :
    Acts events i refreshStatus (fun o _ p => (discipline events).Does i o.1 o.2 none p)
      (⟨.event, r⟩, p) p := by
  have hnext : (discipline events).Apart (⟨.event, r⟩, p)
      { p with statusRevision := p.statusRevision + 1 } := (h.apart rfl).write rfl id
  unfold refreshStatus
  refine relies_modify_bind.2 (relies_get_bind.2 (relies_catching.2 ?_))
  refine (acts_tryStatus hnext).mono fun o r p h => ?_
  cases r with
  | ok _ => exact h.does nofun trivial
  | error _ =>
    unfold statusFailed
    refine relies_get_bind.2 ?_
    split_ifs
    · exact h.does nofun trivial
    · refine (h.write ?_ ?_).does nofun trivial
      · simp only []
        split
        · exact renderStatus_memory
        · rfl
      · simp only []
        split
        · exact renderStatus_disabled
        · exact id

end Handlers

section Session

variable {ι : Type} [DecidableEq ι] {events : ι → Event} {sha256 : List UInt8 → Bytes 32}
  {clock : ℕ → Text} {domain : Except String (Option Text)} {contract : List UInt8}
  {config : Option (ℕ × ℕ)}

omit [DecidableEq ι] in
theorem sound_discipline : (discipline events).Sound
    (session sha256 clock domain contract config events) := by
  refine Discipline.sound_start rfl SignerMemory.clean_empty fun i r p h => ?_
  rcases hevent : events i with _ | create
  · exact acts_refreshStatus h
  · exact acts_unlockSigner ⟨create, hevent⟩ h

/-- When no operation waits, the signer is forgotten. -/
theorem forgets {c : Crowd ι Wait Wait.Answer Page (Except Unit Unit)}
    (h : Crowd.PromptRuns .event (· = .turn)
      (session sha256 clock domain contract config events) c)
    (hidle : ∀ i, (events i).IsClick → c.waits i = none ∨ c.waits i = some .event) :
    c.state.Blank ∧ c.state.Released := by
  have hsound : (discipline events).Sound c := sound_discipline.runs h
  refine hsound.rest fun i q hi => ?_
  by_contra hpending
  have hclick : (events i).IsClick := hsound.during hi (by simpa using hpending)
  rcases hidle i hclick with hnone | hevent
  · rw [hi] at hnone
    cases hnone
  · rw [hi, Option.some.injEq] at hevent
    exact hpending (hevent ▸ rfl)

end Session

end MultisigPage

namespace SignPage

/-- A section that begins an unlocking, or learns that the passkey was not created or not
unlocked. -/
inductive Restarts (p : Page) : Turn Wait Wait.Answer → Prop
  | started (hunlock : p.unlockInProgress = false) (hsigning : p.signingInProgress = false) :
      Restarts p ⟨.event, ()⟩
  | notCreated {message : String} : Restarts p ⟨.createSignerPasskey, .error message⟩
  | notUnlocked {message : String} : Restarts p ⟨.getPasskeySecret, .error message⟩

def Event.IsUnlock (event : Event) : Prop := ∃ create, event = .unlock create

/-- Unlocking and signing exclude each other. While a passkey is asked for nothing is left of the
signer before, and while a signature is made only the current secret is. -/
def discipline {ι : Type} (events : ι → Event) :
    Discipline ι Wait Wait.Answer Page SignerMemory where
  event := .event
  pending q := q ≠ .event
  turn _ := false
  lock p := p.unlockInProgress = true ∨ p.signingInProgress = true
  memory := Page.toSignerMemory
  rest := Proving none
  during i q m := match q with
    | .createSignerPasskey | .getPasskeySecret => m.Clean
    | _ => events i = .sign ∧ m.CurrentOnly
  does i e p p' := (events i).IsUnlock → Restarts p e → p'.Blank

section Handlers

variable {ι : Type} {events : ι → Event} {i : ι} {sha256 : List UInt8 → Bytes 32}
  {clock : ℕ → Text} {domain : Except String (Option Text)} {create : Bool}
  {o : Turn Wait Wait.Answer × Page} {p : Page} {P : SignerMemory → Prop}

variable (events) in
/-- A section of an operation, with `P` of the memory. -/
abbrev Holds (P : SignerMemory → Prop) (o : Turn Wait Wait.Answer × Page) (p : Page) : Prop :=
  (discipline events).Within P o p

/-- What the functions of an operation do. -/
abbrev Acts (events : ι → Event) (i : ι) {ε α : Type} (x : Task ε α)
    (post : Turn Wait Wait.Answer × Page → Except ε α → Page → Prop)
    (o : Turn Wait Wait.Answer × Page) (p : Page) : Prop :=
  Relies (discipline events).Finds ((discipline events).Does i) x post o p

section Unlock

/-- However the unlocking ends, and if it does not fail, in a section that goes on with a secret. -/
def Unlocked (events : ι → Event) (o : Turn Wait Wait.Answer × Page) :
    Except Unit Unit → Page → Prop
  | .ok _, p => Holds events (Proving none) o p ∧ ¬Restarts o.2 o.1
  | .error _, p => Holds events (Proving none) o p

theorem acts_unlockPasskey (h : Holds events Clean o p) :
    Acts events i (unlockPasskey) (Unlocked events) o p := by
  unfold unlockPasskey
  refine relies_modify_bind.2 ?_
  have hasked : Holds events Clean o { p with
      passkeyStatus := "Confirm with Face ID, Touch ID or device PIN..."
      passkeyIcon := "◎" } := h.write id id
  refine hasked.receive_bind rfl rfl h.memory (fun _ _ => h.memory.1) fun unlocked p h => ?_
  refine relies_attempt_bind.2 ?_
  rcases unlocked with e | secret
  · exact h.mono fun _ hclean => hclean.proving
  · exact ⟨h.write id fun hclean => hclean.keep secret, nofun⟩

theorem acts_tryUnlock (h : Holds events Clean o p) :
    Acts events i (tryUnlock domain create) (Unlocked events) o p := by
  unfold tryUnlock
  refine relies_attempt_bind.2 ?_
  rcases domain with e | rpId
  · exact h.mono fun _ hclean => hclean.proving
  cases create with
  | false => exact acts_unlockPasskey h
  | true =>
    refine relies_modify_bind.2 ?_
    have hcreating : Holds events Clean o
        { p with passkeyStatus := "Creating passkey..." } := h.write id id
    refine hcreating.receive_bind rfl rfl h.memory (fun _ _ => h.memory.1) fun created p h => ?_
    refine relies_attempt_bind.2 ?_
    rcases created with e | _
    · exact h.mono fun _ hclean => hclean.proving
    · exact acts_unlockPasskey h

theorem acts_unlockSigner {r : Unit} {l : Page}
    (h : (discipline events).Finds (.event, l) p) :
    Acts events i (unlockSigner domain create)
      (fun o _ p => (discipline events).Does i o.1 o.2 none p) (⟨.event, r⟩, p) p := by
  unfold unlockSigner
  refine relies_get_bind.2 ?_
  split_ifs with hguard
  · refine (h.apart rfl).does nofun fun _ hrestarts => ?_
    cases hrestarts with
    | started hunlock hsigning =>
      rcases hguard with hguard | hguard
      · cases hunlock.symm.trans hguard
      · cases hsigning.symm.trans hguard
  have hstarted : Holds events Clean (⟨.event, r⟩, p)
      (unlockStarts p) :=
    ⟨.inr ⟨rfl, hguard⟩, .inl rfl, (h.rest rfl hguard).clean_clearSigner⟩
  refine relies_modify_bind.2 (relies_bind.2 (relies_catching.2 ?_))
  refine (acts_tryUnlock hstarted).mono fun o r p h => ?_
  cases r with
  | ok _ => exact Discipline.does_done h.1.mine h.1.memory fun _ hrestarts => absurd hrestarts h.2
  | error _ =>
    have hclean := h.memory.clean_clearSigner
    exact Discipline.does_done h.mine hclean.proving fun _ _ => hclean.1

end Unlock

section Sign

theorem buildInput_append {contract : Utf16} {p' : Page}
    (h : buildInput sha256 clock contract p = .ok p') :
    ∃ input readings, p' = { p with inputs := p.inputs ++ [input], clockReadings := readings } := by
  unfold buildInput at h
  simp only [Batch.bind_eq_ok, Batch.pure_eq_ok] at h
  obtain ⟨input, -, rfl⟩ := h
  exact ⟨input, _, rfl⟩

/-- However the signing ends, the local variables know of the input. -/
def Signed (events : ι → Event) (o : Turn Wait Wait.Answer × Page) :
    Except Locals Locals → Page → Prop
  | .ok l, p => Holds events (Proving l.input) o p
  | .error l, p => Holds events (Proving l.input) o p

theorem holds_signFailed {l : Locals} (h : Holds events P o p) :
    Holds events P o (signFailed l p) := by
  unfold signFailed
  split_ifs
  · exact h.write id id
  · exact h.write id id

variable (hi : events i = .sign)
include hi

theorem does_sign {e : Turn Wait Wait.Answer} {p' : Page} :
    (discipline events).does i e p p' := by
  rintro ⟨create, hunlock⟩
  rw [hi] at hunlock
  cases hunlock

theorem acts_trySign {contract : Utf16} (h : Holds events (Proving none) o p) :
    Acts events i (trySign sha256 clock contract) (Signed events) o p := by
  unfold trySign
  refine relies_get_bind.2 (relies_attempt_bind.2 ?_)
  rcases hb : buildInput sha256 clock contract p with e | p'
  · exact h
  obtain ⟨input, readings, rfl⟩ := buildInput_append hb
  have hlast : (p.inputs ++ [input]).length - 1 = p.inputs.length := by simp
  have hbuilt : Holds events (Proving (some ((p.inputs ++ [input]).length - 1))) o
      { p with inputs := p.inputs ++ [input], clockReadings := readings } := by
    rw [hlast]
    exact h.write id fun hproving => hproving.append input
  refine relies_set_bind.2 ?_
  refine hbuilt.receive_bind rfl rfl ⟨hi, hbuilt.memory.1⟩ (does_sign hi) fun proved p h => ?_
  refine relies_attempt_bind.2 ?_
  rcases proved with e | ⟨proof, publicSignals⟩
  · exact h
  refine relies_attempt_bind.2 ?_
  rcases anchorProof proof publicSignals with e | payload
  · exact h
  have hpreviewed : Holds events _ _ { p with proofDisplay := proofPreview payload } :=
    h.write id id
  refine relies_modify_bind.2 (relies_get_bind.2 ?_)
  split
  · exact h.write id id
  refine hpreviewed.receive_bind rfl rfl ⟨hi, h.memory.1⟩ (does_sign hi) fun answer p h => ?_
  refine relies_attempt_bind.2 ?_
  rcases confirmed answer with e | transaction
  · exact h
  · exact h.write id id

theorem acts_signContract {r : Unit} {l : Page}
    (h : (discipline events).Finds (.event, l) p) :
    Acts events i (signContract sha256 clock)
      (fun o _ p => (discipline events).Does i o.1 o.2 none p) (⟨.event, r⟩, p) p := by
  have hapart := Discipline.Finds.apart (r := r) h rfl
  unfold signContract
  refine relies_get_bind.2 ?_
  split_ifs with hguard
  · exact hapart.does nofun (does_sign hi)
  rcases alreadySigned p with _ | receipt
  · push Not at hguard
    have hfree : ¬(discipline events).lock p := fun hlock =>
      hlock.elim hguard.2.1 hguard.1
    have hstarted : Holds events (Proving none) (⟨.event, r⟩, p) (signStarts p) :=
      ⟨.inr ⟨rfl, hfree⟩, .inr rfl, h.rest rfl hfree⟩
    have hdone {o : Turn Wait Wait.Answer × Page} {l : Locals} {p : Page} {contract : Utf16}
        (h : Holds events (Proving l.input) o p) :
        (discipline events).Does i o.1 o.2 none (signDone contract l p) :=
      Discipline.does_done h.mine ⟨h.memory.1, h.memory.2⟩ (does_sign hi)
    refine relies_modify_bind.2 (relies_bind.2 (relies_catching.2 ?_))
    refine (acts_trySign hi hstarted).mono fun o r p h => ?_
    cases r with
    | ok l => exact hdone h
    | error l => exact hdone (holds_signFailed h)
  · have hshown : (discipline events).Apart (⟨.event, r⟩, p)
        { showConfirmedReceipt receipt p with signBtnDisabled := true } := hapart.write rfl id
    exact hshown.does nofun (does_sign hi)

end Sign

theorem apart_contractInput (h : (discipline events).Apart o p) :
    (discipline events).Apart o (contractInput p) := by
  unfold contractInput
  split_ifs
  · exact h
  split
  · exact h.write rfl id
  · exact h.write rfl id

theorem acts_handler {r : Unit} {l : Page} (h : (discipline events).Finds (.event, l) p) :
    Acts events i (handler sha256 clock domain (events i))
      (fun o _ p => (discipline events).Does i o.1 o.2 none p) (⟨.event, r⟩, p) p := by
  rcases hevent : events i with value | create | _
  · have hedited : (discipline events).Apart (⟨.event, r⟩, p) { p with contract := value } :=
      (h.apart rfl).write rfl id
    refine (apart_contractInput hedited).does nofun ?_
    rintro ⟨create, hunlock⟩
    rw [hevent] at hunlock
    cases hunlock
  · exact acts_unlockSigner h
  · exact acts_signContract hevent h

end Handlers

section Session

variable {ι : Type} [DecidableEq ι] {events : ι → Event} {sha256 : List UInt8 → Bytes 32}
  {clock : ℕ → Text} {domain : Except String (Option Text)} {contract : Utf16}
  {c : Crowd ι Wait Wait.Answer Page (Except Unit Unit)}

omit [DecidableEq ι]

theorem sound_discipline : (discipline events).Sound
    (session sha256 clock domain contract events) :=
  Discipline.sound_start rfl SignerMemory.clean_empty.proving fun _ _ _ h => acts_handler h

/-- At every moment the current secret is the only one that is left. -/
theorem current_only (h : (discipline events).Sound c) : c.state.CurrentOnly := by
  rcases h.cases with hrest | ⟨i, q, -, hpending, hduring⟩
  · exact hrest.1
  · cases q with
    | event => cases hpending
    | createSignerPasskey | getPasskeySecret => exact hduring.1.currentOnly
    | fullProve | postSign => exact hduring.2

/-- When nothing is being signed, no input has a key in it. -/
theorem released (h : (discipline events).Sound c)
    (hidle : ∀ i, events i = .sign → c.waits i = none ∨ c.waits i = some .event) :
    c.state.Released := by
  have hsigns {i : ι} {q : Wait} (hi : c.waits i = some q) (hpending : q ≠ .event)
      (hsign : events i = .sign) : False := by
    rcases hidle i hsign with hnone | hevent
    · rw [hi] at hnone
      cases hnone
    · exact hpending (Option.some.inj (hi.symm.trans hevent))
  rcases h.cases with hrest | ⟨i, q, hi, hpending, hduring⟩
  · exact hrest.2
  · cases q with
    | event => cases hpending
    | createSignerPasskey | getPasskeySecret => exact hduring.2
    | fullProve | postSign => exact (hsigns hi nofun hduring.1).elim

end Session

end SignPage

/-- On the co-signing page nothing is left of a signer whenever no unlocking is pending, however
clicks, lookups and answers follow each other; a function that has awaited a call goes on before
the next event. On the signing page the current secret is the only one left at every moment, an
unlocking that starts or fails leaves none, and no input has a key in it when nothing is being
signed. -/
theorem signer_secrets_end (sha256 : List UInt8 → Bytes 32) (clock : ℕ → Text)
    (domain : Except String (Option Text)) {ι : Type} [DecidableEq ι] :
    (∀ (contract : List UInt8) (config : Option (ℕ × ℕ)) (events : ι → MultisigPage.Event) c,
      Crowd.PromptRuns .event (· = .turn)
        (MultisigPage.session sha256 clock domain contract config events) c →
      (∀ i create, events i = .click create →
        c.waits i = none ∨ c.waits i = some .event) →
      c.state.Blank ∧ c.state.Released)
    ∧ ∀ (contract : Utf16) (events : ι → SignPage.Event) c,
      Crowd.Runs (SignPage.session sha256 clock domain contract events) c →
      c.state.CurrentOnly
      ∧ (∀ i create e c', events i = .unlock create → Crowd.Step c i e c' →
        SignPage.Restarts c.state e → c'.state.Blank)
      ∧ ((∀ i, events i = .sign → c.waits i = none ∨ c.waits i = some .event) →
        c.state.Released) := by
  refine ⟨fun contract config events c hruns hidle => ?_, fun contract events c hruns => ?_⟩
  · exact MultisigPage.forgets hruns fun i ⟨create, hi⟩ => hidle i create hi
  · have hsound := SignPage.sound_discipline.runs hruns.prompt
    refine ⟨SignPage.current_only hsound, fun i create e c' hi hstep hrestarts => ?_,
      SignPage.released hsound⟩
    exact (hsound.resume hstep fun _ _ _ _ => rfl).1.does ⟨create, hi⟩ hrestarts

section Sample

open MultisigPage

/-- A co-signing page whose button is clicked. -/
def sampleClicked : Crowd Unit Wait Wait.Answer Page (Except Unit Unit) :=
  session (fun _ => .ofNat 32 (2 ^ 240)) (fun _ => "1700000000".toList) (.ok none)
    (Bytes.utf8 "Agreement") (some (2, 3)) fun _ => .click false

/-- The passkey is unlocked and the prover fails. -/
def sampleUnproved : List (Unit × Turn Wait Wait.Answer) :=
  [((), ⟨.getPasskeySecret, .ok (List.replicate 32 5)⟩),
    ((), ⟨.fullProve 0, .error "Out of memory"⟩), ((), ⟨.turn, ()⟩)]

/-- The secret was there, and is zeros when the operation has ended. -/
theorem signer_secrets_end_sample : ∃ c, Crowd.PromptRuns .event (· = .turn) sampleClicked c
    ∧ c.state.secrets.length = 1 ∧ c.state.inputs.length = 1 ∧ c.state.Blank
    ∧ c.state.Released := by
  have hplay : (sampleClicked.play (((), ⟨.event, ()⟩) :: sampleUnproved)).map (fun c =>
      (c.waits (), c.state.secrets.length, c.state.inputs.length)) = some (none, 1, 1) := by
    decide +kernel
  obtain ⟨c, hc, hstate⟩ := Option.map_eq_some_iff.1 hplay
  obtain ⟨hended, hsecrets, hinputs⟩ := (by simpa using hstate :
    c.waits () = none ∧ c.state.secrets.length = 1 ∧ c.state.inputs.length = 1)
  have hruns : Crowd.PromptRuns .event (· = .turn) sampleClicked c :=
    .head ⟨(), _, .resume () rfl, fun _ _ _ hq => Option.some.inj hq ▸ rfl⟩
      (Crowd.promptRuns_of_play (by decide) hc)
  obtain ⟨hblank, hreleased⟩ := (signer_secrets_end _ _ _).1 _ _ _ c hruns fun _ _ _ => .inl hended
  exact ⟨c, hruns, hsecrets, hinputs, hblank, hreleased⟩

end Sample

end Oblivia

import Oblivia.Client.RelayAnswers
import Oblivia.Client.SignerMemory
import Oblivia.Lib.Async
/-!
# The co-signing page

The handlers of the page that co-signs an agreement: looking its status up, unlocking or creating a
passkey, and signing with it. They run in one thread and share the variables and the elements of
the page, in any order of clicks and answers (`Page.opened`). What the page only logs is left out.
-/

namespace Oblivia

namespace MultisigPage

structure Button where
  disabled : Bool
  textContent : String
  deriving DecidableEq

/-- The variables and the elements of the page. -/
structure Page extends SignerMemory where
  currentContract : List UInt8
  currentConfig : Option (ℕ × ℕ)
  signingInProgress : Bool
  statusRevision : ℕ
  finalizedStatus : Option AgreementStatus
  /-- How often the clock has been read. -/
  clockReadings : ℕ
  progress : String
  scanBtn : Button
  createPasskeyDisabled : Bool
  bioStatus : String
  /-- The transaction whose link is displayed. -/
  txLink : Option Text
  deriving DecidableEq

/-- What a handler waits for: its event, an answer, or its turn after a call it awaits. -/
inductive Wait
  | event
  | getStatus (revision : ℕ)
  | createSignerPasskey
  | getPasskeySecret
  | fullProve (input : ℕ)
  | postSign (body : Text)
  | turn
  deriving DecidableEq

abbrev Wait.Answer : Wait → Type
  | event => Unit
  | getStatus _ => RelayAnswer
  | createSignerPasskey => Except String Unit
  | getPasskeySecret => Except String (List UInt8)
  | fullProve _ => Except String (Groth16Proof × (Fin 4 → Text))
  | postSign _ => RelayAnswer
  | turn => Unit

/-- `await relayResponse(await fetch(…))`. -/
def received : RelayAnswer → Except AnswerError Json
  | .ok (status, text) => relayResponse status text
  | .error message => .error (.text message)

/-- Whether a field is this literal. -/
def isBool (b : Bool) : Option Json → Bool
  | some (.bool b') => b = b'
  | _ => false

abbrev Task (ε α : Type) := Async Wait Wait.Answer Page ε α

section Elements

def AgreementStatus.text (status : AgreementStatus) : String :=
  toString status.collected ++ " of " ++ toString status.threshold ++ " signed"
    ++ if status.finalized then " — FINALIZED ✓" else ""

/-- The status that is known to be final, or else this one. -/
def Page.finalizes (p : Page) (status : AgreementStatus) : Option AgreementStatus :=
  if status.finalized = true ∧ p.finalizedStatus.isNone then some status else p.finalizedStatus

def renderStatus (status : AgreementStatus) (p : Page) : Page :=
  let p := { p with finalizedStatus := p.finalizes status }
  let status := p.finalizedStatus.getD status
  let p := { p with progress := status.text }
  if status.finalized then
    { p with scanBtn := ⟨true, "Agreement Finalized"⟩, createPasskeyDisabled := true }
  else p

def showTransaction (transaction : Text) (p : Page) : Page := { p with txLink := some transaction }

def clearSigner (p : Page) : Page := { p with toSignerMemory := p.toSignerMemory.clearSigner }

/-- `scanBtn.disabled = …`. -/
def Page.disable (disabled : Bool) (p : Page) : Page :=
  { p with scanBtn := { p.scanBtn with disabled := disabled } }

/-- `scanBtn.textContent = …`. -/
def Page.label (text : String) (p : Page) : Page :=
  { p with scanBtn := { p.scanBtn with textContent := text } }

section Render

variable {status : AgreementStatus} {p : Page}

@[simp]
theorem renderStatus_finalizedStatus :
    (renderStatus status p).finalizedStatus = p.finalizes status := by
  unfold renderStatus
  simp only []
  split_ifs <;> rfl

@[simp]
theorem renderStatus_txLink : (renderStatus status p).txLink = p.txLink := by
  unfold renderStatus
  simp only []
  split_ifs <;> rfl

@[simp]
theorem renderStatus_statusRevision :
    (renderStatus status p).statusRevision = p.statusRevision := by
  unfold renderStatus
  simp only []
  split_ifs <;> rfl

theorem renderStatus_disabled (h : p.scanBtn.disabled = true) :
    (renderStatus status p).scanBtn.disabled = true := by
  unfold renderStatus
  simp only []
  split_ifs
  · rfl
  · exact h

theorem isSome_finalizes (h : status.finalized = true) : (p.finalizes status).isSome = true := by
  unfold Page.finalizes
  rcases p.finalizedStatus with _ | final <;> simp [h]

end Render

end Elements

section Handlers

open Async

variable (sha256 : List UInt8 → Bytes 32) (clock : ℕ → Text) (domain : Except String (Option Text))

/-- The `catch` of `refreshStatus`. -/
def statusFailed (revision : ℕ) : Task Unit Unit := do
  if revision ≠ (← get).statusRevision then
    return
  else
    modify fun p => match p.finalizedStatus with
      | some finalized => renderStatus finalized p
      | none => { p with progress := "Agreement status unavailable" }

/-- The `try` of `refreshStatus`. -/
def tryStatus (revision : ℕ) : Task Unit Unit := do
  if (← get).currentConfig.isNone then
    throw ()
  else
    let answer ← receive (.getStatus revision)
    let s ← attempt () (received answer)
    if revision ≠ (← get).statusRevision then
      return
    else if isBool false (s.field "exists") then
      throw ()
    else
      let status ← attempt () (validateStatus s 0)
      modify (renderStatus status)

def refreshStatus : Task Unit Unit := do
  modify fun p => { p with statusRevision := p.statusRevision + 1 }
  let revision := (← get).statusRevision
  catching (tryStatus revision) fun _ => statusFailed revision

/-- The local variables of `doSign` that its `catch` and `finally` read. -/
structure Locals where
  input : Option ℕ
  transaction : Option Text
  submitting : Bool

/-- From the key to the witness input, an object of its own. -/
def buildInput (p : Page) : Except String Page := do
  let input ← circuitInput sha256 p.secret p.currentContract (clock p.clockReadings)
  return { p with inputs := p.inputs ++ [input], clockReadings := p.clockReadings + 1 }

variable {sha256 clock} in
theorem buildInput_eq_ok {p p' : Page} (h : buildInput sha256 clock p = .ok p') :
    ∃ inputs readings, p' = { p with inputs := inputs, clockReadings := readings } := by
  unfold buildInput at h
  simp only [Batch.bind_eq_ok, Batch.pure_eq_ok] at h
  obtain ⟨input, -, rfl⟩ := h
  exact ⟨_, _, rfl⟩

/-- What the page shows of a receipt whose status the relay could not read. -/
def statusUnavailable (p : Page) : Page :=
  match p.finalizedStatus with
  | some _ => p
  | none => Page.label "Signed ✓ — check transaction for status"
      { p with progress := "Signature confirmed — threshold status unavailable" }

/-- The `try` of `doSign` from the answer of the relay on; what it throws are the local variables as
they are then. -/
def takeAnswer (l : Locals) (answer : RelayAnswer) : Task Locals Locals := do
  let data ← attempt l (received answer)
  let transaction ← attempt l (validateTransaction (data.field "transaction"))
  let l := { l with transaction := some transaction }
  modify fun p => showTransaction transaction { p with statusRevision := p.statusRevision + 1 }
  if isBool true (data.field "statusUnavailable") then
    modify statusUnavailable
    return l
  else
    let status ← attempt l (validateStatus data 1)
    modify (renderStatus status)
    if status.finalized = false ∧ (← get).finalizedStatus.isNone then
      modify (Page.label "Signed ✓ — you have co-signed")
    return l

/-- The `try` of `doSign`. -/
def trySign (config : ℕ × ℕ) : Task Locals Locals := do
  let p ← attempt ⟨none, none, false⟩ (buildInput sha256 clock (← get))
  set p
  let input := p.inputs.length - 1
  let l : Locals := ⟨some input, none, false⟩
  let (proof, publicSignals) ← attempt l (← receive (.fullProve input))
  if (← get).finalizedStatus.isSome then
    return l
  else
    let payload ← attempt l (grothPayload proof publicSignals)
    let currentHash := hashContract sha256 (← get).currentContract
    let body := requestBody currentHash config.1 config.2 payload
    let answer ← receive (.postSign body.stringify)
    takeAnswer { l with submitting := true } answer

/-- The `catch` of `doSign`. -/
def signFailed (l : Locals) (p : Page) : Page :=
  match p.finalizedStatus with
  | some finalized => renderStatus finalized p
  | none =>
    if l.transaction.isSome then
      Page.label "Check transaction before signing again"
        { p with progress := "Transaction receipt received — agreement status unavailable" }
    else if l.submitting then
      { p with progress := "Submission unconfirmed — check agreement status before retrying" }
    else p

/-- The `finally` of `doSign`. -/
def signDone (l : Locals) (p : Page) : Page :=
  let p := { p with toSignerMemory := p.release l.input, signingInProgress := false }
  match p.finalizedStatus with
  | some finalized => renderStatus finalized p
  | none => p.disable l.transaction.isSome

def doSign : Task Unit Unit := do
  let p ← get
  if p.signingInProgress ∨ p.finalizedStatus.isSome ∨ p.signerUnlocked = false then
    return
  else match p.currentConfig with
    | none => return
    | some config =>
      modify fun p => Page.disable true { p with signingInProgress := true }
      let l ← catching (trySign sha256 clock config) fun l => do
        modify (signFailed l)
        return l
      modify (signDone l)

/-- The `try` of `unlockSigner` from the unlocking on. -/
def unlockPasskey : Task Unit Unit := do
  modify fun p => { p with bioStatus := "Confirm with Face ID, Touch ID or device PIN..." }
  let secret ← attempt () (← receive .getPasskeySecret)
  modify fun p => { p with toSignerMemory := p.keep secret }
  if (← get).finalizedStatus.isSome then
    return
  else
    modify fun p =>
      { p with signerUnlocked := true, bioStatus := "Passkey unlocked — signing..." }
    doSign sha256 clock
    receive Wait.turn

/-- The `try` of `unlockSigner`. -/
def tryUnlock (create : Bool) : Task Unit Unit := do
  let _ ← attempt () domain
  if create then
    modify fun p => { p with bioStatus := "Creating passkey..." }
    attempt () (← receive .createSignerPasskey)
    if (← get).finalizedStatus.isSome then
      return
    else
      unlockPasskey sha256 clock
  else
    unlockPasskey sha256 clock

/-- The `catch` of `unlockSigner`. -/
def unlockFailed (p : Page) : Page :=
  match p.finalizedStatus with
  | some _ => p
  | none => Page.disable false { p with bioStatus := "Passkey unavailable. Try again." }

/-- The `finally` of `unlockSigner`. -/
def unlockDone (p : Page) : Page :=
  let p := clearSigner p
  match p.finalizedStatus with
  | some finalized => renderStatus finalized { p with bioStatus := "Agreement finalized." }
  | none => p

def unlockSigner (create : Bool) : Task Unit Unit := do
  let p ← get
  if p.scanBtn.disabled ∨ p.finalizedStatus.isSome then
    return
  else
    modify (Page.disable true)
    andFinally
      (catching (tryUnlock sha256 clock domain create) fun _ => modify unlockFailed)
      (modify unlockDone)

/-- What calls a handler. -/
inductive Event
  | refresh
  | click (create : Bool)

def handler : Event → Task Unit Unit
  | .refresh => refreshStatus
  | .click create => unlockSigner sha256 clock domain create

end Handlers

/-- The page as it is once it shows the agreement of its link. -/
def Page.opened (contract : List UInt8) (config : Option (ℕ × ℕ)) : Page where
  toSignerMemory := .empty
  currentContract := contract
  currentConfig := config
  signingInProgress := false
  statusRevision := 0
  finalizedStatus := none
  clockReadings := 0
  progress := if config.isNone then
    "This link is missing the agreement settings. Ask the creator for a new link."
    else "Loading..."
  scanBtn := ⟨config.isNone, "Unlock Passkey & Sign"⟩
  createPasskeyDisabled := config.isNone
  bioStatus := ""
  txLink := none

/-- The page and the handlers that its events are going to call. -/
def session (sha256 : List UInt8 → Bytes 32) (clock : ℕ → Text)
    (domain : Except String (Option Text)) (contract : List UInt8) (config : Option (ℕ × ℕ))
    {ι : Type} (events : ι → Event) : Async.Crowd ι Wait Wait.Answer Page (Except Unit Unit) :=
  .start (.opened contract config) .event fun i => handler sha256 clock domain (events i)

end MultisigPage

end Oblivia

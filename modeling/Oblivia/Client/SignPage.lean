import Oblivia.Client.RelayAnswers
import Oblivia.Client.SignerMemory
import Oblivia.Lib.Async
import Oblivia.Lib.Utf16
/-!
# The signing page

The handlers of the page that signs a contract: an edit of the text, unlocking or creating a
passkey, and signing with it. They run in one thread and share the variables and the elements of
the page, in any order of edits, clicks and answers (`Page.opened`). A confirmed receipt is kept
under the contract hash and the key commitment it is for. What the page only logs is left out.
-/

namespace Oblivia

namespace SignPage

/-- A signature that the relay has confirmed, and the text it is of. -/
structure Receipt where
  contract : Utf16
  transaction : Text
  proofPreview : Text
  deriving DecidableEq

inductive TxDisplay
  | text (s : String)
  | link (transaction : Text)
  deriving DecidableEq

/-- What is displayed of a signature. -/
structure Display where
  contractSignedDisplay : String
  txDisplay : TxDisplay
  proofDisplay : Text
  signedContractDisplay : Utf16
  resultShown : Bool
  deriving DecidableEq

/-- The variables and the elements of the page. -/
structure Page extends SignerMemory, Display where
  unlockInProgress : Bool
  signingInProgress : Bool
  /-- The entries of the map, the latest first. -/
  confirmedReceipts : List (Text × Receipt)
  confirmedSignerReceipt : Option Receipt
  /-- How often the clock has been read. -/
  clockReadings : ℕ
  contract : Utf16
  contractDisabled : Bool
  signBtnDisabled : Bool
  passkeyActive : Bool
  passkeyStatus : String
  passkeyIcon : String
  deriving DecidableEq

/-- What a handler waits for: its event or an answer. -/
inductive Wait
  | event
  | createSignerPasskey
  | getPasskeySecret
  | fullProve (input : ℕ)
  | postSign (body : Text)
  deriving DecidableEq

abbrev Wait.Answer : Wait → Type
  | event => Unit
  | createSignerPasskey => Except String Unit
  | getPasskeySecret => Except String (List UInt8)
  | fullProve _ => Except String (Groth16Proof × (Fin 4 → Text))
  | postSign _ => RelayAnswer

/-- The transaction of an answer that confirms one. -/
def confirmed : RelayAnswer → Except AnswerError Text
  | .error message => .error (.text message)
  | .ok (status, text) =>
    match Json.parse text with
    | none => .error .notJson
    | some data =>
      if isOk status = false ∨ truthy (some data) = false ∨ truthy (data.field "error") = true then
        .error (.orElse (data.field "error") "Relay returned an unsuccessful response")
      else match data.field "transaction" with
        | some (.string s) =>
          if IsTransaction s then .ok s
          else .error (.text "Relay did not return a valid transaction signature")
        | _ => .error (.text "Relay did not return a valid transaction signature")

abbrev Task (ε α : Type) := Async Wait Wait.Answer Page ε α

section Elements

def clearSigner (p : Page) : Page := { p with toSignerMemory := p.toSignerMemory.clearSigner }

def showConfirmedReceipt (receipt : Receipt) (p : Page) : Page :=
  { p with
    signedContractDisplay := receipt.contract
    proofDisplay := receipt.proofPreview
    contractSignedDisplay := "TRUE"
    txDisplay := .link receipt.transaction
    resultShown := true }

/-- The receipt of this signer, if it is one of the text in the editor. -/
def alreadySigned (p : Page) : Option Receipt :=
  p.confirmedSignerReceipt.filter fun receipt => receipt.contract = p.contract

/-- The handler of the editor's `input` event. -/
def contractInput (p : Page) : Page :=
  if p.signingInProgress then p
  else match alreadySigned p with
    | some receipt => showConfirmedReceipt receipt { p with signBtnDisabled := true }
    | none => { p with
      signBtnDisabled := !p.signerUnlocked || p.unlockInProgress
      resultShown := false
      contractSignedDisplay := "PENDING"
      txDisplay := .text "not submitted for this text"
      proofDisplay := "not generated".toList }

end Elements

section Handlers

open Async

variable (sha256 : List UInt8 → Bytes 32) (clock : ℕ → Text) (domain : Except String (Option Text))

def unlockStarts (p : Page) : Page :=
  { clearSigner p with
    unlockInProgress := true
    confirmedSignerReceipt := none
    signBtnDisabled := true
    passkeyActive := false }

/-- The `try` of `unlockSigner` from the unlocking on. -/
def unlockPasskey : Task Unit Unit := do
  modify fun p => { p with
    passkeyStatus := "Confirm with Face ID, Touch ID or device PIN..."
    passkeyIcon := "◎" }
  let secret ← attempt () (← receive .getPasskeySecret)
  modify fun p => { p with
    toSignerMemory := { p.keep secret with signerUnlocked := true }
    passkeyActive := true
    passkeyStatus := "Passkey unlocked. Signer ready."
    passkeyIcon := "◉"
    signBtnDisabled := false }

/-- The `try` of `unlockSigner`. -/
def tryUnlock (create : Bool) : Task Unit Unit := do
  let _ ← attempt () domain
  if create then
    modify fun p => { p with passkeyStatus := "Creating passkey..." }
    attempt () (← receive .createSignerPasskey)
    unlockPasskey
  else
    unlockPasskey

/-- The `catch` of `unlockSigner`. -/
def unlockFailed (p : Page) : Page :=
  { clearSigner p with
    passkeyStatus := "Passkey unavailable. Try again or create a passkey."
    passkeyIcon := "◉" }

def unlockSigner (create : Bool) : Task Unit Unit := do
  let p ← get
  if p.unlockInProgress ∨ p.signingInProgress then
    return
  else
    modify unlockStarts
    catching (tryUnlock domain create) fun _ => modify unlockFailed
    modify fun p => { p with unlockInProgress := false }

/-- The local variables of `signContract` that its `catch` and `finally` read. -/
structure Locals where
  input : Option ℕ
  submitted : Bool

def signStarts (p : Page) : Page :=
  { p with
    signingInProgress := true
    contractDisabled := true
    signBtnDisabled := true
    resultShown := false
    contractSignedDisplay := "PENDING"
    txDisplay := .text "pending..."
    proofDisplay := "not generated".toList
    signedContractDisplay := p.contract }

def contractHash (contract : Utf16) : List UInt8 := (sha256 (Utf16.encode contract)).toList.take 32

/-- From the key to the witness input, an object of its own. -/
def buildInput (contract : Utf16) (p : Page) : Except String Page := do
  let input ← circuitInput sha256 p.secret (Utf16.encode contract) (clock p.clockReadings)
  return { p with inputs := p.inputs ++ [input], clockReadings := p.clockReadings + 1 }

def proofPreview (payload : ProofArgs) : Text :=
  Numeral.hexEncode (payload.proofA.toList.take 8) ++ "...".toList

def receiptKey (contractHash : List UInt8) (keyCommitment : Bytes 32) : Text :=
  Numeral.hexEncode contractHash ++ ":0x".toList ++ Numeral.hexEncode keyCommitment.toList

/-- Keeps a receipt as the one of this signer, and shows it. -/
def keepReceipt (key : Text) (receipt : Receipt) (p : Page) : Page :=
  showConfirmedReceipt receipt { p with
    confirmedSignerReceipt := some receipt
    confirmedReceipts := (key, receipt) :: p.confirmedReceipts }

/-- The `try` of `signContract`; what it throws are the local variables as they are then. -/
def trySign (contract : Utf16) : Task Locals Locals := do
  let p ← attempt ⟨none, false⟩ (buildInput sha256 clock contract (← get))
  set p
  let input := p.inputs.length - 1
  let l : Locals := ⟨some input, false⟩
  let (proof, publicSignals) ← attempt l (← receive (.fullProve input))
  let payload ← attempt l (anchorProof proof publicSignals)
  modify fun p => { p with proofDisplay := proofPreview payload }
  let key := receiptKey (contractHash sha256 contract) payload.keyCommitment
  match (← get).confirmedReceipts.lookup key with
  | some existingReceipt =>
    modify fun p =>
      showConfirmedReceipt existingReceipt { p with confirmedSignerReceipt := some existingReceipt }
    return l
  | none =>
    let l := { l with submitted := true }
    let body := requestBody (contractHash sha256 contract) payload
    let answer ← receive (.postSign body.stringify)
    let transaction ← attempt l (confirmed answer)
    modify (keepReceipt key ⟨contract, transaction, proofPreview payload⟩)
    return l

/-- The `catch` of `signContract`. -/
def signFailed (l : Locals) (p : Page) : Page :=
  if l.submitted then { p with
    contractSignedDisplay := "UNCONFIRMED"
    txDisplay :=
      .text "confirmation unavailable — check transaction status before retrying" }
  else { p with
    contractSignedDisplay := "FALSE"
    txDisplay := .text "not submitted — resolve the error and retry" }

/-- The `finally` of `signContract`. -/
def signDone (contract : Utf16) (l : Locals) (p : Page) : Page :=
  { p with
    toSignerMemory := p.release l.input
    signingInProgress := false
    contractDisabled := false
    contractSignedDisplay :=
      if p.contract ≠ contract then "TEXT CHANGED" else p.contractSignedDisplay
    resultShown := true
    signBtnDisabled := (alreadySigned p).isSome }

def signContract : Task Unit Unit := do
  let p ← get
  if p.signingInProgress ∨ p.unlockInProgress ∨ p.contract = [] ∨ p.signerUnlocked = false then
    return
  else match alreadySigned p with
    | some receipt =>
      modify fun p => { showConfirmedReceipt receipt p with signBtnDisabled := true }
    | none =>
      modify signStarts
      let l ← catching (trySign sha256 clock p.contract) fun l => do
        modify (signFailed l)
        return l
      modify (signDone p.contract l)

/-- What calls a handler. -/
inductive Event
  | edit (value : Utf16)
  | unlock (create : Bool)
  | sign

def handler : Event → Task Unit Unit
  | .edit value => modify fun p => contractInput { p with contract := value }
  | .unlock create => unlockSigner domain create
  | .sign => signContract sha256 clock

end Handlers

/-- The page as it is loaded, with the text that the browser has kept in the editor. -/
def Page.opened (contract : Utf16) : Page where
  toSignerMemory := .empty
  unlockInProgress := false
  signingInProgress := false
  confirmedReceipts := []
  confirmedSignerReceipt := none
  clockReadings := 0
  contract := contract
  contractDisabled := false
  signBtnDisabled := true
  contractSignedDisplay := "PENDING"
  txDisplay := .text "not submitted"
  proofDisplay := "...".toList
  signedContractDisplay := []
  resultShown := false
  passkeyActive := false
  passkeyStatus := "Click to unlock your passkey (Face ID / Touch ID)"
  passkeyIcon := "◉"

/-- The page and the handlers that its events are going to call. -/
def session (sha256 : List UInt8 → Bytes 32) (clock : ℕ → Text)
    (domain : Except String (Option Text)) (contract : Utf16) {ι : Type} (events : ι → Event) :
    Async.Crowd ι Wait Wait.Answer Page (Except Unit Unit) :=
  .start (.opened contract) .event fun i => handler sha256 clock domain (events i)

end SignPage

end Oblivia

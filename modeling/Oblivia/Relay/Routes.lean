import Oblivia.Client.AccountState
import Oblivia.Relay.Connections
/-!
# The routes of the relay

The handlers of the three sponsored routes and of the status route, request by request to the
network, with the answers they send and the classes their errors are put into.
-/

namespace Oblivia

namespace Relay

structure Response where
  status : ℕ
  body : Json

/-- What a handler throws: an error it has classified, or another one with its message. -/
inductive Failure
  | relay (error : RelayError)
  | other (message : String)
  deriving DecidableEq

abbrev Handler (α : Type) := ExceptT Failure (Dialogue Rpc Rpc.Reply) α

def sendRelayError (error : Failure) : Response :=
  let (status, message) := match error with
    | .relay e => (e.status, e.message)
    | .other _ => (500, "Relay request failed")
  ⟨status, .object [("error".toList, .string message.toList)]⟩

/-- A check of the request. -/
def classified {α : Type} : Except RelayError α → Handler α
  | .ok a => pure a
  | .error e => throw (.relay e)

/-- A call that throws a plain error. -/
def unclassified {α : Type} : Except String α → Handler α
  | .ok a => pure a
  | .error message => throw (.other message)

def assertRequestedConfig (existing : MultiSigContract) (threshold maxSigners : ℤ) :
    Handler Unit :=
  match assertMultisigConfig existing threshold maxSigners with
  | .ok () => pure ()
  | .error message => throw (.relay ⟨409, message⟩)

def decodeAccount {α : Type} : Except String α → Handler α
  | .ok a => pure a
  | .error message => throw (.relay ⟨502, message⟩)

/-- The class of an error of the network. -/
def upstreamError (message : String) : Failure :=
  .relay ⟨502, if message = "" then "Solana request failed" else message⟩

def upstreamRequest {α : Type} (request : Handler α) : Handler α :=
  tryCatch request fun error => throw (match error with
    | .relay e => .relay e
    | .other message => upstreamError message)

/-- The sponsor's public key, if its secret and the program's interface can be loaded. -/
def getProgram : Option Pubkey → Handler Pubkey
  | some payer => pure payer
  | none => throw (.relay ⟨503, "Relay signer or program configuration is unavailable"⟩)

def explorer (tx : Text) : Json :=
  .string ("https://explorer.solana.com/tx/".toList ++ tx ++ "?cluster=devnet".toList)

def receipt (tx : Text) : List (Text × Json) :=
  [("transaction".toList, .string tx), ("explorer".toList, explorer tx)]

variable (D : Pda) (coder : Coder) (base58 : Pubkey → Text) (keypair : Option Pubkey)

def readContract (contractHashBytes : Bytes 32) (info : Option AccountInfo) :
    Handler (Option Contract) :=
  decodeAccount (readContractAccount coder info contractHashBytes)

def readMultisig (contractPda : Pubkey) (info : Option AccountInfo) :
    Handler (Option MultiSigContract) :=
  decodeAccount (readMultisigAccount coder info contractPda)

def fetchAccount (address : Pubkey) : Handler (Option AccountInfo) :=
  upstreamRequest (getAccountInfo .other address)

def submit (transaction : List Instruction) : Handler Text :=
  upstreamRequest (send .other transaction)

/-- Registers the contract if it was absent, unless somebody else does meanwhile. -/
def registerAbsent (registryPda contractPda payer : Pubkey) (contractHashBytes : Bytes 32)
    (contract : Option Contract) : Handler Unit :=
  if contract.isNone then
    discard (initializeOrReadExisting
      (submit [.registerContract (.of registryPda contractPda payer) contractHashBytes])
      (fetchAccount contractPda) (readContract coder contractHashBytes))
  else pure ()

/-- `POST /sign`. -/
def postSign (body : Option Json) : Handler Response := do
  let (contractHashBytes, proof) ← classified (signRequest body)
  let keyCommitmentBytes := proof.keyCommitment
  let sigCommitmentBytes := proof.signatureCommitment
  let payer ← getProgram keypair
  let (registryPda, _) ← unclassified (findProgramAddressSync D [registrySeed])
  let (contractPda, _) ← unclassified
    (findProgramAddressSync D [contractSeed, contractHashBytes.toList])
  let (signaturePda, _) ← unclassified (findProgramAddressSync D
    [signatureSeed, contractPda.toList, keyCommitmentBytes.toList, sigCommitmentBytes.toList])
  let (signerRecordPda, _) ← unclassified (findProgramAddressSync D
    [Bytes.utf8 "oblivia_signer_record", contractHashBytes.toList, keyCommitmentBytes.toList])
  let contractInfo ← fetchAccount contractPda
  let contract ← readContract coder contractHashBytes contractInfo
  registerAbsent coder registryPda contractPda payer contractHashBytes contract
  let tx ← submit
    [.verifyGroth16V2 (.of registryPda contractPda signaturePda signerRecordPda payer) proof]
  return ⟨200, .object (receipt tx)⟩

section Create

/-- The answer for an agreement that exists. -/
def alreadyExists (multisigPda : Pubkey) : Response :=
  ⟨200, .object
    [("alreadyExists".toList, .bool true), ("multisig".toList, .string (base58 multisigPda))]⟩

/-- The answer for an agreement that this request created. -/
def created (multisigPda : Pubkey) (tx : Text) : Response :=
  ⟨200, .object [("transaction".toList, .string tx),
    ("multisig".toList, .string (base58 multisigPda)), ("explorer".toList, explorer tx)]⟩

/-- Creates the agreement, unless somebody else does meanwhile. -/
def createAgreement (contractPda multisigPda payer : Pubkey) (contractHashBytes : Bytes 32)
    (threshold maxSigners : ℤ) : Handler (Option Text) :=
  initializeOrReadExisting
    (submit [.createMultisig (.of contractPda multisigPda payer) contractHashBytes
      (UInt8.ofNat threshold.toNat) (UInt8.ofNat maxSigners.toNat)])
    (fetchAccount multisigPda)
    fun info => do
      let account ← readMultisig coder contractPda info
      account.elim (pure ()) (assertRequestedConfig · threshold maxSigners)
      return account

/-- `POST /multisig/create`. -/
def postMultisigCreate (body : Option Json) : Handler Response := do
  let ((threshold, maxSigners), contractHashBytes) ← classified (createRequest body)
  let payer ← getProgram keypair
  let (registryPda, _) ← unclassified (findProgramAddressSync D [registrySeed])
  let (contractPda, _) ← unclassified
    (findProgramAddressSync D [contractSeed, contractHashBytes.toList])
  let seeds ← unclassified (multisigSeeds contractHashBytes threshold maxSigners)
  let (multisigPda, _) ← unclassified (findProgramAddressSync D seeds)
  let contractInfo ← fetchAccount contractPda
  let contract ← readContract coder contractHashBytes contractInfo
  let multisigInfo ← fetchAccount multisigPda
  let existing ← readMultisig coder contractPda multisigInfo
  existing.elim (pure ()) (assertRequestedConfig · threshold maxSigners)
  registerAbsent coder registryPda contractPda payer contractHashBytes contract
  if existing.isSome then
    return alreadyExists base58 multisigPda
  else
    match ← createAgreement coder contractPda multisigPda payer contractHashBytes threshold
      maxSigners with
    | none => return alreadyExists base58 multisigPda
    | some tx => return created base58 multisigPda tx

end Create

section Sign

def statusFields (ms : MultiSigContract) : List (Text × Json) :=
  [("collected".toList, .number (.ofNat ms.signaturesCollected.toNat)),
    ("threshold".toList, .number (.ofNat ms.threshold.toNat)),
    ("finalized".toList, .bool ms.finalized)]

/-- The receipt of a signature, with the agreement as it then is. -/
def signAnswer (tx : Text) (ms : MultiSigContract) : Response :=
  ⟨200, .object (receipt tx ++ statusFields ms)⟩

/-- `POST /multisig/sign`. -/
def postMultisigSign (body : Option Json) : Handler Response := do
  let ((threshold, maxSigners), contractHashBytes, proof) ← classified (multisigSignRequest body)
  let keyCommitmentBytes := proof.keyCommitment
  let sigCommitmentBytes := proof.signatureCommitment
  let payer ← getProgram keypair
  let (registryPda, _) ← unclassified (findProgramAddressSync D [registrySeed])
  let (contractPda, _) ← unclassified
    (findProgramAddressSync D [contractSeed, contractHashBytes.toList])
  let (signaturePda, _) ← unclassified (findProgramAddressSync D
    [signatureSeed, contractPda.toList, keyCommitmentBytes.toList, sigCommitmentBytes.toList])
  let seeds ← unclassified (multisigSeeds contractHashBytes threshold maxSigners)
  let (multisigPda, _) ← unclassified (findProgramAddressSync D seeds)
  let (memberPda, _) ← unclassified (findProgramAddressSync D
    [multisigMemberSeed, multisigPda.toList, keyCommitmentBytes.toList])
  let (signerRecord, _) ← unclassified (findProgramAddressSync D
    [Bytes.utf8 "oblivia_signer_record", contractHashBytes.toList, keyCommitmentBytes.toList])
  let verify := .verifyGroth16V2
    (.of registryPda contractPda signaturePda signerRecord payer) proof
  await .other (.request (Rpc.build verify))
  let (signerRecord', _) ← unclassified (findProgramAddressSync D
    [Bytes.utf8 "oblivia_signer_record", contractHashBytes.toList, keyCommitmentBytes.toList])
  let record := .recordVerifiedMultisig
    (.of registryPda contractPda multisigPda signerRecord' signaturePda memberPda payer)
    contractHashBytes keyCommitmentBytes
  await .other (.request (Rpc.build record))
  let tx ← submit [verify, record]
  tryCatch
    (do
      let ms ← await .other (.request (Rpc.fetchMultisig multisigPda))
      return signAnswer tx ms)
    -- the transaction is confirmed even if this read fails
    fun _ => return ⟨200, .object (receipt tx ++ [("statusUnavailable".toList, .bool true)])⟩

end Sign

section Status

/-- `/^\d{1,3}$/` and the number. -/
def parseDecimal (value : Option Text) : Option ℕ :=
  value.bind fun text =>
    if 1 ≤ text.length ∧ text.length ≤ 3 ∧ text.all Char.isDigit then
      some (Numeral.value 10 text)
    else none

/-- The settings in the query string; a parameter is a text if it was given once. -/
def parseStatusConfig (threshold maxSigners : Option Text) : Except RelayError (ℤ × ℤ) :=
  match parseDecimal threshold, parseDecimal maxSigners with
  | some threshold, some maxSigners =>
    match validateMultisigConfig threshold maxSigners with
    | .ok () => .ok (threshold, maxSigners)
    | .error message => .error ⟨400, message⟩
  | _, _ => .error ⟨400, "threshold and maxSigners query parameters are required"⟩

def parseStatusHash (value : Text) : Except RelayError (Bytes 32) :=
  match Json.parse value with
  | some parsed => parseBytes32 (some parsed) "contractHash"
  | none => .error ⟨400, "contractHash must be a JSON-encoded array of exactly 32 bytes"⟩

def statusAnswer : Option MultiSigContract → Response
  | none => ⟨404, .object [("error".toList, .string "Multisig agreement not found".toList),
      ("exists".toList, .bool false)]⟩
  | some ms => ⟨200, .object
      [("collected".toList, .number (.ofNat ms.signaturesCollected.toNat)),
        ("threshold".toList, .number (.ofNat ms.threshold.toNat)),
        ("maxSigners".toList, .number (.ofNat ms.maxSigners.toNat)),
        ("finalized".toList, .bool ms.finalized)]⟩

/-- `GET /multisig/status/:hash`. -/
def getMultisigStatus (hash : Text) (threshold maxSigners : Option Text) : Handler Response := do
  let contractHashBytes ← classified (parseStatusHash hash)
  let (threshold, maxSigners) ← classified (parseStatusConfig threshold maxSigners)
  let (contractPda, _) ← unclassified
    (findProgramAddressSync D [contractSeed, contractHashBytes.toList])
  let seeds ← unclassified (multisigSeeds contractHashBytes threshold maxSigners)
  let (multisigPda, _) ← unclassified (findProgramAddressSync D seeds)
  let info ← fetchAccount multisigPda
  let ms ← readMultisig coder contractPda info
  return statusAnswer ms

end Status

/-- What a handler answers. -/
def respond (handler : Handler Response) : Dialogue Rpc Rpc.Reply Response := do
  match ← handler.run with
  | .ok response => return response
  | .error error => return sendRelayError error

/-- How the middleware before a handler ends: the request is over its rate limit, its `acquire`
rejects, or it goes on to the handler. -/
inductive Passage
  | limited
  | refused (error : AcquireError)
  | passed

/-- A sponsored route: the middleware answers, or the handler does. -/
def sponsored (passage : Passage) (handler : Handler Response) :
    Dialogue Rpc Rpc.Reply Response :=
  match passage with
  | .limited =>
    pure (sendRelayError (.relay ⟨429, "Sponsored signing limit reached; try again later."⟩))
  | .refused error => pure (sendRelayError (.relay (refusal error)))
  | .passed => respond handler

/-- The handler of a sponsored route. -/
def handler : Route → Option Json → Handler Response
  | .sign => postSign D coder keypair
  | .create => postMultisigCreate D coder base58 keypair
  | .multisigSign => postMultisigSign D keypair

section Rules

open Dialogue

variable {σ α : Type} {serve : σ → (q : Rpc) → q.Reply → σ → Prop} {drift : σ → σ → Prop} {s : σ}
  {R : Except Failure α → σ → Prop}

@[simp]
theorem classified_bind {β : Type} {a : α} {f : α → Handler β} :
    classified (.ok a) >>= f = f a := rfl

@[simp]
theorem unclassified_bind {β : Type} {a : α} {f : α → Handler β} :
    unclassified (.ok a) >>= f = f a := rfl

@[simp]
theorem ensures_classified {x : Except RelayError α} :
    Ensures serve drift (classified x).run R s ↔ R (x.mapError .relay) s := by
  cases x <;> exact Iff.rfl

@[simp]
theorem ensures_getProgram {keypair : Option Pubkey} {R : Except Failure Pubkey → σ → Prop} :
    Ensures serve drift (getProgram keypair).run R s ↔ R (match keypair with
      | some payer => .ok payer
      | none => .error (.relay ⟨503, "Relay signer or program configuration is unavailable"⟩))
      s := by
  cases keypair <;> exact Iff.rfl

@[simp]
theorem ensures_unclassified {x : Except String α} :
    Ensures serve drift (unclassified x).run R s ↔ R (x.mapError .other) s := by
  cases x <;> exact Iff.rfl

@[simp]
theorem ensures_decodeAccount {x : Except String α} :
    Ensures serve drift (decodeAccount x).run R s ↔ R (x.mapError fun m => .relay ⟨502, m⟩) s := by
  cases x <;> exact Iff.rfl

/-- What follows a check starts from what the check returns, and an error ends the request. -/
theorem ensures_classified_bind {β : Type} {x : Except RelayError α} {f : α → Handler β}
    {R : Except Failure β → σ → Prop} (hok : ∀ a, x = .ok a → Ensures serve drift (f a).run R s)
    (herror : ∀ e, R (.error (.relay e)) s) : Ensures serve drift (classified x >>= f).run R s := by
  cases x with
  | ok a => exact hok a rfl
  | error e => exact herror e

theorem ensures_unclassified_bind {β : Type} {x : Except String α} {f : α → Handler β}
    {R : Except Failure β → σ → Prop} (hok : ∀ a, x = .ok a → Ensures serve drift (f a).run R s)
    (herror : ∀ m, R (.error (.other m)) s) :
    Ensures serve drift (unclassified x >>= f).run R s := by
  cases x with
  | ok a => exact hok a rfl
  | error m => exact herror m

/-- An upstream request is a request whose error has a class. -/
theorem fetchAccount_eq (address : Pubkey) :
    fetchAccount address = getAccountInfo upstreamError address := by
  have heq : fetchAccount address = ExceptT.mk (ask (.getAccountInfo address) fun r =>
      done (r.mapError upstreamError)) := by
    refine congrArg (ask (Rpc.getAccountInfo address)) (funext fun r => ?_)
    cases r <;> rfl
  exact heq

theorem submit_eq (transaction : List Instruction) :
    submit transaction = send upstreamError transaction := by
  have heq : submit transaction = ExceptT.mk (ask (.send transaction) fun r =>
      done (r.mapError upstreamError)) := by
    refine congrArg (ask (Rpc.send transaction)) (funext fun r => ?_)
    cases r <;> rfl
  exact heq

theorem ensures_fetchAccount {address : Pubkey}
    {R : Except Failure (Option AccountInfo) → σ → Prop} :
    Ensures serve drift (fetchAccount address).run R s ↔
      ∀ s₁, drift s s₁ → ∀ r s₂, serve s₁ (.getAccountInfo address) r s₂ →
        R (r.mapError upstreamError) s₂ := by
  rw [fetchAccount_eq]
  exact ensures_getAccountInfo

theorem ensures_submit {transaction : List Instruction} {R : Except Failure Text → σ → Prop} :
    Ensures serve drift (submit transaction).run R s ↔
      ∀ s₁, drift s s₁ → ∀ r s₂, serve s₁ (.send transaction) r s₂ →
        R (r.mapError upstreamError) s₂ := by
  rw [submit_eq]
  exact ensures_send

/-- The answer to a result, or to what was thrown. -/
def answer : Except Failure Response → Response
  | .ok response => response
  | .error error => sendRelayError error

theorem ensures_respond {x : Handler Response} {R : Response → σ → Prop} :
    Ensures serve drift (respond x) R s ↔
      Ensures serve drift x.run (fun r s => R (answer r) s) s := by
  refine ensures_bind.trans ?_
  constructor <;> intro h <;> refine h.mono fun r s hr => ?_ <;> cases r <;> exact hr

end Rules

end Relay

end Oblivia

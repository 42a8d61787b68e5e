import Oblivia.Relay.AccountReads
import Oblivia.Relay.Submissions
/-!
# The server of the relay

The middleware before and behind the routes: bodies are read before anything else is done, and what
goes wrong before a handler is answered as its own errors are. Whatever is asked and whatever the
network does, the answer is an object that a client accepts exactly if it is a success, an error of
no known class says nothing of what it was, and only successes, conflicts and errors of the network
may come after a transaction (`answers_classified`).
-/

namespace Oblivia

namespace Relay

open Dialogue

/-- What the reading of a request throws, as the error middleware tells it apart. -/
inductive ReadError
  | parseFailed
  | tooLarge
  | charsetUnsupported
  | encodingUnsupported
  | uri
  /-- Another error of a parser, with the status 400. -/
  | malformed
  | other (message : String)

/-- The error middleware. -/
def readFailure : ReadError → Failure
  | .parseFailed => .relay ⟨400, "Request body must contain valid JSON"⟩
  | .tooLarge => .relay ⟨413, "Request body exceeds the 16kb limit"⟩
  | .charsetUnsupported | .encodingUnsupported =>
    .relay ⟨415, "Request body uses an unsupported encoding"⟩
  | .uri => .relay ⟨400, "Request URL is malformed"⟩
  | .malformed => .relay ⟨400, "Request body is malformed"⟩
  | .other message => .other message

def bodyLimit : ℕ := 16 * 1024

/-- `express.json({ limit: '16kb' })`: an object or an array, or nothing as an empty object. -/
def readBody (text : Text) : Except ReadError Json :=
  if bodyLimit < (text.flatMap String.utf8EncodeChar).length then .error .tooLarge
  else if text = [] then .ok (.object [])
  else match Json.parse text with
    | some (.object fields) => .ok (.object fields)
    | some (.array items) => .ok (.array items)
    | _ => .error .parseFailed

/-- A request as it comes to its route, if it does; a body of another type is not read. -/
inductive Request
  | unread (error : ReadError)
  | live
  | health
  | post (route : Route) (body : Option Json)
  | status (hash : Text) (threshold maxSigners : Option Text)

/-- A `POST` with a JSON text. -/
def Request.ofText (route : Route) (text : Text) : Request :=
  match readBody text with
  | .error e => .unread e
  | .ok body => .post route (some body)

section Signer

/-- `/^[0-9a-fA-F]{128}$/`. -/
def IsSecretHex (s : Text) : Prop := s.length = 128 ∧ ∀ c ∈ s, Numeral.digitVal c < 16

instance (s : Text) : Decidable (IsSecretHex s) :=
  have := List.decidableBAll (Numeral.digitVal · < 16) s
  inferInstanceAs (Decidable (_ ∧ _))

variable (fromSecretKey : List UInt8 → Except String Pubkey) (secretHex : Option Text)

def getKeypair : Except String Pubkey :=
  match secretHex with
  | some secretHex =>
    if IsSecretHex secretHex then fromSecretKey (Numeral.hexDecode secretHex)
    else .error "Relay signer is misconfigured"
  | none => .error "Relay signer is misconfigured"

def statusBody (status : String) : Json := .object [("status".toList, .string status.toList)]

/-- `GET /health`. -/
def getHealth : Response :=
  let misconfigured : Response := ⟨503, statusBody "signer misconfigured"⟩
  match secretHex with
  | some secretHex =>
    if IsSecretHex secretHex then
      match fromSecretKey (Numeral.hexDecode secretHex) with
      | .ok _ => ⟨200, statusBody "ready"⟩
      | .error _ => misconfigured
    else misconfigured
  | none => misconfigured

/-- A relay that says it is ready has a signer. -/
theorem getHealth_status : (getHealth fromSecretKey secretHex).status = 200
    ↔ ∃ payer, getKeypair fromSecretKey secretHex = .ok payer := by
  unfold getHealth getKeypair
  rcases secretHex with _ | secretHex
  · simp
  · by_cases hhex : IsSecretHex secretHex
    · rcases hkey : fromSecretKey (Numeral.hexDecode secretHex) with e | payer <;> simp [hhex, hkey]
    · simp [hhex]

end Signer

variable (D : Pda) (coder : Coder) (base58 : Pubkey → Text)
  (fromSecretKey : List UInt8 → Except String Pubkey) (secretHex : Option Text)

/-- The answer to a request. -/
def serve (passage : Passage) : Request → Dialogue Rpc Rpc.Reply Response
  | .unread error => pure (sendRelayError (readFailure error))
  | .live => pure ⟨200, statusBody "Oblivia relay live"⟩
  | .health => pure (getHealth fromSecretKey secretHex)
  | .post route body => sponsored passage
      (handler D coder base58 (getKeypair fromSecretKey secretHex).toOption route body)
  | .status hash threshold maxSigners =>
    respond (getMultisigStatus D coder hash threshold maxSigners)

section Classes

/-- An error that may come after a transaction was sent. -/
inductive Failure.Upstream : Failure → Prop
  | conflict (message : String) : Upstream (.relay ⟨409, message⟩)
  | network (message : String) : Upstream (.relay ⟨502, message⟩)

/-- An error of a handler. -/
inductive Failure.Known : Failure → Prop
  | request (message : String) : Known (.relay ⟨400, message⟩)
  | unavailable (message : String) : Known (.relay ⟨503, message⟩)
  | unclassified (message : String) : Known (.other message)
  | upstream {f : Failure} (h : f.Upstream) : Known f

/-- What an answer says, and what may have been sent before it. -/
structure Classified (h : History) (response : Response) : Prop where
  object : ∃ fields, response.body = .object fields
  known : response.status ∈ [200, 400, 404, 409, 413, 415, 429, 500, 502, 503]
  success : response.status = 200 → response.body.field "error" = none
  unnamed : response.status = 500 →
    response.body = .object [("error".toList, .string "Relay request failed".toList)]
  untouched : response.status ∉ [200, 409, 502] → Quiet h

variable {h : History} {f : Failure} {response : Response}

theorem classified_error {e : RelayError} (hstatus : e.status ∈ [400, 409, 413, 415, 429, 502, 503])
    (hquiet : e.status ∉ [409, 502] → Quiet h) : Classified h (sendRelayError (.relay e)) where
  object := ⟨_, rfl⟩
  known := by
    simp only [List.mem_cons, List.not_mem_nil, or_false] at hstatus ⊢
    show e.status = 200 ∨ _
    tauto
  success h200 := by
    have h200 : e.status = 200 := h200
    rw [h200] at hstatus
    exact absurd hstatus (by decide)
  unnamed h500 := by
    have h500 : e.status = 500 := h500
    rw [h500] at hstatus
    exact absurd hstatus (by decide)
  untouched hno := hquiet fun hmem => hno (List.mem_cons_of_mem 200 hmem)

theorem Failure.Upstream.classified (hf : f.Upstream) : Classified h (sendRelayError f) := by
  cases hf with
  | conflict m => exact classified_error (by simp) (by simp)
  | network m => exact classified_error (by simp) (by simp)

theorem Failure.Known.classified (hf : f.Known) (hq : Quiet h) :
    Classified h (sendRelayError f) := by
  cases hf with
  | request m => exact classified_error (by simp) fun _ => hq
  | unavailable m => exact classified_error (by simp) fun _ => hq
  | unclassified m =>
    exact ⟨⟨_, rfl⟩, by simp [sendRelayError], fun h200 => absurd h200 (by simp [sendRelayError]),
      fun _ => rfl, fun _ => hq⟩
  | upstream hf => exact hf.classified

/-- A success names no error. -/
theorem classified_success {fields : List (Text × Json)}
    (herror : (Json.object fields).field "error" = none) :
    Classified h ⟨200, .object fields⟩ :=
  ⟨⟨fields, rfl⟩, by simp, fun _ => herror, fun h500 => absurd h500 (by simp),
    fun hno => absurd hno (by simp)⟩

end Classes

section Steps

variable {α β : Type} {h : History} {x : Handler α} {f : α → Handler β}

/-- As long as nothing has been sent it sends nothing, and its errors are known. -/
def Early (x : Handler α) : Prop :=
  ∀ h, Quiet h → Ensures noted Eq x.run
    (fun r h => Quiet h ∧ ∀ f, r = .error f → f.Known) h

/-- Its errors are those of the network. -/
def Late (x : Handler α) : Prop :=
  ∀ h, Ensures noted Eq x.run (fun r _ => ∀ f, r = .error f → f.Upstream) h

theorem Late.bind (hx : Late x) (hf : ∀ a, Late (f a)) : Late (x >>= f) := fun h =>
  (hx h).andThen (fun a h _ => hf a h) fun e _ he _ heq => Except.error.inj heq ▸ he e rfl

theorem late_pure (a : α) : Late (pure a : Handler α) := fun _ _ heq => nomatch heq

theorem late_decodeAccount (x : Except String α) : Late (decodeAccount x) := by
  refine fun h => ensures_decodeAccount.2 fun f hf => ?_
  cases x with
  | ok a => cases hf
  | error m =>
    cases hf
    exact .network m

theorem late_fetchAccount (address : Pubkey) : Late (fetchAccount address) := by
  refine fun h => ensures_fetchAccount.2 ?_
  rintro _ rfl r _ rfl f hf
  cases r with
  | ok info => cases hf
  | error m =>
    cases hf
    exact .network _

theorem late_submit (transaction : List Instruction) : Late (submit transaction) := by
  refine fun h => ensures_submit.2 ?_
  rintro _ rfl r _ rfl f hf
  cases r with
  | ok info => cases hf
  | error m =>
    cases hf
    exact .network _

theorem late_compare {existing : Option MultiSigContract} {threshold maxSigners : ℤ} :
    Late (existing.elim (pure ()) (assertRequestedConfig · threshold maxSigners) :
      Handler Unit) := by
  cases existing with
  | none => exact late_pure _
  | some existing =>
    simp only [Option.elim_some]
    unfold assertRequestedConfig
    split
    · exact late_pure _
    · intro h f hf
      cases hf
      exact .conflict _

/-- An initialization fails as its requests do. -/
theorem late_recovery {γ : Type} {transaction : List Instruction} {address : Pubkey}
    {readAccount : Option AccountInfo → Handler (Option γ)}
    (hread : ∀ info, Late (readAccount info)) :
    Late (initializeOrReadExisting (submit transaction) (fetchAccount address) readAccount) := by
  refine fun h => ensures_initializeOrReadExisting (ensures_submit.2 ?_)
  rintro _ rfl r _ rfl
  cases r with
  | ok tx => exact fun f hf => nomatch hf
  | error m =>
    refine (late_fetchAccount address _).mono fun info h hinfo => ?_
    cases info with
    | error e =>
      intro f hf
      cases hf
      exact .network _
    | ok info =>
      refine (hread info h).mono fun account h haccount => ?_
      rcases account with e | _ | account
      · exact fun f hf => haccount f (by simpa using hf)
      · intro f hf
        cases hf
        exact .network _
      · exact fun f hf => nomatch hf

theorem Early.of_late (hx : Late x)
    (hq : ∀ h, Quiet h → Ensures noted Eq x.run (fun _ h => Quiet h) h) : Early x :=
  fun h hquiet => ((hq h hquiet).and (hx h)).mono fun _ _ hr => ⟨hr.1, fun f hf =>
    .upstream (hr.2 f hf)⟩

theorem early_classified {x : Except RelayError α} (hx : Checks x) : Early (classified x) := by
  refine fun h hq => ensures_classified.2 ⟨hq, fun f hf => ?_⟩
  rcases x with ⟨status, m⟩ | a
  · cases hf
    obtain rfl : status = 400 := hx _ rfl
    exact .request m
  · cases hf

theorem early_unclassified (x : Except String α) : Early (unclassified x) := by
  refine fun h hq => ensures_unclassified.2 ⟨hq, fun f hf => ?_⟩
  rcases x with m | a
  · cases hf
    exact .unclassified m
  · cases hf

theorem early_getProgram (keypair : Option Pubkey) : Early (getProgram keypair) := by
  refine fun h hq => ensures_getProgram.2 ⟨hq, fun f hf => ?_⟩
  rcases keypair with _ | payer
  · cases hf
    exact .unavailable _
  · cases hf

theorem early_fetchAccount (address : Pubkey) : Early (fetchAccount address) :=
  .of_late (late_fetchAccount address) fun _ => quiet_fetchAccount

theorem early_decodeAccount (x : Except String α) : Early (decodeAccount x) :=
  .of_late (late_decodeAccount x) fun _ hq => ensures_decodeAccount.2 hq

theorem early_compare {existing : Option MultiSigContract} {threshold maxSigners : ℤ} :
    Early (existing.elim (pure ()) (assertRequestedConfig · threshold maxSigners) :
      Handler Unit) :=
  .of_late late_compare fun _ hq => (leaves_compare hq).mono fun _ _ hr => hr.1

theorem early_build (ix : Instruction) :
    Early (await Failure.other (.request (Rpc.build ix)) : Handler Unit) := by
  rintro h hq _ rfl r _ rfl
  refine ⟨untouched_quiet r rfl hq, fun f hf => ?_⟩
  rcases r with m | _
  · cases hf
    exact .unclassified m
  · cases hf

end Steps

section Handlers

variable {α : Type} {h : History}

/-- The answer of a handler is classified. -/
abbrev Answers (x : Handler Response) (h : History) : Prop :=
  Ensures noted Eq x.run (fun r h => Classified h (answer r)) h

theorem Early.answers {x : Handler α} {f : α → Handler Response} (hx : Early x) (hq : Quiet h)
    (hf : ∀ a h, Quiet h → Answers (f a) h) : Answers (x >>= f) h :=
  (hx h hq).andThen (fun a h ha => hf a h ha.1) fun e _ he => (he.2 e rfl).classified he.1

theorem Late.answers {x : Handler α} {f : α → Handler Response} (hx : Late x)
    (hf : ∀ a h, Answers (f a) h) : Answers (x >>= f) h :=
  (hx h).andThen (fun a h _ => hf a h) fun e _ he => (he e rfl).classified

variable {D : Pda} {coder : Coder} {base58 : Pubkey → Text} {keypair : Option Pubkey}
  {body : Option Json}

theorem late_registerAbsent {registryPda contractPda payer : Pubkey} {contractHash : Bytes 32}
    {contract : Option Contract} :
    Late (registerAbsent coder registryPda contractPda payer contractHash contract) := by
  unfold registerAbsent
  split_ifs
  · exact Late.bind (late_recovery fun info => late_decodeAccount _) fun _ => late_pure _
  · exact late_pure _

theorem answers_postSign (hq : Quiet h) : Answers (postSign D coder keypair body) h := by
  unfold postSign
  refine (early_classified (checks_signRequest body)).answers hq fun ⟨hash, proof⟩ h hq => ?_
  refine (early_getProgram keypair).answers hq fun payer h hq => ?_
  refine (early_unclassified _).answers hq fun ⟨registryPda, _⟩ h hq => ?_
  refine (early_unclassified _).answers hq fun ⟨contractPda, _⟩ h hq => ?_
  refine (early_unclassified _).answers hq fun ⟨signaturePda, _⟩ h hq => ?_
  refine (early_unclassified _).answers hq fun ⟨signerRecordPda, _⟩ h hq => ?_
  refine (early_fetchAccount _).answers hq fun info h hq => ?_
  refine (early_decodeAccount _).answers hq fun contract h hq => ?_
  refine late_registerAbsent.answers fun _ h => ?_
  exact (late_submit _).answers fun tx h => classified_success rfl

theorem late_createAgreement {contractPda multisigPda payer : Pubkey} {contractHash : Bytes 32}
    {threshold maxSigners : ℤ} : Late (createAgreement coder contractPda multisigPda payer
      contractHash threshold maxSigners) := by
  unfold createAgreement
  refine late_recovery fun info => (late_decodeAccount _).bind fun account => ?_
  exact late_compare.bind fun _ => late_pure _

theorem checks_createRequest (body : Option Json) : Checks (createRequest body) := by
  unfold createRequest
  refine (checks_validateRequestBody body).bind fun body => ?_
  refine (checks_validateRequestConfig _ _).bind fun config => ?_
  exact (checks_parseByteArray _ _ _).bind fun hash => checks_ok

theorem answers_postMultisigCreate (hq : Quiet h) :
    Answers (postMultisigCreate D coder base58 keypair body) h := by
  unfold postMultisigCreate
  refine (early_classified (checks_createRequest body)).answers hq
    fun ⟨⟨threshold, maxSigners⟩, hash⟩ h hq => ?_
  refine (early_getProgram keypair).answers hq fun payer h hq => ?_
  refine (early_unclassified _).answers hq fun ⟨registryPda, _⟩ h hq => ?_
  refine (early_unclassified _).answers hq fun ⟨contractPda, _⟩ h hq => ?_
  refine (early_unclassified _).answers hq fun seeds h hq => ?_
  refine (early_unclassified _).answers hq fun ⟨multisigPda, _⟩ h hq => ?_
  refine (early_fetchAccount _).answers hq fun contractInfo h hq => ?_
  refine (early_decodeAccount _).answers hq fun contract h hq => ?_
  refine (early_fetchAccount _).answers hq fun multisigInfo h hq => ?_
  refine (early_decodeAccount _).answers hq fun existing h hq => ?_
  refine early_compare.answers hq fun _ h hq => ?_
  refine late_registerAbsent.answers fun _ h => ?_
  split
  · exact classified_success rfl
  · refine late_createAgreement.answers fun tx h => ?_
    cases tx with
    | none => exact classified_success rfl
    | some tx => exact classified_success rfl

theorem answers_postMultisigSign (hq : Quiet h) :
    Answers (postMultisigSign D keypair body) h := by
  unfold postMultisigSign
  refine (early_classified (checks_multisigSignRequest body)).answers hq
    fun ⟨⟨threshold, maxSigners⟩, hash, proof⟩ h hq => ?_
  refine (early_getProgram keypair).answers hq fun payer h hq => ?_
  refine (early_unclassified _).answers hq fun ⟨registryPda, _⟩ h hq => ?_
  refine (early_unclassified _).answers hq fun ⟨contractPda, _⟩ h hq => ?_
  refine (early_unclassified _).answers hq fun ⟨signaturePda, _⟩ h hq => ?_
  refine (early_unclassified _).answers hq fun seeds h hq => ?_
  refine (early_unclassified _).answers hq fun ⟨multisigPda, _⟩ h hq => ?_
  refine (early_unclassified _).answers hq fun ⟨memberPda, _⟩ h hq => ?_
  refine (early_unclassified _).answers hq fun ⟨signerRecord, _⟩ h hq => ?_
  refine (early_build _).answers hq fun _ h hq => ?_
  refine (early_unclassified _).answers hq fun ⟨signerRecord', _⟩ h hq => ?_
  refine (early_build _).answers hq fun _ h hq => ?_
  refine (late_submit _).answers fun tx h => ?_
  -- a receipt is sent whether or not the agreement can be read
  show Ensures _ _ (ExceptT.run (tryCatch _ _)) _ _
  rw [ensures_tryCatch]
  refine Ensures.andThen (P := fun _ _ => True) (fun s₁ h₁ r s₂ h₂ => trivial)
    (fun ms h _ => classified_success rfl) fun e h _ => classified_success rfl

theorem answers_getMultisigStatus {hash : Text} {threshold maxSigners : Option Text}
    (hq : Quiet h) : Answers (getMultisigStatus D coder hash threshold maxSigners) h := by
  unfold getMultisigStatus
  refine (early_classified checks_parseStatusHash).answers hq fun hash h hq => ?_
  refine (early_classified checks_parseStatusConfig).answers hq fun ⟨t, n⟩ h hq => ?_
  refine (early_unclassified _).answers hq fun ⟨contractPda, _⟩ h hq => ?_
  refine (early_unclassified _).answers hq fun seeds h hq => ?_
  refine (early_unclassified _).answers hq fun ⟨multisigPda, _⟩ h hq => ?_
  refine (early_fetchAccount _).answers hq fun info h hq => ?_
  refine (early_decodeAccount _).answers hq fun ms h hq => ?_
  cases ms with
  | none => exact ⟨⟨_, rfl⟩, by simp [answer, statusAnswer], by simp [answer, statusAnswer],
      by simp [answer, statusAnswer], fun _ => hq⟩
  | some ms => exact classified_success rfl

end Handlers

section Answers

variable {D : Pda} {coder : Coder} {base58 : Pubkey → Text}
  {fromSecretKey : List UInt8 → Except String Pubkey} {secretHex : Option Text} {h : History}

theorem classified_readFailure (error : ReadError) (hq : Quiet h) :
    Classified h (sendRelayError (readFailure error)) := by
  cases error with
  | other m => exact (Failure.Known.unclassified m).classified hq
  | _ => exact classified_error (by simp) fun _ => hq

theorem classified_getHealth (hq : Quiet h) :
    Classified h (getHealth fromSecretKey secretHex) := by
  have hready : Classified h ⟨200, statusBody "ready"⟩ := classified_success rfl
  have hmisconfigured : Classified h ⟨503, statusBody "signer misconfigured"⟩ :=
    ⟨⟨_, rfl⟩, by simp, by simp, by simp, fun _ => hq⟩
  unfold getHealth
  split
  · split_ifs
    · split
      · exact hready
      · exact hmisconfigured
    · exact hmisconfigured
  · exact hmisconfigured

theorem classified_refusal (error : AcquireError) (hq : Quiet h) :
    Classified h (sendRelayError (.relay (refusal error))) := by
  refine classified_error ?_ fun _ => hq
  cases error <;> simp [refusal]

theorem ensures_serve (passage : Passage) (request : Request) :
    Ensures noted Eq (serve D coder base58 fromSecretKey secretHex passage request)
      (fun response h => Classified h response) [] := by
  have hq : Quiet [] := rfl
  cases request with
  | unread error => exact classified_readFailure error hq
  | live => exact classified_success rfl
  | health => exact classified_getHealth hq
  | status hash threshold maxSigners => exact ensures_respond.2 (answers_getMultisigStatus hq)
  | post route body =>
    cases passage with
    | limited => exact classified_error (by simp) fun _ => hq
    | refused error => exact classified_refusal error hq
    | passed =>
      refine ensures_respond.2 ?_
      cases route with
      | sign => exact answers_postSign hq
      | create => exact answers_postMultisigCreate hq
      | multisigSign => exact answers_postMultisigSign hq

/-- A client takes an answer exactly if it is a success. -/
theorem Classified.accepted {response : Response} (hc : Classified h response) :
    (∃ data, MultisigPage.relayResponse response.status response.body.stringify = .ok data)
      ↔ response.status = 200 := by
  obtain ⟨fields, hbody⟩ := hc.object
  simp only [MultisigPage.relayResponse, Json.parse_stringify, hbody]
  constructor
  · rintro ⟨data, hdata⟩
    split_ifs at hdata with hok
    have hle := hok.1
    have hknown := hc.known
    simp only [isOk, Bool.and_eq_true, decide_eq_true_eq] at hle
    simp only [List.mem_cons, List.not_mem_nil, or_false] at hknown
    omega
  · intro h200
    have herror := hc.success h200
    rw [hbody] at herror
    exact ⟨_, if_pos ⟨by simp [isOk, h200], by rw [herror]; rfl⟩⟩

/-- Whatever is asked, however the middleware passes it on and whatever the network answers: the
answer has one of ten statuses and is accepted exactly if it is a success; one of no known class
says nothing of the error; and a transaction may have been sent only before a success, a conflict or
an error of the network. -/
theorem answers_classified (passage : Passage) (request : Request) {t : History}
    {response : Response}
    (hf : Follows (serve D coder base58 fromSecretKey secretHex passage request) t
      (.done response)) :
    response.status ∈ [200, 400, 404, 409, 413, 415, 429, 500, 502, 503]
      ∧ ((∃ data, MultisigPage.relayResponse response.status response.body.stringify = .ok data)
        ↔ response.status = 200)
      ∧ (response.status = 500 → response.body
        = .object [("error".toList, .string "Relay request failed".toList)])
      ∧ (response.status ∉ [200, 409, 502] → ∀ e ∈ t, isSend e.1 = false) := by
  have hc : Classified t response := (ensures_serve passage request).of_follows hf
  refine ⟨hc.known, hc.accepted, hc.unnamed, fun hno e he => ?_⟩
  have hquiet := hc.untouched hno
  unfold Quiet count at hquiet
  rw [List.countP_eq_zero] at hquiet
  exact Bool.eq_false_iff.2 (hquiet _ (List.mem_map_of_mem he))

/-- The sample's creation, with a sponsor whose secret cannot be read: nothing is sent. -/
theorem answers_classified_sample : ∃ response : Response, response.status = 503
    ∧ ¬ (∃ data, MultisigPage.relayResponse response.status response.body.stringify = .ok data)
    ∧ ∀ e ∈ ([] : History), isSend e.1 = false := by
  have hf : Follows (serve samplePda idlCoder toBase58 (fun _ => .error "bad secret key size") none
      .passed (.post .create (some sampleBody))) []
      (.done ⟨503, .object [("error".toList,
        .string "Relay signer or program configuration is unavailable".toList)]⟩) := by
    have hreq : createRequest (some sampleBody) = .ok ((2, 3), sampleHash) := by decide +kernel
    have hdone : serve samplePda idlCoder toBase58 (fun _ => .error "bad secret key size") none
        .passed (.post .create (some sampleBody)) = .done ⟨503, .object [("error".toList,
        .string "Relay signer or program configuration is unavailable".toList)]⟩ := by
      simp only [serve, sponsored, handler, postMultisigCreate, hreq]
      rfl
    rw [hdone]
    exact .refl _
  obtain ⟨-, haccepted, -, huntouched⟩ := answers_classified _ _ hf
  exact ⟨_, rfl, fun h => absurd (haccepted.1 h) (by decide), huntouched (by decide)⟩

end Answers

end Relay

end Oblivia

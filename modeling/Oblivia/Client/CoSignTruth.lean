import Oblivia.Client.CoSignReceipts
import Oblivia.Client.CoSignService
/-!
# The co-signing page tells the truth

What the page displays is what the chain holds. Every text of the page that counts signatures, says
that the agreement is final or links a transaction comes from an answer that the page has accepted,
and accepted answers of the relay vouch for the chain. So whatever is clicked, however the page, the
relay and the network are interleaved and whatever is lost between them, as many keys as are
displayed have co-signed, each with a receipt of a proof that the verifier accepted for the hash of
the text that is shown (`display_true`).
-/

namespace Oblivia

namespace MultisigPage

open Async Dialogue

section Texts

/-- A text that no status is displayed as. -/
def Notice (text : String) : Prop := ∀ status : AgreementStatus, status.Valid 0 → text ≠ status.text

/-- Digits in front of a space are told from what follows. -/
theorem digits_append_inj {l l' r r' : Text} (hl : ∀ c ∈ l, c.isDigit = true)
    (hl' : ∀ c ∈ l', c.isDigit = true) (h : l ++ ' ' :: r = l' ++ ' ' :: r') : l = l' ∧ r = r' := by
  have htake {l r : Text} (hl : ∀ c ∈ l, c.isDigit = true) :
      (l ++ ' ' :: r).takeWhile Char.isDigit = l := by
    rw [List.takeWhile_append_of_pos hl]
    simp
  have hll : l = l' := by rw [← htake (r := r) hl, h, htake hl']
  subst hll
  simpa using List.append_cancel_left h

/-- A status as the page writes it. -/
theorem text_toList {c t : ℕ} {finalized : Bool} : (AgreementStatus.mk c t finalized).text.toList
    = Nat.toDigits 10 c ++ ' ' :: ("of ".toList ++ (Nat.toDigits 10 t ++ ' ' :: ("signed".toList
      ++ (if finalized then " — FINALIZED ✓" else "").toList))) := by
  have hdigits (k : ℕ) : (k : ℤ).repr.toList = Nat.toDigits 10 k := by
    show (Nat.repr k).toList = _
    simp [Nat.repr]
  simp [AgreementStatus.text, hdigits]

theorem AgreementStatus.Valid.eq_cast {status : AgreementStatus} (h : status.Valid 0) :
    ∃ c t : ℕ, status = ⟨c, t, decide (t ≤ c)⟩ := by
  obtain ⟨collected, threshold, finalized⟩ := status
  obtain ⟨c, rfl⟩ := Int.eq_ofNat_of_zero_le h.minimum
  obtain ⟨t, rfl⟩ := Int.eq_ofNat_of_zero_le (le_trans zero_le_one h.positive)
  have hfinal : finalized = decide ((t : ℤ) ≤ c) := h.finalized
  exact ⟨c, t, by simp [hfinal]⟩

/-- The text of a status tells its counters. -/
theorem text_injective {status status' : AgreementStatus} (h : status.Valid 0)
    (h' : status'.Valid 0) (heq : status.text = status'.text) : status = status' := by
  obtain ⟨c, t, rfl⟩ := h.eq_cast
  obtain ⟨c', t', rfl⟩ := h'.eq_cast
  have hlist := congrArg String.toList heq
  rw [text_toList, text_toList] at hlist
  obtain ⟨hc, hrest⟩ := digits_append_inj Json.isDigit_toDigits Json.isDigit_toDigits hlist
  obtain ⟨ht, -⟩ := digits_append_inj Json.isDigit_toDigits Json.isDigit_toDigits
    (List.append_cancel_left hrest)
  have hvalue {k k' : ℕ} (hk : Nat.toDigits 10 k = Nat.toDigits 10 k') : k = k' := by
    rw [← Numeral.value_toDigits (b := 10) (by norm_num) (by norm_num) k, hk,
      Numeral.value_toDigits (by norm_num) (by norm_num)]
  rw [hvalue hc, hvalue ht]

/-- What starts with no digit is no status. -/
theorem notice_of_head {text : String} (h : text.toList.head?.any Char.isDigit = false) :
    Notice text := by
  rintro status hvalid rfl
  obtain ⟨c, t, rfl⟩ := hvalid.eq_cast
  rw [text_toList] at h
  rcases hd : Nat.toDigits 10 c with _ | ⟨d, l⟩
  · exact Nat.toDigits_ne_nil hd
  · have hdigit := Json.isDigit_toDigits (n := c) d (by simp [hd])
    rw [hd] at h
    exact Bool.noConfusion (hdigit.symm.trans h)

end Texts

/-- What the page shows of a signature that was confirmed. -/
def signedLabels : List String :=
  ["Signed ✓ — check transaction for status", "Signed ✓ — you have co-signed"]

/-- What is displayed is known: a status to be so, of which `known` is said, and a transaction,
which is a `receipt`. -/
structure Truthful (known : AgreementStatus → Prop) (receipt : Text → Prop) (p : Page) : Prop where
  final : ∀ status, p.finalizedStatus = some status →
    status.Valid 0 ∧ status.finalized = true ∧ known status
  progress : ∀ status, status.Valid 0 → p.progress = status.text → known status
  link : ∀ transaction, p.txLink = some transaction → receipt transaction
  signed : p.scanBtn.textContent ∈ signedLabels → p.txLink.isSome = true
  closed : p.scanBtn.textContent = "Agreement Finalized" → p.finalizedStatus.isSome = true

/-- An answer that the page accepts makes its status known and its transaction a receipt. -/
def Fair (known : AgreementStatus → Prop) (receipt : Text → Prop) : Turn Wait Wait.Answer → Prop
  | ⟨.getStatus _, answer⟩ => ∀ data status, received answer = .ok data →
    validateStatus data 0 = .ok status → known status
  | ⟨.postSign _, answer⟩ => ∀ data transaction, received answer = .ok data →
    validateTransaction (data.field "transaction") = .ok transaction → receipt transaction
      ∧ (isBool true (data.field "statusUnavailable") = false → ∀ status,
        validateStatus data 1 = .ok status → known status)
  | _ => True

section Writes

variable {known : AgreementStatus → Prop} {receipt : Text → Prop} {p : Page}
  {status : AgreementStatus}

/-- A write that says nothing of the agreement. -/
theorem Truthful.notice (h : Truthful known receipt p) {text : String} (htext : Notice text) :
    Truthful known receipt { p with progress := text } :=
  { h with progress := fun status hvalid heq => absurd heq (htext status hvalid) }

theorem Truthful.label (h : Truthful known receipt p) {text : String}
    (hsigned : text ∈ signedLabels → p.txLink.isSome = true)
    (hclosed : text ≠ "Agreement Finalized") : Truthful known receipt (p.label text) :=
  { h with signed := hsigned, closed := fun heq => absurd heq hclosed }

theorem Truthful.disable (h : Truthful known receipt p) {disabled : Bool} :
    Truthful known receipt (p.disable disabled) :=
  { h with }

theorem Truthful.showTransaction (h : Truthful known receipt p) {transaction : Text}
    (htx : receipt transaction) : Truthful known receipt (showTransaction transaction p) :=
  { h with
    link := fun _ heq => Option.some.inj heq ▸ htx
    signed := fun _ => rfl }

/-- A status that is known is rendered, or the one that is known to be final. -/
theorem Truthful.render (h : Truthful known receipt p) (hvalid : status.Valid 0)
    (hknown : known status) : Truthful known receipt (renderStatus status p) := by
  have hfinal : ∀ final, p.finalizes status = some final →
      final.Valid 0 ∧ final.finalized = true ∧ known final := by
    intro final heq
    unfold Page.finalizes at heq
    split_ifs at heq with hnew
    · obtain rfl := Option.some.inj heq
      exact ⟨hvalid, hnew.1, hknown⟩
    · exact h.final final heq
  have hshown : ((p.finalizes status).getD status).Valid 0
      ∧ known ((p.finalizes status).getD status) := by
    rcases hp : p.finalizes status with _ | final
    · exact ⟨hvalid, hknown⟩
    · exact ⟨(hfinal final hp).1, (hfinal final hp).2.2⟩
  have hprogress : ∀ other : AgreementStatus, other.Valid 0 →
      ((p.finalizes status).getD status).text = other.text → known other :=
    fun other hother heq => text_injective hshown.1 hother heq ▸ hshown.2
  unfold renderStatus
  simp only []
  split_ifs with hclosed
  · refine ⟨hfinal, hprogress, h.link, fun hmem => ?_, fun _ => ?_⟩
    · simp [signedLabels] at hmem
    · rcases hp : p.finalizes status with _ | final
      · simp only [hp, Option.getD_none] at hclosed
        have := isSome_finalizes (p := p) hclosed
        simp [hp] at this
      · rfl
  · refine ⟨hfinal, hprogress, h.link, h.signed, fun hlabel => ?_⟩
    obtain ⟨final, hp⟩ := Option.isSome_iff_exists.1 (h.closed hlabel)
    simp [Page.finalizes, hp]

/-- The status that is known to be final is rendered again. -/
theorem Truthful.renderFinal (h : Truthful known receipt p) (hp : p.finalizedStatus = some status) :
    Truthful known receipt (renderStatus status p) :=
  h.render (h.final status hp).1 (h.final status hp).2.2

/-- Other variables and elements. -/
theorem Truthful.other {p' : Page} (h : Truthful known receipt p)
    (hfinal : p'.finalizedStatus = p.finalizedStatus) (hprogress : p'.progress = p.progress)
    (hlink : p'.txLink = p.txLink) (hbtn : p'.scanBtn = p.scanBtn) :
    Truthful known receipt p' := by
  obtain ⟨h₁, h₂, h₃, h₄, h₅⟩ := h
  constructor
  · rwa [hfinal]
  · rwa [hprogress]
  · rwa [hlink]
  · rwa [hbtn, hlink]
  · rwa [hbtn, hfinal]

end Writes

section Sections

variable (sha256 : List UInt8 → Bytes 32) (contract : List UInt8) (config : ℕ × ℕ)

/-- The page is of this agreement. -/
def At (p : Page) : Prop := p.currentContract = contract ∧ p.currentConfig = some config

/-- The page submits proofs for this agreement. -/
def Posts (body : Text) : Prop :=
  ∃ payload, body = (requestBody (hashContract sha256 contract) config.1 config.2 payload).stringify

/-- The section, which began with `o`, has displayed what is known, if its answer was fair. -/
structure Told (o : Turn Wait Wait.Answer × Page) (p : Page) : Prop where
  page : At contract config p
  fair : ∀ {known receipt}, Fair known receipt o.1 → Truthful known receipt o.2 →
    Truthful known receipt p

/-- A section, up to what its function waits for next. -/
structure Tells (e : Turn Wait Wait.Answer) (p : Page) (q : Option Wait) (p' : Page) : Prop where
  told : Told contract config (e, p) p'
  posts : ∀ body, q = some (.postSign body) → Posts sha256 contract config body

/-- Every section of the function displays what is known. -/
abbrev TellsTruth {ε α : Type} (x : Task ε α) : Prop :=
  Keeping (fun _ p => At contract config p) (Tells sha256 contract config) (Told contract config) x

variable {sha256 contract config} {o : Turn Wait Wait.Answer × Page} {p p' : Page}
  {status : AgreementStatus}

theorem Told.tells {q : Option Wait} (h : Told contract config o p)
    (hq : ∀ body, q ≠ some (.postSign body)) : Tells sha256 contract config o.1 o.2 q p :=
  ⟨h, fun body heq => absurd heq (hq body)⟩

/-- A write that displays what is known. -/
theorem Told.write (h : Told contract config o p)
    (hat : At contract config p → At contract config p')
    (hp : ∀ {known receipt}, Fair known receipt o.1 → Truthful known receipt p →
      Truthful known receipt p') : Told contract config o p' :=
  ⟨hat h.page, fun hfair ho => hp hfair (h.fair hfair ho)⟩

theorem Told.render (h : Told contract config o p) (hvalid : status.Valid 0)
    (hknown : ∀ {known receipt}, Fair known receipt o.1 → known status) :
    Told contract config o (renderStatus status p) := by
  refine h.write (fun hat => ?_) fun {_ receipt} hfair hp =>
    hp.render hvalid (@hknown _ receipt hfair)
  unfold renderStatus At
  simp only []
  split_ifs <;> exact hat

theorem Told.renderFinal (h : Told contract config o p) (hp : p.finalizedStatus = some status) :
    Told contract config o (renderStatus status p) := by
  refine h.write (fun hat => ?_) fun _ htrue => htrue.renderFinal hp
  unfold renderStatus At
  simp only []
  split_ifs <;> exact hat

theorem Told.notice (h : Told contract config o p) {text : String} (htext : Notice text) :
    Told contract config o { p with progress := text } :=
  h.write id fun _ htrue => htrue.notice htext

theorem Told.disable (h : Told contract config o p) {disabled : Bool} :
    Told contract config o (p.disable disabled) :=
  h.write id fun _ htrue => htrue.disable

/-- Other variables and elements. -/
theorem Told.other (h : Told contract config o p)
    (hat : At contract config p → At contract config p')
    (hfinal : p'.finalizedStatus = p.finalizedStatus) (hprogress : p'.progress = p.progress)
    (hlink : p'.txLink = p.txLink) (hbtn : p'.scanBtn = p.scanBtn) : Told contract config o p' :=
  h.write hat fun _ htrue => htrue.other hfinal hprogress hlink hbtn

end Sections

section Handlers

variable {sha256 : List UInt8 → Bytes 32} {clock : ℕ → Text} {contract : List UInt8}
  {config : ℕ × ℕ} {domain : Except String (Option Text)} {create : Bool}
  {o : Turn Wait Wait.Answer × Page} {p : Page}

/-- A wait for something else than the relay. -/
theorem tells_receive {ε : Type} {q : Wait} (hq : ∀ body, q ≠ .postSign body) :
    TellsTruth sha256 contract config (receive q : Task ε q.Answer) :=
  keeping_receive (fun _ _ h => h.tells fun body heq => hq body (Option.some.inj heq))
    fun _ _ hp => ⟨hp, fun _ htrue => htrue⟩

theorem tells_modify {ε : Type} {f : Page → Page}
    (hf : ∀ o p, Told contract config o p → Told contract config o (f p)) :
    TellsTruth sha256 contract config (modify f : Task ε Unit) :=
  keeping_modify hf

theorem tells_statusFailed (revision : ℕ) :
    TellsTruth sha256 contract config (statusFailed revision) := by
  unfold statusFailed
  refine keeping_get.bind fun p => Keeping.ite keeping_pure (tells_modify fun o p h => ?_)
  split
  · rename_i final hfinal
    exact h.renderFinal hfinal
  · exact h.notice (notice_of_head (by decide))

theorem tells_tryStatus (revision : ℕ) :
    TellsTruth sha256 contract config (tryStatus revision) := by
  unfold tryStatus
  refine keeping_get_bind fun o p h => ?_
  split_ifs
  · exact h
  refine meets_receive_bind.2 ⟨h.tells (by simp), fun ⟨answer, p⟩ hp => ?_⟩
  have htold : Told contract config (⟨.getStatus revision, answer⟩, p) p :=
    ⟨hp, fun _ htrue => htrue⟩
  refine meets_attempt_bind.2 ?_
  rcases hs : received answer with e | s
  · exact htold
  refine meets_get_bind.2 ?_
  split_ifs
  · exact htold
  · exact htold
  refine meets_attempt_bind.2 ?_
  rcases hv : validateStatus s 0 with e | status
  · exact htold
  · exact htold.render (valid_of_validateStatus hv) fun hfair => hfair s status hs hv

theorem tells_refreshStatus : TellsTruth sha256 contract config refreshStatus := by
  unfold refreshStatus
  refine Keeping.bind (tells_modify fun o p h => h.other id rfl rfl rfl rfl) fun _ => ?_
  exact keeping_get.bind fun p => Keeping.catching (tells_tryStatus _) fun _ => tells_statusFailed _

theorem Told.statusUnavailable (h : Told contract config o p) (hlink : p.txLink.isSome = true) :
    Told contract config o (statusUnavailable p) := by
  unfold MultisigPage.statusUnavailable
  split
  · exact h
  · have hnotice : Told contract config o
        { p with progress := "Signature confirmed — threshold status unavailable" } :=
      h.notice (notice_of_head (by decide))
    exact hnotice.write id fun _ htrue => htrue.label (fun _ => hlink) (by decide)

/-- What follows an answer to a submission. -/
theorem tells_takeAnswer {l : Locals} {body : Text} {answer : RelayAnswer}
    (hp : At contract config p) :
    Meets (fun _ p => At contract config p) (Tells sha256 contract config) (takeAnswer l answer)
      (fun o _ p => Told contract config o p) (⟨.postSign body, answer⟩, p) p := by
  have htold : Told contract config (⟨.postSign body, answer⟩, p) p := ⟨hp, fun _ htrue => htrue⟩
  unfold takeAnswer
  refine meets_attempt_bind.2 ?_
  rcases hdata : received answer with e | data
  · exact htold
  refine meets_attempt_bind.2 ?_
  rcases htx : validateTransaction (data.field "transaction") with e | transaction
  · exact htold
  -- from here on the receipt is displayed
  have hnext : Told contract config (⟨.postSign body, answer⟩, p)
      { p with statusRevision := p.statusRevision + 1 } :=
    htold.other id rfl rfl rfl rfl
  have hshown : Told contract config (⟨.postSign body, answer⟩, p)
      (showTransaction transaction { p with statusRevision := p.statusRevision + 1 }) :=
    hnext.write id fun hfair htrue => htrue.showTransaction (hfair data transaction hdata htx).1
  refine meets_modify_bind.2 ?_
  split_ifs with hread
  · exact hshown.statusUnavailable rfl
  refine meets_attempt_bind.2 ?_
  rcases hv : validateStatus data 1 with e | status
  · exact hshown
  have hrendered : Told contract config (⟨.postSign body, answer⟩, p) (renderStatus status
      (showTransaction transaction { p with statusRevision := p.statusRevision + 1 })) :=
    hshown.render ((valid_of_validateStatus hv).mono (by decide)) fun hfair =>
      (hfair data transaction hdata htx).2 (by simpa using hread) status hv
  refine meets_modify_bind.2 (meets_get_bind.2 ?_)
  split_ifs
  · refine hrendered.write id fun _ htrue => htrue.label (fun _ => ?_) (by decide)
    rw [renderStatus_txLink]
    rfl
  · exact hrendered

theorem tells_trySign : TellsTruth sha256 contract config (trySign sha256 clock config) := by
  unfold trySign
  refine keeping_get_bind fun o p h => meets_attempt_bind.2 ?_
  rcases hb : buildInput sha256 clock p with e | p'
  · exact h
  have hp' : Told contract config o p' := by
    obtain ⟨inputs, readings, rfl⟩ := buildInput_eq_ok hb
    exact h.other id rfl rfl rfl rfl
  refine meets_set_bind.2 (Keeping.bind (tells_receive (by simp)) (fun answer => ?_) o p' hp')
  refine keeping_attempt.bind fun ⟨proof, publicSignals⟩ => keeping_get_bind fun o p h => ?_
  split_ifs
  · exact h
  refine meets_attempt_bind.2 ?_
  rcases grothPayload proof publicSignals with e | payload
  · exact h
  refine meets_get_bind.2 (meets_receive_bind.2
    ⟨⟨h, fun body hbody => ⟨payload, ?_⟩⟩, fun r hr => ?_⟩)
  · obtain rfl := Wait.postSign.inj (Option.some.inj hbody)
    rw [h.page.1]
  · exact tells_takeAnswer hr

theorem Told.signFailed {l : Locals} (h : Told contract config o p) :
    Told contract config o (signFailed l p) := by
  unfold MultisigPage.signFailed
  split
  · rename_i final hfinal
    exact h.renderFinal hfinal
  · split_ifs
    · have hnotice : Told contract config o { p with
          progress := "Transaction receipt received — agreement status unavailable" } :=
        h.notice (notice_of_head (by decide))
      refine hnotice.write id fun _ htrue => htrue.label (fun hmem => ?_) (by decide)
      simp [signedLabels] at hmem
    · exact h.notice (notice_of_head (by decide))
    · exact h

theorem Told.signDone {l : Locals} (h : Told contract config o p) :
    Told contract config o (signDone l p) := by
  have hp : Told contract config o
      { p with toSignerMemory := p.release l.input, signingInProgress := false } :=
    h.other id rfl rfl rfl rfl
  unfold MultisigPage.signDone
  simp only []
  split
  · rename_i final hfinal
    exact hp.renderFinal hfinal
  · exact hp.disable

theorem tells_doSign : TellsTruth sha256 contract config (doSign sha256 clock) := by
  unfold doSign
  refine keeping_get_bind fun o p h => ?_
  split_ifs
  · exact h
  rw [h.page.2]
  have hstart : Told contract config o { p with signingInProgress := true } :=
    h.other id rfl rfl rfl rfl
  refine meets_modify_bind.2 (Keeping.bind (Keeping.catching tells_trySign fun l => ?_)
    (fun l => ?_) o _ hstart.disable)
  · exact Keeping.bind (tells_modify fun o p h => h.signFailed) fun _ => keeping_pure
  · exact tells_modify fun o p h => h.signDone

theorem tells_other {f : Page → Page} (hat : ∀ p, At contract config p → At contract config (f p))
    (hf : ∀ p, (f p).finalizedStatus = p.finalizedStatus ∧ (f p).progress = p.progress
      ∧ (f p).txLink = p.txLink ∧ (f p).scanBtn = p.scanBtn) :
    TellsTruth sha256 contract config (modify f : Task Unit Unit) :=
  tells_modify fun _ p h => h.other (hat p) (hf p).1 (hf p).2.1 (hf p).2.2.1 (hf p).2.2.2

theorem tells_unlockPasskey : TellsTruth sha256 contract config (unlockPasskey sha256 clock) := by
  unfold unlockPasskey
  refine Keeping.bind (tells_other (fun _ => id) fun _ => ⟨rfl, rfl, rfl, rfl⟩) fun _ => ?_
  refine (tells_receive (by simp)).bind fun answer => keeping_attempt.bind fun secret => ?_
  refine Keeping.bind (tells_other (fun _ => id) fun _ => ⟨rfl, rfl, rfl, rfl⟩) fun _ => ?_
  refine keeping_get.bind fun p => Keeping.ite keeping_pure ?_
  refine Keeping.bind (tells_other (fun _ => id) fun _ => ⟨rfl, rfl, rfl, rfl⟩) fun _ => ?_
  exact tells_doSign.bind fun _ => tells_receive (by simp)

theorem tells_tryUnlock :
    TellsTruth sha256 contract config (tryUnlock sha256 clock domain create) := by
  unfold tryUnlock
  refine keeping_attempt.bind fun _ => Keeping.ite ?_ tells_unlockPasskey
  refine Keeping.bind (tells_other (fun _ => id) fun _ => ⟨rfl, rfl, rfl, rfl⟩) fun _ => ?_
  refine (tells_receive (by simp)).bind fun answer => keeping_attempt.bind fun _ => ?_
  exact keeping_get.bind fun p => Keeping.ite keeping_pure tells_unlockPasskey

theorem Told.unlockDone (h : Told contract config o p) : Told contract config o (unlockDone p) := by
  have hp : Told contract config o (clearSigner p) := h.other id rfl rfl rfl rfl
  unfold MultisigPage.unlockDone
  simp only []
  split
  · rename_i final hfinal
    have hbio : Told contract config o { clearSigner p with bioStatus := "Agreement finalized." } :=
      hp.other id rfl rfl rfl rfl
    exact hbio.renderFinal hfinal
  · exact hp

theorem tells_unlockSigner :
    TellsTruth sha256 contract config (unlockSigner sha256 clock domain create) := by
  unfold unlockSigner
  refine keeping_get_bind fun o p h => ?_
  split_ifs
  · exact h
  refine meets_modify_bind.2 ?_
  refine Keeping.andFinally (Keeping.catching tells_tryUnlock fun _ => tells_modify fun o p h => ?_)
    (tells_modify fun o p h => h.unlockDone) o _ h.disable
  unfold unlockFailed
  split
  · exact h
  · have hbio : Told contract config o { p with bioStatus := "Passkey unavailable. Try again." } :=
      h.other id rfl rfl rfl rfl
    exact hbio.disable

theorem tells_handler (event : Event) :
    TellsTruth sha256 contract config (handler sha256 clock domain event) := by
  cases event with
  | refresh => exact tells_refreshStatus
  | click create => exact tells_unlockSigner

end Handlers

section Page

variable {sha256 : List UInt8 → Bytes 32} {clock : ℕ → Text} {contract : List UInt8}
  {config : ℕ × ℕ} {domain : Except String (Option Text)} {ι : Type} {events : ι → Event}

/-- The page is of this agreement, and so is what it waits to have submitted. -/
def Posting (sha256 : List UInt8 → Bytes 32) (contract : List UInt8) (config : ℕ × ℕ)
    (w : ι → Option Wait) (p : Page) : Prop :=
  At contract config p ∧ ∀ i body, w i = some (.postSign body) → Posts sha256 contract config body

theorem invariant_posting [DecidableEq ι] : Crowd.Invariant (ι := ι)
    (fun _ p => At contract config p) (Tells sha256 contract config)
    (Posting sha256 contract config) := by
  refine ⟨fun h _ => h.1, fun {w s i e q' s'} h _ hstep => ⟨hstep.told.page, ?_⟩⟩
  exact (Function.forall_update_iff w fun _ q => ∀ body, q = some (.postSign body) →
    Posts sha256 contract config body).2 ⟨hstep.posts, fun j _ => h.2 j⟩

theorem sound_posting : (session sha256 clock domain contract (some config) events).Sound
    (fun _ p => At contract config p) (Tells sha256 contract config)
    (Posting sha256 contract config) := by
  refine Crowd.sound_start ⟨⟨rfl, rfl⟩, fun i body heq => ?_⟩ fun i r p hp => ?_
  · cases heq
  · have htold : Told contract config (⟨.event, r⟩, p) p := ⟨hp, fun _ htrue => htrue⟩
    exact (tells_handler (events i) _ p htold).mono fun _ _ _ h => h.tells (by simp)

theorem Truthful.mono {known known' : AgreementStatus → Prop} {receipt receipt' : Text → Prop}
    {p : Page} (h : Truthful known receipt p) (hknown : ∀ status, known status → known' status)
    (hreceipt : ∀ transaction, receipt transaction → receipt' transaction) :
    Truthful known' receipt' p where
  final status hfinal := (h.final status hfinal).imp id (And.imp id (hknown status))
  progress status hvalid htext := hknown status (h.progress status hvalid htext)
  link tx hlink := hreceipt tx (h.link tx hlink)
  signed := h.signed
  closed := h.closed

/-- Nothing is displayed of an agreement that is not looked up yet. -/
theorem truthful_opened {known : AgreementStatus → Prop} {receipt : Text → Prop} :
    Truthful known receipt (.opened contract (some config)) := by
  refine ⟨fun _ h => (nomatch h), fun status hvalid htext => ?_, fun _ h => (nomatch h),
    fun hmem => ?_, fun hlabel => ?_⟩
  · have hnotice : Notice (Page.opened contract (some config)).progress :=
      notice_of_head (by simp [Page.opened])
    exact absurd htext (hnotice status hvalid)
  · simp [Page.opened, signedLabels] at hmem
  · simp [Page.opened] at hlabel

end Page

end MultisigPage

section Chain

variable {D : Pda} {groth16 : Groth16Verifier} {s : Store} {h k : Bytes 32} {t n : UInt8}

/-- The agreement counts the key, which has its receipt on the contract; and in every run that leads
here the verifier has accepted a proof of the key for the hash. -/
structure Backed (D : Pda) (groth16 : Groth16Verifier) (s : Store) (h : Bytes 32) (t n : UInt8)
    (k : Bytes 32) : Prop extends Proven D groth16 s h k where
  counted : CoSigned D s h t n k

/-- A key is counted by its receipt. -/
theorem CoSigned.signed (hs : Sound D s) (hk : CoSigned D s h t n k) : HasReceipt D s h k := by
  obtain ⟨m, b, mm, hm, a, b', ha, hx⟩ := hk
  obtain ⟨rfl, rfl⟩ : mm.multisig = m ∧ mm.keyCommitment = k := hs.fits ha hx
  cases hs.placed a _ hx with
  | @member _ ms sg ga hms _ hsg hcon hkey =>
    refine ⟨ga, sg, hsg, hkey, ?_⟩
    cases hs.placed _ _ hms with
    | @multisig _ c' hcon' hadr =>
      have hd := Pda.find_inj hadr hm
      rw [Derivation.multisig.injEq] at hd
      cases hs.placed _ _ hcon' with
      | contract hcadr _ _ => exact ⟨_, by rw [hcon, ← hd.1]; exact hcadr⟩

theorem CoSigned.backed (hs : Reachable D groth16 s) (hk : CoSigned D s h t n k) :
    Backed D groth16 s h t n k :=
  ⟨(hk.signed hs.sound).proven, hk⟩

/-- As many keys as an agreement counts are backed. -/
theorem backed_keys (hs : Reachable D groth16 s) {ms : MultiSigContract}
    (hms : StoredAt D s (.multisig h t n) (.multisig ms)) :
    ∃ keys : Finset (Bytes 32), keys.card = ms.signaturesCollected.toNat
      ∧ ∀ k ∈ keys, Backed D groth16 s h t n k := by
  obtain ⟨m, b, hm, hx⟩ := hms
  obtain ⟨q, hq⟩ := (hs.tallied m).agreement ms hx
  refine ⟨q.keys, hq.collected, fun k hk => ?_⟩
  obtain ⟨a, mm, ha, hmm, rfl⟩ := hq.mem_keys.1 hk
  obtain ⟨⟨b', hadr⟩, -⟩ := (hs.tallied m).member a mm ha hmm
  exact CoSigned.backed hs ⟨m, b, mm, hm, a, b', hadr, ha⟩

end Chain

namespace MultisigPage

open Async Dialogue

variable {D : Pda} {groth16 : Groth16Verifier} {s : Store} {t n : UInt8}
  {bytes : Account → List UInt8} {coder : Coder} {base58 : Pubkey → Text}
  {fromSecretKey : List UInt8 → Except String Pubkey} {secretHex : Option Text}
  {sha256 : List UInt8 → Bytes 32} {clock : ℕ → Text} {contract : List UInt8}
  {domain : Except String (Option Text)} {ι : Type} {events : ι → Event}

/-- The transaction of an answer to a submission of the page, whose key the agreement counts. -/
def Submitted (D : Pda) (s : Store) (sha256 : List UInt8 → Bytes 32) (contract : List UInt8)
    (t n : UInt8) (log : List (ι × Turn Wait Wait.Answer)) (transaction : Text) : Prop :=
  ∃ i payload answer,
    (i, ⟨.postSign (requestBody (sha256 contract).toList t.toNat n.toNat payload).stringify,
      answer⟩) ∈ log
    ∧ Receipt answer transaction ∧ CoSigned D s (sha256 contract) t n payload.keyCommitment

theorem hashContract_eq : hashContract sha256 contract = (sha256 contract).toList :=
  List.take_of_length_le (by simp)

/-- An answer that vouches for the chain is fair. -/
theorem fair_of_vouched {log : List (ι × Turn Wait Wait.Answer)} {i : ι} {e : Turn Wait Wait.Answer}
    (hright : Vouched D (sha256 contract) t n e.1 e.2 s)
    (hposts : ∀ body, e.1 = .postSign body →
      Posts sha256 contract (t.toNat, n.toNat) body) :
    Fair (Behind D s (sha256 contract) t n)
      (Submitted D s sha256 contract t n (log ++ [(i, e)])) e := by
  obtain ⟨q, answer⟩ := e
  cases q with
  | getStatus revision => exact hright
  | postSign body =>
    intro data transaction hdata htx
    obtain ⟨payload, hbody⟩ := hposts body rfl
    rw [hashContract_eq] at hbody
    obtain ⟨hk, hstatus⟩ := hright payload hbody data transaction hdata htx
    exact ⟨⟨i, payload, answer, by simp [hbody], ⟨data, hdata, htx⟩, hk⟩, hstatus⟩
  | _ => trivial

/-- The functions of the page keep to their sections, and what it displays is so on the chain. -/
def Honest (D : Pda) (sha256 : List UInt8 → Bytes 32) (contract : List UInt8) (t n : UInt8)
    (s : Store) (log : List (ι × Turn Wait Wait.Answer))
    (c : Crowd ι Wait Wait.Answer Page (Except Unit Unit)) : Prop :=
  c.Sound (fun _ p => At contract (t.toNat, n.toNat) p) (Tells sha256 contract (t.toNat, n.toNat))
      (Posting sha256 contract (t.toNat, n.toNat))
    ∧ Truthful (Behind D s (sha256 contract) t n) (Submitted D s sha256 contract t n log) c.state

theorem Honest.later {s' : Store} {log : List (ι × Turn Wait Wait.Answer)}
    {c : Crowd ι Wait Wait.Answer Page (Except Unit Unit)}
    (hh : Honest D sha256 contract t n s log c) (hl : Later D groth16 s s') :
    Honest D sha256 contract t n s' log c := by
  refine ⟨hh.1, hh.2.mono (fun _ hb => hb.later hl) ?_⟩
  rintro transaction ⟨i, payload, answer, hmem, hreceipt, hk⟩
  exact ⟨i, payload, answer, hmem, hreceipt, hk.later hl⟩

variable [DecidableEq ι]

theorem Honest.resume {log : List (ι × Turn Wait Wait.Answer)}
    {c c' : Crowd ι Wait Wait.Answer Page (Except Unit Unit)} {i : ι} {e : Turn Wait Wait.Answer}
    (hh : Honest D sha256 contract t n s log c)
    (hright : Vouched D (sha256 contract) t n e.1 e.2 s) (hstep : Crowd.Step c i e c') :
    Honest D sha256 contract t n s (log ++ [(i, e)]) c' := by
  obtain ⟨htells, hc'⟩ := hh.1.resume invariant_posting hstep
  refine ⟨hc', htells.told.fair (fair_of_vouched hright fun body hbody => ?_) ?_⟩
  · exact hh.1.2.2 i body (hstep.waits.1.trans (congrArg some hbody))
  · refine hh.2.mono (fun _ => id) ?_
    rintro transaction ⟨j, payload, answer, hmem, hsub⟩
    exact ⟨j, payload, answer, List.mem_append_left _ hmem, hsub⟩

/-- Whatever is clicked, however the page, the relay and the network are interleaved and whatever
of it is lost: as many keys as the page says have signed are counted, with their receipts and their
proofs, and the agreement is final if the page says so; a transaction that is linked is one of the
page's own signatures, whose key is counted; and the button says no more than that. -/
theorem display_true (henc : coder.Encodes bytes) (ht : 0 < t) (htn : t ≤ n)
    (hs : Reachable D groth16 s)
    {c : Service ι Wait Wait.Answer Page (Except Unit Unit) Rpc Rpc.Reply Store}
    (hruns : Service.Runs
      (servers D groth16 bytes coder base58 fromSecretKey secretHex (sha256 contract) t n)
      (.start (session sha256 clock domain contract (some (t.toNat, n.toNat)) events) s) c) :
    (∀ status : AgreementStatus, status.Valid 0 → c.crowd.state.progress = status.text →
      status.threshold = t.toNat ∧ ∃ ms keys,
        StoredAt D c.world (.multisig (sha256 contract) t n) (.multisig ms)
        ∧ (status.finalized = true → ms.finalized = true)
        ∧ status.collected ≤ (keys : Finset (Bytes 32)).card
        ∧ ∀ k ∈ keys, Backed D groth16 c.world (sha256 contract) t n k)
    ∧ (∀ transaction, c.crowd.state.txLink = some transaction → ∃ i payload answer,
      (i, ⟨.postSign (requestBody (sha256 contract).toList t.toNat n.toNat payload).stringify,
        answer⟩) ∈ c.log
      ∧ Receipt answer transaction
      ∧ Backed D groth16 c.world (sha256 contract) t n payload.keyCommitment)
    ∧ (c.crowd.state.scanBtn.textContent ∈ signedLabels → c.crowd.state.txLink.isSome = true)
    ∧ (c.crowd.state.scanBtn.textContent = "Agreement Finalized" → ∃ ms,
      StoredAt D c.world (.multisig (sha256 contract) t n) (.multisig ms)
        ∧ ms.finalized = true) := by
  obtain ⟨hsound, -, htrue⟩ : Servers.Sound _ _ _ c
      ∧ Honest D sha256 contract t n c.world c.log c.crowd :=
    (vouch_servers henc ht htn).runs (fun hl hh => hh.later hl)
      (fun _ hh hright hstep => hh.resume hright hstep) hs ⟨sound_posting, truthful_opened⟩ hruns
  refine ⟨fun status hvalid htext => ?_, fun transaction hlink => ?_, htrue.signed,
    fun hlabel => ?_⟩
  · obtain ⟨ms, hms, hthreshold, hcollected, hfinal⟩ := htrue.progress status hvalid htext
    obtain ⟨keys, hcard, hbacked⟩ := backed_keys hsound.world hms
    exact ⟨hthreshold, ms, keys, hms, hfinal, by rw [hcard]; exact hcollected, hbacked⟩
  · obtain ⟨i, payload, answer, hmem, hreceipt, hk⟩ := htrue.link transaction hlink
    exact ⟨i, payload, answer, hmem, hreceipt, hk.backed hsound.world⟩
  · obtain ⟨status, hstatus⟩ := Option.isSome_iff_exists.1 (htrue.closed hlabel)
    obtain ⟨-, hfinal, ms, hms, -, -, hclosed⟩ := htrue.final status hstatus
    exact ⟨ms, hms, hclosed hfinal⟩

section Sample

/-- The agreement of the sample, with the first of its two signatures. -/
def sampleSigned : Store := run samplePda sampleVerifier ∅ (sampleSetup ++ [sampleSign 1])

/-- The text of the sample, and a hash function that gives it the hash of the sample. -/
def sampleText : List UInt8 := Bytes.utf8 "Agreement"

def sampleSha256 (_ : List UInt8) : Bytes 32 := sampleHash

def sampleOpened : Crowd Unit Wait Wait.Answer Page (Except Unit Unit) :=
  session sampleSha256 (fun _ => []) (.ok none) sampleText
    (some ((2 : UInt8).toNat, (3 : UInt8).toNat)) fun _ => .refresh

/-- What the relay answers about the agreement. -/
def sampleStatus : RelayAnswer :=
  (Relay.statusAnswer (some ⟨sampleContract, 2, 1, 3, false, 0, 254⟩)).sent

/-- The page looks the agreement up, and one key is backed. -/
theorem display_true_sample : ∃ c : Service Unit Wait Wait.Answer Page (Except Unit Unit) Rpc
      Rpc.Reply Store, c.crowd.state.progress = "1 of 2 signed"
    ∧ ∃ keys : Finset (Bytes 32), 1 ≤ keys.card
      ∧ ∀ k ∈ keys, Backed samplePda sampleVerifier c.world sampleHash 2 3 k := by
  let S := servers samplePda sampleVerifier Account.bytes idlCoder toBase58 (fun _ => .error "none")
    none (sampleSha256 sampleText) 2 3
  have hs : Reachable samplePda sampleVerifier sampleSigned := ⟨_, rfl⟩
  have hms : sampleSigned.lookup sampleMultisig
      = some (.multisig ⟨sampleContract, 2, 1, 3, false, 0, 254⟩) := by
    decide +kernel
  -- the event, and the answer to what the page asks for then
  have hplay : ((sampleOpened.play [((), ⟨.event, ()⟩)]).bind fun c =>
      (c.play [((), ⟨.getStatus 1, sampleStatus⟩)]).map (·.state.progress))
        = some "1 of 2 signed" := by decide +kernel
  obtain ⟨c₁, h₁, hplay⟩ := Option.bind_eq_some_iff.1 hplay
  obtain ⟨c₂, h₂, hprogress⟩ := Option.map_eq_some_iff.1 hplay
  obtain ⟨c₃, h₃, hnil⟩ := Crowd.exists_step_of_play h₂
  obtain rfl : c₃ = c₂ := Option.some.inj hnil
  -- the relay reads the account and answers
  have hf := Follows.map Relay.Response.sent (follows_status idlCoder_encodes hs find_sampleContract
    find_sampleMultisig hms (Shows.account hms))
  have hevent := Service.runs_of_lost (S := S) (s := .start sampleOpened sampleSigned)
    (fun _ => rfl) (fun x hx => by rw [List.mem_singleton.1 hx]; trivial) h₁
  have hoffers : S.offers (Wait.getStatus 1) _ := ⟨.passed, rfl⟩
  have hruns := hevent.trans (Service.runs_of_answered rfl hoffers hf
    (.cons (.read (Shows.account hms)) (.nil _)) h₃)
  have htext : (AgreementStatus.mk 1 2 false).text = "1 of 2 signed" := by decide +kernel
  have htrue := (display_true idlCoder_encodes (by decide) (by decide) hs hruns).1 ⟨1, 2, false⟩
    ⟨by decide, by decide, by decide, by decide, rfl⟩ (hprogress.trans htext.symm)
  obtain ⟨-, ms, keys, -, -, hcard, hbacked⟩ := htrue
  exact ⟨⟨c₃, _, _, _⟩, hprogress, keys, Int.ofNat_le.1 hcard, hbacked⟩

end Sample

end MultisigPage

end Oblivia

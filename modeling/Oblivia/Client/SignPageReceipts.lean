import Oblivia.Client.SignPage
/-!
# The receipts of the signing page

One signature waits at a time, and it is submitted only if no receipt is kept for its contract hash
and key commitment. A receipt is kept from the answer that confirms it on, and what is displayed as
signed is a receipt that is kept (`receipts_genuine`).
-/

namespace Oblivia

namespace SignPage

open Async Dialogue

/-- A signature waits for this. -/
def Wait.active : Wait → Bool
  | .fullProve _ | .postSign _ => true
  | _ => false

/-- The contract hash and the key commitment that a request is for. -/
def signedPair (body : Text) : Option (Json × Json) := do
  let body ← Json.parse body
  return (← body.field "contractHash", ← body.field "keyCommitment")

/-- The key under which a receipt of the request is kept. -/
def Keyed (body key : Text) : Prop :=
  ∃ hash payload, body = (requestBody hash payload).stringify
    ∧ key = receiptKey hash payload.keyCommitment

section Keys

theorem signedPair_requestBody (hash : List UInt8) (payload : ProofArgs) :
    signedPair (requestBody hash payload).stringify
      = some (jsonBytes hash, jsonHex payload.keyCommitment.toList) := by
  rw [signedPair, Json.parse_stringify]
  rfl

theorem jsonHex_inj {l l' : List UInt8} (h : jsonHex l = jsonHex l') : l = l' := by
  exact Function.LeftInverse.injective Numeral.hexDecode_hexEncode
    (List.append_cancel_left (Json.string.inj h))

theorem jsonBytes_inj {l l' : List UInt8} (h : jsonBytes l = jsonBytes l') : l = l' := by
  refine List.map_injective_iff.2 (fun b b' hb => ?_) (Json.array.inj h)
  have hvalue := congrArg Json.Literal.value (Json.number.inj hb)
  have hlt (x : UInt8) : x.toNat < 2 ^ 53 := x.toNat_lt.trans (by decide)
  rw [Json.Literal.value_ofNat (hlt b), Json.Literal.value_ofNat (hlt b')] at hvalue
  exact UInt8.toNat_inj.1 (by exact_mod_cast Option.some.inj hvalue)

/-- Requests for one pair are kept under one key. -/
theorem Keyed.unique {body body' key key' : Text} (h : Keyed body key) (h' : Keyed body' key')
    (hpair : signedPair body = signedPair body') : key = key' := by
  obtain ⟨hash, payload, rfl, rfl⟩ := h
  obtain ⟨hash', payload', rfl, rfl⟩ := h'
  rw [signedPair_requestBody, signedPair_requestBody] at hpair
  obtain ⟨hhash, hcommitment⟩ := Prod.mk.inj (Option.some.inj hpair)
  rw [jsonBytes_inj hhash, Bytes.toList_inj.1 (jsonHex_inj hcommitment)]

variable {sha256 : List UInt8 → Bytes 32}

theorem contractHash_eq (contract : Utf16) :
    contractHash sha256 contract = (sha256 (Utf16.encode contract)).toList :=
  List.take_of_length_le (by simp)

/-- A key is of one contract hash. -/
theorem contractHash_eq_of_receiptKey {contract contract' : Utf16}
    {commitment commitment' : Bytes 32} (h : receiptKey (contractHash sha256 contract) commitment
      = receiptKey (contractHash sha256 contract') commitment') :
    contractHash sha256 contract = contractHash sha256 contract' := by
  unfold receiptKey at h
  rw [List.append_assoc, List.append_assoc] at h
  have hlength : (Numeral.hexEncode (contractHash sha256 contract)).length
      = (Numeral.hexEncode (contractHash sha256 contract')).length := by
    simp only [Numeral.length_hexEncode, contractHash_eq, Bytes.length_toList]
  exact Function.LeftInverse.injective Numeral.hexDecode_hexEncode (List.append_inj h hlength).1

end Keys

section Sections

variable (sha256 : List UInt8 → Bytes 32)

/-- The receipt is one that `answer` gives for the text and the proof submitted in `body`. -/
def Genuine (body : Text) (answer : RelayAnswer) (receipt : Receipt) : Prop :=
  ∃ payload, body = (requestBody (contractHash sha256 receipt.contract) payload).stringify
    ∧ confirmed answer = .ok receipt.transaction ∧ receipt.proofPreview = proofPreview payload

/-- The receipt of this signer is kept, and a receipt is kept under a key of its text. -/
structure Cache (p : Page) : Prop where
  known : ∀ receipt, p.confirmedSignerReceipt = some receipt →
    ∃ key, (key, receipt) ∈ p.confirmedReceipts
  keyed : ∀ key receipt, (key, receipt) ∈ p.confirmedReceipts →
    ∃ commitment, key = receiptKey (contractHash sha256 receipt.contract) commitment

/-- What is displayed as signed is a receipt that is kept, of a text with the same hash. -/
def Shown (contract : Utf16) (p : Page) : Prop :=
  p.contractSignedDisplay = "TRUE" → ∃ key receipt, (key, receipt) ∈ p.confirmedReceipts
    ∧ p.signedContractDisplay = receipt.contract ∧ p.proofDisplay = receipt.proofPreview
    ∧ p.txDisplay = .link receipt.transaction
    ∧ contractHash sha256 contract = contractHash sha256 receipt.contract

/-- The page between two sections. -/
structure Coherent (p : Page) : Prop extends Cache sha256 p where
  shown : Shown sha256 p.contract p
  pending : p.signingInProgress = true → p.contractSignedDisplay ≠ "TRUE"

structure Ready (q : Wait) (p : Page) : Prop extends Coherent sha256 p where
  busy : q.active = true → p.signingInProgress = true

/-- What a section that began with `o` has done to the receipts: they are kept, a new one comes from
an answer, and an answer that confirms one leaves one under its key. -/
structure Recorded (o : Turn Wait Wait.Answer × Page) (p : Page) : Prop where
  grows : ∀ x ∈ o.2.confirmedReceipts, x ∈ p.confirmedReceipts
  fresh : ∀ key receipt, (key, receipt) ∈ p.confirmedReceipts →
    (key, receipt) ∈ o.2.confirmedReceipts
      ∨ ∃ body answer, o.1 = ⟨.postSign body, answer⟩ ∧ Genuine sha256 body answer receipt
  taken : ∀ body answer transaction, o.1 = ⟨.postSign body, answer⟩ →
    confirmed answer = .ok transaction →
    ∃ key receipt, Keyed body key ∧ (key, receipt) ∈ p.confirmedReceipts
  idle : o.1.1.active = false → p.confirmedReceipts = o.2.confirmedReceipts

/-- No receipt is kept for the request. -/
def Fresh (body : Text) (p : Page) : Prop :=
  ∃ key, Keyed body key ∧ p.confirmedReceipts.lookup key = none

/-- A section, up to what its function waits for next. -/
structure Accounted (e : Turn Wait Wait.Answer) (p : Page) (q : Option Wait) (p' : Page) :
    Prop where
  coherent : Coherent sha256 p'
  recorded : Recorded sha256 (e, p) p'
  guards : Crowd.Guards Wait.active (fun p => p.signingInProgress = true) e p q p'
  posted : ∀ body, q = some (.postSign body) → Fresh body p'

/-- A write to other elements of the page, which may forget the receipt of this signer. -/
structure Quiet (p p' : Page) : Prop where
  contract : p'.contract = p.contract
  display : p'.toDisplay = p.toDisplay
  receipts : p'.confirmedReceipts = p.confirmedReceipts
  signer : p'.confirmedSignerReceipt = p.confirmedSignerReceipt ∨ p'.confirmedSignerReceipt = none
  signing : p'.signingInProgress = p.signingInProgress

/-- A section of a function that does not sign. -/
structure Aside (o : Turn Wait Wait.Answer × Page) (p : Page) : Prop where
  coherent : Coherent sha256 p
  recorded : Recorded sha256 o p
  passive : o.1.1.active = false
  same : p.signingInProgress = o.2.signingInProgress

/-- A section of a signature, with what is displayed left to its end: `contract` is its text. -/
structure Signing (contract : Utf16) (o : Turn Wait Wait.Answer × Page) (p : Page) : Prop where
  cache : Cache sha256 p
  recorded : Recorded sha256 o p
  busy : p.signingInProgress = true
  mine : o.1.1.active = true ∨ o.2.signingInProgress = false
  shown : Shown sha256 contract p

variable {sha256} {contract : Utf16} {o : Turn Wait Wait.Answer × Page} {p p' : Page} {q : Wait}

theorem shown_of_ne (h : p.contractSignedDisplay ≠ "TRUE") : Shown sha256 contract p :=
  fun htrue => absurd htrue h

theorem Cache.write (h : Cache sha256 p) (hreceipts : p'.confirmedReceipts = p.confirmedReceipts)
    (hsigner : p'.confirmedSignerReceipt = p.confirmedSignerReceipt
      ∨ p'.confirmedSignerReceipt = none) : Cache sha256 p' := by
  refine ⟨fun receipt hreceipt => ?_, ?_⟩
  · rw [hreceipts]
    rcases hsigner with hsame | hnone
    · exact h.known receipt (hsame ▸ hreceipt)
    · rw [hnone] at hreceipt
      cases hreceipt
  · rw [hreceipts]
    exact h.keyed

theorem Recorded.write (h : Recorded sha256 o p)
    (hreceipts : p'.confirmedReceipts = p.confirmedReceipts) : Recorded sha256 o p' := by
  obtain ⟨hgrows, hfresh, htaken, hidle⟩ := h
  rw [← hreceipts] at hgrows hfresh htaken hidle
  exact ⟨hgrows, hfresh, htaken, hidle⟩

theorem Aside.write (h : Aside sha256 o p) (hp : Quiet p p') : Aside sha256 o p' := by
  refine ⟨⟨h.coherent.toCache.write hp.receipts hp.signer, ?_, ?_⟩, h.recorded.write hp.receipts,
    h.passive, hp.signing.trans h.same⟩
  · unfold Shown
    rw [hp.contract, hp.display, hp.receipts]
    exact h.coherent.shown
  · rw [hp.display, hp.signing]
    exact h.coherent.pending

theorem Aside.accounted {q : Option Wait} (h : Aside sha256 o p)
    (hq : ∀ q', q = some q' → q'.active = false) : Accounted sha256 o.1 o.2 q p := by
  refine ⟨h.coherent, h.recorded, ⟨fun q' heq hactive => ?_, fun _ hbusy => h.same.trans hbusy⟩,
    fun body heq => ?_⟩
  · rw [hq q' heq] at hactive
    cases hactive
  · have := hq _ heq
    cases this

/-- A signature goes on to wait while nothing is displayed as signed. -/
theorem Signing.accounted (h : Signing sha256 contract o p)
    (hpending : p.contractSignedDisplay ≠ "TRUE")
    (hposted : ∀ body, q = .postSign body → Fresh body p) :
    Accounted sha256 o.1 o.2 (some q) p :=
  ⟨⟨h.cache, shown_of_ne hpending, fun _ => hpending⟩, h.recorded,
    ⟨fun _ _ _ => ⟨h.busy, h.mine.imp id fun hfree => by simp [hfree]⟩, fun _ _ => h.busy⟩,
    fun body heq => hposted body (Option.some.inj heq)⟩

end Sections

section Begin

variable {sha256 : List UInt8 → Bytes 32} {p : Page} {q : Wait} {r : q.Answer}

/-- A section that has written nothing yet leaves the receipts as they are, if it has no new one. -/
theorem recorded_refl (h : ∀ body answer transaction,
    (⟨q, r⟩ : Turn Wait Wait.Answer) = ⟨.postSign body, answer⟩ →
      confirmed answer ≠ .ok transaction) : Recorded sha256 (⟨q, r⟩, p) p :=
  ⟨fun _ hx => hx, fun _ _ hreceipt => .inl hreceipt,
    fun body answer transaction heq hok => absurd hok (h body answer transaction heq), fun _ => rfl⟩

theorem recorded_of_ne (h : ∀ body, q ≠ .postSign body) : Recorded sha256 (⟨q, r⟩, p) p :=
  recorded_refl fun body _ _ heq => absurd (congrArg Sigma.fst heq) (h body)

theorem Ready.aside (h : Ready sha256 q p) (hpassive : q.active = false) :
    Aside sha256 (⟨q, r⟩, p) p := by
  refine ⟨h.toCoherent, recorded_of_ne fun body heq => ?_, hpassive, rfl⟩
  subst heq
  cases hpassive

theorem Ready.signing {contract : Utf16} (h : Ready sha256 q p) (hactive : q.active = true)
    (hrecorded : Recorded sha256 (⟨q, r⟩, p) p) :
    Signing sha256 contract (⟨q, r⟩, p) p ∧ p.contractSignedDisplay ≠ "TRUE" := by
  have hbusy := h.busy hactive
  exact ⟨⟨h.toCache, hrecorded, hbusy, .inl hactive, shown_of_ne (h.pending hbusy)⟩,
    h.pending hbusy⟩

end Begin

section Writes

variable {sha256 : List UInt8 → Bytes 32} {contract : Utf16} {o : Turn Wait Wait.Answer × Page}
  {p p' : Page} {receipt : Receipt}

theorem alreadySigned_eq_some : alreadySigned p = some receipt ↔
    p.confirmedSignerReceipt = some receipt ∧ receipt.contract = p.contract := by
  unfold alreadySigned
  simp [Option.filter_eq_some_iff]

theorem coherent_showReceipt (h : Cache sha256 p) (hreceipt : alreadySigned p = some receipt)
    (hfree : p.signingInProgress ≠ true) (disabled : Bool) :
    Coherent sha256 { showConfirmedReceipt receipt p with signBtnDisabled := disabled } := by
  obtain ⟨hsigner, htext⟩ := alreadySigned_eq_some.1 hreceipt
  obtain ⟨key, hkey⟩ := h.known receipt hsigner
  refine ⟨h.write rfl (.inl rfl), fun _ => ⟨key, receipt, hkey, rfl, rfl, rfl, ?_⟩,
    fun hbusy => absurd hbusy hfree⟩
  rw [htext]
  rfl

theorem Aside.contractInput (h : Aside sha256 o p) (value : Utf16) :
    Aside sha256 o (contractInput { p with contract := value }) := by
  have hcache : Cache sha256 { p with contract := value } :=
    h.coherent.toCache.write rfl (.inl rfl)
  unfold SignPage.contractInput
  split_ifs with hbusy
  · have hpending := h.coherent.pending hbusy
    exact ⟨⟨hcache, shown_of_ne hpending, fun _ => hpending⟩, h.recorded.write rfl, h.passive,
      h.same⟩
  · split
    · rename_i receipt hreceipt
      exact ⟨coherent_showReceipt hcache hreceipt hbusy true, h.recorded.write rfl, h.passive,
        h.same⟩
    · have hpending : "PENDING" ≠ "TRUE" := by decide
      exact ⟨⟨hcache.write rfl (.inl rfl), shown_of_ne hpending, fun _ => hpending⟩,
        h.recorded.write rfl, h.passive, h.same⟩

theorem Signing.write (h : Signing sha256 contract o p)
    (hreceipts : p'.confirmedReceipts = p.confirmedReceipts)
    (hsigner : p'.confirmedSignerReceipt = p.confirmedSignerReceipt)
    (hsigning : p'.signingInProgress = p.signingInProgress)
    (hpending : p'.contractSignedDisplay ≠ "TRUE") : Signing sha256 contract o p' :=
  ⟨h.cache.write hreceipts (.inl hsigner), h.recorded.write hreceipts, hsigning.trans h.busy,
    h.mine, shown_of_ne hpending⟩

/-- A receipt that is kept for the request is shown instead of a submission. -/
theorem Signing.existing {commitment : Bytes 32} (h : Signing sha256 contract o p)
    (hlookup : p.confirmedReceipts.lookup (receiptKey (contractHash sha256 contract) commitment)
      = some receipt) :
    Signing sha256 contract o
      (showConfirmedReceipt receipt { p with confirmedSignerReceipt := some receipt }) := by
  have hmem : (receiptKey (contractHash sha256 contract) commitment, receipt)
      ∈ p.confirmedReceipts := by
    obtain ⟨l, l', hsplit, -⟩ := List.lookup_eq_some_iff.1 hlookup
    rw [hsplit]
    exact List.mem_append_right _ (List.mem_cons_self ..)
  obtain ⟨commitment', hkey⟩ := h.cache.keyed _ _ hmem
  refine ⟨⟨fun receipt' heq => ?_, h.cache.keyed⟩, h.recorded.write rfl, h.busy, h.mine,
    fun _ => ⟨_, receipt, hmem, rfl, rfl, rfl, contractHash_eq_of_receiptKey hkey⟩⟩
  obtain rfl : receipt = receipt' := Option.some.inj heq
  exact ⟨_, hmem⟩

/-- The answer to a request confirms its receipt. -/
theorem Ready.keepReceipt {body : Text} {payload : ProofArgs} {answer : RelayAnswer}
    {transaction : Text} (h : Ready sha256 (.postSign body) p)
    (hbody : body = (requestBody (contractHash sha256 contract) payload).stringify)
    (hconfirmed : confirmed answer = .ok transaction) :
    Signing sha256 contract (⟨.postSign body, answer⟩, p)
      (keepReceipt (receiptKey (contractHash sha256 contract) payload.keyCommitment)
        ⟨contract, transaction, proofPreview payload⟩ p) := by
  refine ⟨⟨fun receipt heq => ?_, fun key receipt hmem => ?_⟩,
    ⟨fun x hx => List.mem_cons_of_mem _ hx, fun key receipt hmem => ?_,
      fun body' answer' transaction' heq _ => ?_, fun hpassive => ?_⟩, h.busy rfl, .inl rfl,
    fun _ => ⟨_, ⟨contract, transaction, proofPreview payload⟩, List.mem_cons_self .., rfl, rfl,
      rfl, rfl⟩⟩
  · obtain rfl := Option.some.inj heq
    exact ⟨_, List.mem_cons_self ..⟩
  · rcases List.mem_cons.1 hmem with heq | hmem
    · cases heq
      exact ⟨_, rfl⟩
    · exact h.keyed key receipt hmem
  · rcases List.mem_cons.1 hmem with heq | hmem
    · cases heq
      exact .inr ⟨body, answer, rfl, payload, hbody, hconfirmed, rfl⟩
    · exact .inl hmem
  · cases heq
    exact ⟨_, _, ⟨_, payload, hbody, rfl⟩, List.mem_cons_self ..⟩
  · cases hpassive

/-- The text may have been edited while it was being signed. -/
theorem Signing.signDone {l : Locals} (h : Signing sha256 contract o p) :
    Accounted sha256 o.1 o.2 none (signDone contract l p) := by
  refine ⟨⟨h.cache.write rfl (.inl rfl), ?_, fun hbusy => by cases hbusy⟩, h.recorded.write rfl,
    ⟨by simp, fun hpassive hbusy => ?_⟩, by simp⟩
  · by_cases htext : p.contract = contract
    · have hsame : (SignPage.signDone contract l p).contractSignedDisplay
          = p.contractSignedDisplay := if_neg (not_not.2 htext)
      intro htrue
      rw [hsame] at htrue
      obtain ⟨key, receipt, hshown⟩ := h.shown htrue
      rw [← htext] at hshown
      exact ⟨key, receipt, hshown⟩
    · have hchanged : (SignPage.signDone contract l p).contractSignedDisplay
          = "TEXT CHANGED" := if_pos htext
      exact shown_of_ne (by rw [hchanged]; decide)
  · rcases h.mine with hactive | hfree
    · rw [hpassive] at hactive
      cases hactive
    · rw [hfree] at hbusy
      cases hbusy

end Writes

section Handlers

variable {sha256 : List UInt8 → Bytes 32} {clock : ℕ → Text} {contract : Utf16}
  {domain : Except String (Option Text)} {create : Bool} {o : Turn Wait Wait.Answer × Page}
  {p : Page}

theorem buildInput_eq_ok {p' : Page} (h : buildInput sha256 clock contract p = .ok p') :
    ∃ inputs readings, p' = { p with inputs := inputs, clockReadings := readings } := by
  unfold buildInput at h
  simp only [Batch.bind_eq_ok, Batch.pure_eq_ok] at h
  obtain ⟨input, -, rfl⟩ := h
  exact ⟨_, _, rfl⟩

/-- A signature waits for its proof. -/
theorem takes_fullProve {input : ℕ} (h : Signing sha256 contract o p)
    (hpending : p.contractSignedDisplay ≠ "TRUE") :
    Meets (Ready sha256) (Accounted sha256) (receive (.fullProve input) : Task Locals _)
      (fun o _ p => Signing sha256 contract o p ∧ p.contractSignedDisplay ≠ "TRUE") o p :=
  meets_receive.2 ⟨h.accounted hpending (by simp), fun _ hready =>
    hready.signing rfl (recorded_of_ne (by simp))⟩

theorem takes_trySign (h : Signing sha256 contract o p)
    (hpending : p.contractSignedDisplay ≠ "TRUE") :
    Meets (Ready sha256) (Accounted sha256) (trySign sha256 clock contract)
      (fun o _ p => Signing sha256 contract o p) o p := by
  unfold trySign
  refine meets_get_bind.2 (meets_attempt_bind.2 ?_)
  rcases hb : buildInput sha256 clock contract p with e | p'
  · exact h
  obtain ⟨inputs, readings, rfl⟩ := buildInput_eq_ok hb
  refine meets_set_bind.2 (Meets.andThen (takes_fullProve (h.write rfl rfl rfl hpending) hpending)
    ?_ fun _ _ _ h => h.1)
  intro proved o p ⟨h, hpending⟩
  refine meets_attempt_bind.2 ?_
  rcases proved with e | ⟨proof, publicSignals⟩
  · exact h
  refine meets_attempt_bind.2 ?_
  rcases anchorProof proof publicSignals with e | payload
  · exact h
  have hproved : Signing sha256 contract o { p with proofDisplay := proofPreview payload } :=
    h.write rfl rfl rfl hpending
  refine meets_modify_bind.2 (meets_get_bind.2 ?_)
  split
  · rename_i receipt hlookup
    exact meets_modify_bind.2 (hproved.existing hlookup)
  · rename_i hlookup
    refine meets_receive_bind.2 ⟨hproved.accounted hpending fun body heq => ?_,
      fun ⟨answer, p⟩ hready => meets_attempt_bind.2 ?_⟩
    · cases heq
      exact ⟨_, ⟨_, payload, rfl, rfl⟩, hlookup⟩
    · rcases hconfirmed : confirmed answer with e | transaction
      · refine (hready.signing rfl (recorded_refl fun body answer' transaction heq hok => ?_)).1
        cases heq
        rw [hconfirmed] at hok
        cases hok
      · exact meets_modify_bind.2 (hready.keepReceipt rfl hconfirmed)

theorem takes_signContract {r : Unit} (h : Ready sha256 .event p) :
    Meets (Ready sha256) (Accounted sha256) (signContract sha256 clock)
      (fun o _ p => Accounted sha256 o.1 o.2 none p) (⟨.event, r⟩, p) p := by
  have haside : Aside sha256 (⟨.event, r⟩, p) p := h.aside rfl
  unfold signContract
  refine meets_get_bind.2 ?_
  split_ifs with hguard
  · exact haside.accounted (by simp)
  push Not at hguard
  have hfree : p.signingInProgress ≠ true := hguard.1
  split
  · rename_i receipt hreceipt
    refine Aside.accounted ⟨?_, haside.recorded.write rfl, rfl, rfl⟩ (by simp)
    exact coherent_showReceipt h.toCache hreceipt hfree true
  · have hpending : (signStarts p).contractSignedDisplay ≠ "TRUE" := by
      change "PENDING" ≠ "TRUE"
      decide
    have hstarts : Signing sha256 p.contract (⟨.event, r⟩, p) (signStarts p) :=
      ⟨h.toCache.write rfl (.inl rfl), haside.recorded.write rfl, rfl, .inr (by simpa using hfree),
        shown_of_ne hpending⟩
    refine meets_modify_bind.2 (meets_bind.2 (meets_catching.2 ?_))
    refine (takes_trySign hstarts hpending).mono fun o r p h => ?_
    cases r with
    | ok l => exact h.signDone
    | error l =>
      have hfailed : (signFailed l p).contractSignedDisplay ≠ "TRUE" := by
        unfold signFailed
        split_ifs <;> simp
      refine (h.write ?_ ?_ ?_ hfailed).signDone
      all_goals
        simp only [signFailed]
        split_ifs <;> rfl

variable (sha256) in
/-- Every section of an unlocking keeps to the side. -/
abbrev Keeps {α : Type} (x : Task Unit α) : Prop :=
  Keeping (Ready sha256) (Accounted sha256) (Aside sha256) x

theorem keeps_receive {q : Wait} (hq : q.active = false) :
    Keeps sha256 (receive q : Task Unit q.Answer) := by
  refine keeping_receive (fun o p h => h.accounted fun q' heq => ?_) fun r p h => h.aside hq
  obtain rfl : q = q' := Option.some.inj heq
  exact hq

theorem keeps_unlockPasskey : Keeps sha256 unlockPasskey := by
  unfold unlockPasskey
  refine Keeping.bind (keeping_modify ?_) fun _ => (keeps_receive rfl).bind fun answer => ?_
  · exact fun o p h => h.write ⟨rfl, rfl, rfl, .inl rfl, rfl⟩
  refine keeping_attempt.bind fun secret => keeping_modify ?_
  exact fun o p h => h.write ⟨rfl, rfl, rfl, .inl rfl, rfl⟩

theorem keeps_tryUnlock : Keeps sha256 (tryUnlock domain create) := by
  unfold tryUnlock
  refine keeping_attempt.bind fun _ => Keeping.ite ?_ keeps_unlockPasskey
  refine Keeping.bind (keeping_modify ?_) fun _ => (keeps_receive rfl).bind fun answer => ?_
  · exact fun o p h => h.write ⟨rfl, rfl, rfl, .inl rfl, rfl⟩
  · exact keeping_attempt.bind fun _ => keeps_unlockPasskey

theorem takes_unlockSigner {r : Unit} (h : Ready sha256 .event p) :
    Meets (Ready sha256) (Accounted sha256) (unlockSigner domain create)
      (fun o _ p => Accounted sha256 o.1 o.2 none p) (⟨.event, r⟩, p) p := by
  have haside : Aside sha256 (⟨.event, r⟩, p) p := h.aside rfl
  unfold unlockSigner
  refine meets_get_bind.2 ?_
  split_ifs
  · exact haside.accounted (by simp)
  refine meets_modify_bind.2 (Meets.mono (Keeping.bind (Keeping.catching keeps_tryUnlock fun _ =>
    keeping_modify ?_) (fun _ => keeping_modify ?_) _ _ ?_) fun o _ p h => h.accounted (by simp))
  · exact fun o p h => h.write ⟨rfl, rfl, rfl, .inl rfl, rfl⟩
  · exact fun o p h => h.write ⟨rfl, rfl, rfl, .inl rfl, rfl⟩
  · exact haside.write ⟨rfl, rfl, rfl, .inr rfl, rfl⟩

theorem takes_handler {event : Event} {r : Unit} (h : Ready sha256 .event p) :
    Meets (Ready sha256) (Accounted sha256) (handler sha256 clock domain event)
      (fun o _ p => Accounted sha256 o.1 o.2 none p) (⟨.event, r⟩, p) p := by
  cases event with
  | edit value =>
    have haside : Aside sha256 (⟨.event, r⟩, p) p := h.aside rfl
    exact (haside.contractInput value).accounted (by simp)
  | unlock create => exact takes_unlockSigner h
  | sign => exact takes_signContract h

end Handlers

section Session

variable {ι : Type}

/-- The page is coherent, one signature waits at most, and no receipt is kept for a request that
waits. -/
structure Once (sha256 : List UInt8 → Bytes 32) (w : ι → Option Wait) (p : Page) : Prop where
  coherent : Coherent sha256 p
  locked : Crowd.Locked Wait.active (fun p : Page => p.signingInProgress = true) w p
  posted : ∀ i body, w i = some (.postSign body) → Fresh body p

variable (sha256 : List UInt8 → Bytes 32) (clock : ℕ → Text)
  (domain : Except String (Option Text)) (contract : Utf16) (events : ι → Event)

theorem sound_once :
    (session sha256 clock domain contract events).Sound (Ready sha256) (Accounted sha256)
      (Once sha256) := by
  have hpending : (Page.opened contract).contractSignedDisplay ≠ "TRUE" := by
    change "PENDING" ≠ "TRUE"
    decide
  refine Crowd.sound_start ⟨⟨⟨?_, ?_⟩, shown_of_ne hpending, fun _ => hpending⟩,
    Crowd.locked_start rfl, ?_⟩ fun i r p hp => takes_handler hp
  · intro receipt heq
    cases heq
  · intro key receipt hmem
    cases hmem
  · intro i body heq
    cases heq

variable [DecidableEq ι]

theorem Once.kept {w : ι → Option Wait} {p p' : Page} {i : ι} {e : Turn Wait Wait.Answer}
    {q : Option Wait} (h : Once sha256 w p) (hi : w i = some e.1)
    (hstep : Accounted sha256 e p q p') : Once sha256 (Function.update w i q) p' := by
  refine ⟨hstep.coherent, h.locked.kept hi hstep.guards, ?_⟩
  refine (Function.forall_update_iff w fun _ q => ∀ body, q = some (.postSign body) →
    Fresh body p').2 ⟨hstep.posted, fun j hji body hj => ?_⟩
  obtain ⟨key, hkeyed, hlookup⟩ := h.posted j body hj
  refine ⟨key, hkeyed, ?_⟩
  rw [hstep.recorded.idle (h.locked.passive hi hj rfl hji)]
  exact hlookup

theorem invariant_once : Crowd.Invariant (ι := ι) (Ready sha256) (Accounted sha256) (Once sha256) :=
  ⟨fun h hq => ⟨h.coherent, h.locked.held _ _ hq⟩, Once.kept sha256⟩

abbrev Session (ι : Type) := Crowd ι Wait Wait.Answer Page (Except Unit Unit)

/-- On the way to `c` an answer has confirmed the receipt. -/
def Confirmed (c₀ c : Session ι) (receipt : Receipt) : Prop :=
  ∃ c₁ i body answer c₂, Crowd.Runs c₀ c₁ ∧ Crowd.Step c₁ i ⟨.postSign body, answer⟩ c₂
    ∧ Crowd.Runs c₂ c ∧ Genuine sha256 body answer receipt

variable {sha256 clock domain contract events} {c c' : Session ι}

theorem confirmed_of_runs
    (hruns : Crowd.Runs (session sha256 clock domain contract events) c) {key : Text}
    {receipt : Receipt} (hmem : (key, receipt) ∈ c.state.confirmedReceipts) :
    Confirmed sha256 (session sha256 clock domain contract events) c receipt := by
  induction hruns generalizing key receipt with
  | refl => cases hmem
  | tail hruns hstep ih =>
    obtain ⟨i, e, hstep⟩ := hstep
    have hsound := (sound_once sha256 clock domain contract events).runs (invariant_once sha256)
      hruns
    obtain ⟨hspec, -⟩ := hsound.resume (invariant_once sha256) hstep
    rcases hspec.recorded.fresh key receipt hmem with hold | ⟨body, answer, rfl, hgenuine⟩
    · obtain ⟨c₁, i', body, answer, c₂, hbefore, hanswer, hafter, hgenuine⟩ := ih hold
      exact ⟨c₁, i', body, answer, c₂, hbefore, hanswer, hafter.tail ⟨i, e, hstep⟩, hgenuine⟩
    · exact ⟨_, i, body, answer, _, hruns, hstep, .refl, hgenuine⟩

theorem receipts_grow (hc : c.Sound (Ready sha256) (Accounted sha256) (Once sha256))
    (hruns : Crowd.Runs c c') :
    ∀ x ∈ c.state.confirmedReceipts, x ∈ c'.state.confirmedReceipts := by
  induction hruns with
  | refl => exact fun _ hx => hx
  | tail hruns hstep ih =>
    obtain ⟨i, e, hstep⟩ := hstep
    have hsound := hc.runs (invariant_once sha256) hruns
    obtain ⟨hspec, -⟩ := hsound.resume (invariant_once sha256) hstep
    exact fun x hx => hspec.recorded.grows x (ih x hx)

/-- Whatever the events are and in whatever order their answers come: one submission is pending at
most; after an answer that confirms a request none is made for its contract hash and its key
commitment; and when the page says that the contract is signed, its text, its proof and its
transaction are displayed as submitted in one request and as confirmed by the answer to it, and the
text in the editor has the same hash. -/
theorem receipts_genuine
    (hruns : Crowd.Runs (session sha256 clock domain contract events) c) :
    (∀ i j body body', c.waits i = some (.postSign body) → c.waits j = some (.postSign body') →
      i = j)
    ∧ (∀ i body answer transaction c', Crowd.Step c i ⟨.postSign body, answer⟩ c' →
      confirmed answer = .ok transaction → ∀ c'', Crowd.Runs c' c'' →
        ∀ j body', c''.waits j = some (.postSign body') → signedPair body' ≠ signedPair body)
    ∧ (c.state.contractSignedDisplay = "TRUE" →
      (∃ c₁ i answer c₂ payload transaction,
        let body := requestBody (sha256 (Utf16.encode c.state.signedContractDisplay)).toList payload
        Crowd.Runs (session sha256 clock domain contract events) c₁
        ∧ Crowd.Step c₁ i ⟨.postSign body.stringify, answer⟩ c₂ ∧ Crowd.Runs c₂ c
        ∧ confirmed answer = .ok transaction ∧ c.state.txDisplay = .link transaction
        ∧ c.state.proofDisplay = proofPreview payload)
      ∧ sha256 (Utf16.encode c.state.contract)
        = sha256 (Utf16.encode c.state.signedContractDisplay)) := by
  have hsound := (sound_once sha256 clock domain contract events).runs (invariant_once sha256) hruns
  refine ⟨fun i j body body' hi hj => hsound.2.locked.one i j _ _ hi rfl hj rfl, ?_,
    fun htrue => ?_⟩
  · intro i body answer transaction c' hstep hconfirmed c'' hruns' j body' hj hpair
    obtain ⟨hspec, hsound'⟩ := hsound.resume (invariant_once sha256) hstep
    obtain ⟨key, receipt, hkeyed, hmem⟩ :=
      hspec.recorded.taken body answer transaction rfl hconfirmed
    obtain ⟨key', hkeyed', hlookup⟩ :=
      (hsound'.runs (invariant_once sha256) hruns').2.posted j body' hj
    obtain rfl := hkeyed.unique hkeyed' hpair.symm
    have hkept := receipts_grow hsound' hruns' _ hmem
    have := List.lookup_eq_none_iff.1 hlookup _ hkept
    simp at this
  · obtain ⟨key, receipt, hmem, htext, hproof, htx, hhash⟩ := hsound.2.coherent.shown htrue
    obtain ⟨c₁, i, body, answer, c₂, hbefore, hanswer, hafter, hgenuine⟩ :=
      confirmed_of_runs hruns hmem
    obtain ⟨payload, rfl, hconfirmed, hpreview⟩ := hgenuine
    rw [contractHash_eq, contractHash_eq, ← htext] at hhash
    rw [contractHash_eq, ← htext] at hanswer
    exact ⟨⟨c₁, i, answer, c₂, payload, _, hbefore, hanswer, hafter, hconfirmed, htx,
      hproof.trans hpreview⟩, Bytes.toList_inj.1 hhash⟩

end Session

section Sample

/-- A page with a text in the editor. -/
def sampleSession : Session Bool :=
  session (fun _ => .ofNat 32 (2 ^ 240)) (fun _ => "1700000000".toList) (.ok none)
    [0xD83D, 0xDE00] fun sign => if sign then .sign else .unlock true

def samplePayload : ProofArgs := ⟨.zero 64, .zero 128, .zero 64, .zero 128, .zero 32, .zero 32⟩

def sampleTransaction : Text := List.replicate 64 '2'

def sampleSigned : List (Bool × Turn Wait Wait.Answer) :=
  let zero := ['0']
  let proof : Groth16Proof :=
    ⟨(zero, decimal fieldModulus.toNat), ((zero, zero), (zero, zero)), (zero, zero)⟩
  let answer := Json.object [("transaction".toList, .string sampleTransaction)]
  [(false, ⟨.event, ()⟩), (false, ⟨.createSignerPasskey, .ok ()⟩),
    (false, ⟨.getPasskeySecret, .ok (List.replicate 32 5)⟩), (true, ⟨.event, ()⟩),
    (true, ⟨.fullProve 0, .ok (proof, fun _ => zero)⟩),
    (true, ⟨.postSign (requestBody (Bytes.ofNat 32 (2 ^ 240)).toList samplePayload).stringify,
      .ok (200, answer.stringify)⟩)]

/-- A passkey is created, and the signature is confirmed. -/
theorem receipts_genuine_sample : ∃ c, Crowd.Runs sampleSession c
    ∧ c.state.txDisplay = .link sampleTransaction
    ∧ ∃ c₁ i answer c₂ payload, Crowd.Step c₁ i
        ⟨.postSign (requestBody (Bytes.ofNat 32 (2 ^ 240)).toList payload).stringify, answer⟩ c₂
      ∧ Crowd.Runs c₂ c ∧ confirmed answer = .ok sampleTransaction := by
  have hplay : (sampleSession.play sampleSigned).map (fun c =>
      (c.state.contractSignedDisplay, c.state.txDisplay))
      = some ("TRUE", .link sampleTransaction) := by decide +kernel
  obtain ⟨c, hc, hdisplay⟩ := Option.map_eq_some_iff.1 hplay
  obtain ⟨htrue, htx⟩ := Prod.mk.inj hdisplay
  have hruns := Crowd.runs_of_play hc
  obtain ⟨⟨c₁, i, answer, c₂, payload, transaction, -, hstep, hafter, hconfirmed, htx', -⟩, -⟩ :=
    (receipts_genuine hruns).2.2 htrue
  obtain rfl : transaction = sampleTransaction := TxDisplay.link.inj (htx'.symm.trans htx)
  exact ⟨c, hruns, htx, c₁, i, answer, c₂, payload, hstep, hafter, hconfirmed⟩

end Sample

end SignPage

end Oblivia

import Oblivia.Client.CoSignPage
/-!
# One signature at a time on the co-signing page

The page disables its button while a signer's operation waits for the passkey, the proof or the
relay, and enables it only when that operation has ended without a receipt. So one operation waits
at most; after a receipt none does, none is started and the receipt stays, and a lookup from before
the receipt changes nothing of what is shown (`one_signature`).
-/

namespace Oblivia

namespace MultisigPage

open Async Dialogue

/-- A signer's operation waits for this. -/
def Wait.active : Wait → Bool
  | .createSignerPasskey | .getPasskeySecret | .fullProve _ | .postSign _ => true
  | _ => false

/-- The answer is a success that carries the signature of a transaction. -/
def Receipt (answer : RelayAnswer) (transaction : Text) : Prop :=
  ∃ data, received answer = .ok data
    ∧ validateTransaction (data.field "transaction") = .ok transaction

/-- What an operation finds that has waited for `q`: the button is disabled under a receipt, and
while a signer's operation waits, which has no receipt yet. -/
structure Ready (q : Wait) (p : Page) : Prop where
  shown : p.txLink ≠ none → p.scanBtn.disabled = true
  held : q.active = true → p.scanBtn.disabled = true ∧ p.txLink = none

/-- What a section has done so far that began with `o`. Unless it is one of a signer's operation, it
leaves a disabled button disabled and the receipt as it is; a lookup that is not the latest changes
nothing that is shown; and a receipt is shown, as a later revision. -/
structure Orderly (o : Turn Wait Wait.Answer × Page) (p : Page) : Prop where
  shown : p.txLink ≠ none → p.scanBtn.disabled = true
  revision : o.2.statusRevision ≤ p.statusRevision
  passive : o.1.1.active = false → o.2.scanBtn.disabled = true →
    p.scanBtn.disabled = true ∧ p.txLink = o.2.txLink
  stale : ∀ revision, o.1.1 = .getStatus revision → revision ≠ o.2.statusRevision →
    p.progress = o.2.progress ∧ p.scanBtn = o.2.scanBtn
  receipt : ∀ body answer transaction, o.1 = ⟨.postSign body, answer⟩ →
    Receipt answer transaction →
    p.txLink = some transaction ∧ o.2.statusRevision < p.statusRevision

/-- A section, up to what its function waits for next. A signer's operation goes on to wait with the
button disabled, and is started only if the button was enabled. -/
structure Exclusive (e : Turn Wait Wait.Answer) (p : Page) (q : Option Wait) (p' : Page) :
    Prop where
  orderly : Orderly (e, p) p'
  active : ∀ q', q = some q' → q'.active = true → p'.scanBtn.disabled = true ∧ p'.txLink = none
    ∧ (e.1.active = true ∨ p.scanBtn.disabled = false)
  lookup : ∀ revision, q = some (.getStatus revision) → revision ≤ p'.statusRevision
  once : ∀ revision, e.1 = .getStatus revision → q = none

/-- A write that leaves the receipt and a disabled button as they are. -/
structure Quiet (p p' : Page) : Prop where
  link : p'.txLink = p.txLink
  btn : p.scanBtn.disabled = true → p'.scanBtn.disabled = true
  revision : p'.statusRevision = p.statusRevision

/-- A section of a function other than a lookup. -/
structure Aside (o : Turn Wait Wait.Answer × Page) (p : Page) : Prop where
  orderly : Orderly o p
  other : ∀ revision, o.1.1 ≠ .getStatus revision

/-- A section of a signer's operation that has no receipt yet. -/
structure Owned (o : Turn Wait Wait.Answer × Page) (p : Page) : Prop extends Aside o p where
  disabled : p.scanBtn.disabled = true
  link : p.txLink = none
  mine : o.1.1.active = true ∨ o.2.scanBtn.disabled = false

/-- The same with these local variables, perhaps with a receipt. -/
structure Held (o : Turn Wait Wait.Answer × Page) (l : Locals) (p : Page) : Prop extends
    Aside o p where
  disabled : p.scanBtn.disabled = true
  owned : l.transaction = none → Owned o p

/-- A section of the lookup of this revision. -/
structure Lookup (revision : ℕ) (o : Turn Wait Wait.Answer × Page) (p : Page) : Prop where
  orderly : Orderly o p
  mine : o.1.1 = .event ∨ o.1.1 = .getStatus revision ∧ p.statusRevision = o.2.statusRevision

section Writes

variable {p : Page} {status : AgreementStatus} {l : Locals}

theorem quiet_renderStatus : Quiet p (renderStatus status p) :=
  ⟨renderStatus_txLink, renderStatus_disabled, renderStatus_statusRevision⟩

theorem quiet_statusUnavailable : Quiet p (statusUnavailable p) := by
  unfold statusUnavailable
  split
  · exact ⟨rfl, id, rfl⟩
  · exact ⟨rfl, id, rfl⟩

theorem quiet_signFailed : Quiet p (signFailed l p) := by
  unfold signFailed
  split
  · exact quiet_renderStatus
  · split_ifs
    · exact ⟨rfl, id, rfl⟩
    · exact ⟨rfl, id, rfl⟩
    · exact ⟨rfl, id, rfl⟩

theorem Quiet.trans {p' p'' : Page} (h : Quiet p p') (h' : Quiet p' p'') : Quiet p p'' :=
  ⟨h'.link.trans h.link, fun hd => h'.btn (h.btn hd), h'.revision.trans h.revision⟩

theorem quiet_unlockDone : Quiet p (unlockDone p) := by
  unfold unlockDone
  simp only []
  split
  · have hclear : Quiet p { clearSigner p with bioStatus := "Agreement finalized." } :=
      ⟨rfl, id, rfl⟩
    exact hclear.trans quiet_renderStatus
  · exact ⟨rfl, id, rfl⟩

end Writes

section Sections

variable {o : Turn Wait Wait.Answer × Page} {p p' : Page} {l : Locals} {q : Wait}
  {revision : ℕ}

theorem Aside.exclusive_done (h : Aside o p) : Exclusive o.1 o.2 none p :=
  ⟨h.orderly, by simp, by simp, fun _ _ => rfl⟩

theorem Aside.exclusive (h : Aside o p) (hactive : q.active = false)
    (hlookup : ∀ revision, q = .getStatus revision → revision ≤ p.statusRevision) :
    Exclusive o.1 o.2 (some q) p := by
  refine ⟨h.orderly, fun q' hq hq' => ?_, fun revision hq => hlookup revision (Option.some.inj hq),
    fun revision heq => absurd heq (h.other revision)⟩
  obtain rfl : q = q' := Option.some.inj hq
  rw [hactive] at hq'
  cases hq'

theorem Owned.exclusive (h : Owned o p) (hq : q.active = true) :
    Exclusive o.1 o.2 (some q) p := by
  refine ⟨h.orderly, fun q' _ _ => ⟨h.disabled, h.link, h.mine⟩, fun revision heq => ?_,
    fun revision heq => absurd heq (h.other revision)⟩
  obtain rfl : q = .getStatus revision := Option.some.inj heq
  cases hq

theorem Lookup.exclusive_done (h : Lookup revision o p) : Exclusive o.1 o.2 none p :=
  ⟨h.orderly, by simp, by simp, fun _ _ => rfl⟩

theorem Orderly.write (h : Orderly o p) (hp : Quiet p p')
    (hstale : ∀ revision, o.1.1 = .getStatus revision → revision ≠ o.2.statusRevision →
      p'.progress = p.progress ∧ p'.scanBtn = p.scanBtn) : Orderly o p' := by
  refine ⟨fun hne => hp.btn (h.shown (hp.link ▸ hne)), hp.revision ▸ h.revision,
    fun hpassive hdisabled => ?_, fun revision heq hne => ?_, ?_⟩
  · obtain ⟨hd, hl⟩ := h.passive hpassive hdisabled
    exact ⟨hp.btn hd, hp.link.trans hl⟩
  · obtain ⟨hprogress, hbtn⟩ := hstale revision heq hne
    obtain ⟨hprogress', hbtn'⟩ := h.stale revision heq hne
    exact ⟨hprogress.trans hprogress', hbtn.trans hbtn'⟩
  · rw [hp.link, hp.revision]
    exact h.receipt

theorem Aside.write (h : Aside o p) (hp : Quiet p p') : Aside o p' :=
  ⟨h.orderly.write hp fun revision heq => absurd heq (h.other revision), h.other⟩

theorem Owned.write (h : Owned o p) (hp : Quiet p p') : Owned o p' :=
  ⟨h.toAside.write hp, hp.btn h.disabled, hp.link.trans h.link, h.mine⟩

theorem Held.write (h : Held o l p) (hp : Quiet p p') : Held o l p' :=
  ⟨h.toAside.write hp, hp.btn h.disabled, fun hl => (h.owned hl).write hp⟩

theorem Lookup.write (h : Lookup revision o p) (hp : Quiet p p')
    (hrevision : revision = p.statusRevision) : Lookup revision o p' := by
  refine ⟨h.orderly.write hp fun revision' heq hne => ?_, h.mine.imp id fun ⟨hq, hr⟩ =>
    ⟨hq, hp.revision.trans hr⟩⟩
  rcases h.mine with hevent | ⟨hq, hr⟩
  · rw [hevent] at heq
    cases heq
  · rw [hq, Wait.getStatus.injEq] at heq
    omega

theorem Owned.held (h : Owned o p) : Held o l p := ⟨h.toAside, h.disabled, fun _ => h⟩

/-- An operation without a receipt may enable the button again. -/
theorem Owned.enable (h : Owned o p) (hlink : p'.txLink = none)
    (hrevision : p'.statusRevision = p.statusRevision) : Aside o p' := by
  refine ⟨⟨fun hne => absurd hlink hne, hrevision ▸ h.orderly.revision,
    fun hpassive hdisabled => ?_, fun revision heq => absurd heq (h.other revision),
    fun body answer tx heq hreceipt => ?_⟩, h.other⟩
  · rcases h.mine with hactive | henabled
    · rw [hpassive] at hactive
      cases hactive
    · rw [hdisabled] at henabled
      cases henabled
  · have := (h.orderly.receipt body answer tx heq hreceipt).1
    rw [h.link] at this
    cases this

theorem Held.signDone (h : Held o l p) : Aside o (signDone l p) := by
  have hp : Held o l { p with toSignerMemory := p.release l.input, signingInProgress := false } :=
    h.write ⟨rfl, id, rfl⟩
  unfold MultisigPage.signDone
  simp only []
  split
  · exact hp.toAside.write quiet_renderStatus
  · rcases htx : l.transaction with _ | transaction
    · exact (hp.owned htx).enable (hp.owned htx).link rfl
    · exact hp.toAside.write ⟨rfl, fun _ => rfl, rfl⟩

theorem Owned.unlockFailed (h : Owned o p) : Aside o (unlockFailed p) := by
  unfold MultisigPage.unlockFailed
  split
  · exact h.toAside
  · exact h.enable h.link rfl

end Sections

section Begin

variable {p : Page} {q : Wait} {r : q.Answer}

/-- A section that has written nothing yet, of an operation without a receipt. -/
theorem Ready.orderly (h : Ready q p) (hreceipt : ∀ body answer transaction,
    (⟨q, r⟩ : Turn Wait Wait.Answer) = ⟨.postSign body, answer⟩ →
      ¬Receipt answer transaction) : Orderly (⟨q, r⟩, p) p :=
  ⟨h.shown, le_rfl, fun _ hdisabled => ⟨hdisabled, rfl⟩, fun _ _ _ => ⟨rfl, rfl⟩,
    fun body answer transaction heq h => absurd h (hreceipt body answer transaction heq)⟩

theorem Ready.orderly_of_ne (h : Ready q p) (hpost : ∀ body, q ≠ .postSign body) :
    Orderly (⟨q, r⟩, p) p :=
  h.orderly fun body _ _ heq => absurd (congrArg Sigma.fst heq) (hpost body)

theorem Ready.owned (h : Ready q p) (hactive : q.active = true)
    (horderly : Orderly (⟨q, r⟩, p) p) : Owned (⟨q, r⟩, p) p := by
  obtain ⟨hdisabled, hlink⟩ := h.held hactive
  refine ⟨⟨horderly, fun revision heq => ?_⟩, hdisabled, hlink, .inl hactive⟩
  change q = _ at heq
  subst heq
  cases hactive

end Begin

section Handlers

variable {sha256 : List UInt8 → Bytes 32} {clock : ℕ → Text} {config : ℕ × ℕ}
  {domain : Except String (Option Text)} {create : Bool}

/-- The sections of a function that is called in a section which began with `o`; the last of them
meets `post`. -/
abbrev Takes {ε α : Type} (x : Task ε α)
    (post : Turn Wait Wait.Answer × Page → Except ε α → Page → Prop)
    (o : Turn Wait Wait.Answer × Page) (p : Page) : Prop :=
  Meets Ready Exclusive x post o p

variable {o : Turn Wait Wait.Answer × Page} {p : Page}

/-- A signer's operation waits for the passkey or the proof. -/
theorem takes_receive {ε : Type} {q : Wait} (h : Owned o p) (hactive : q.active = true)
    (hpost : ∀ body, q ≠ .postSign body) :
    Takes (receive q : Task ε q.Answer) (fun o _ p => Owned o p) o p :=
  meets_receive.2 ⟨h.exclusive hactive, fun _ hready =>
    hready.owned hactive (hready.orderly_of_ne hpost)⟩

/-- However the submission ends, the local variables know of the receipt. -/
def Ended (o : Turn Wait Wait.Answer × Page) : Except Locals Locals → Page → Prop
  | .ok l, p => Held o l p
  | .error l, p => Held o l p

section Answer

variable {body : Text} {answer : RelayAnswer} {transaction : Text} {l : Locals}

theorem Receipt.unique {transaction' : Text} (h : Receipt answer transaction)
    (h' : Receipt answer transaction') : transaction = transaction' := by
  obtain ⟨data, hok, htx⟩ := h
  obtain ⟨data', hok', htx'⟩ := h'
  obtain rfl : data = data' := Except.ok.inj (hok.symm.trans hok')
  exact Except.ok.inj (htx.symm.trans htx')

theorem Ready.refused (h : Ready (.postSign body) p)
    (hno : ∀ transaction, ¬Receipt answer transaction) :
    Held (⟨.postSign body, answer⟩, p) l p := by
  refine (h.owned rfl (h.orderly fun body' answer' transaction heq => ?_)).held
  cases heq
  exact hno transaction

theorem Ready.received (h : Ready (.postSign body) p) (hreceipt : Receipt answer transaction) :
    Held (⟨.postSign body, answer⟩, p) { l with transaction := some transaction }
      (showTransaction transaction { p with statusRevision := p.statusRevision + 1 }) := by
  obtain ⟨hdisabled, -⟩ := h.held rfl
  refine ⟨⟨⟨fun _ => hdisabled, Nat.le_succ _, ?_, ?_, ?_⟩, ?_⟩, hdisabled, ?_⟩
  · intro hpassive
    cases hpassive
  · intro revision heq
    cases heq
  · intro body' answer' transaction' heq hreceipt'
    cases heq
    exact ⟨congrArg some (hreceipt.unique hreceipt'), Nat.lt_succ_self _⟩
  · intro revision heq
    cases heq
  · intro hl
    cases hl

theorem takes_takeAnswer (h : Ready (.postSign body) p) :
    Takes (takeAnswer l answer) Ended (⟨.postSign body, answer⟩, p) p := by
  unfold takeAnswer
  refine meets_attempt_bind.2 ?_
  rcases hdata : received answer with e | data
  · refine h.refused fun transaction ⟨data, hok, _⟩ => ?_
    rw [hdata] at hok
    cases hok
  refine meets_attempt_bind.2 ?_
  rcases htx : validateTransaction (data.field "transaction") with e | transaction
  · refine h.refused fun transaction ⟨data', hok, htx'⟩ => ?_
    obtain rfl : data = data' := Except.ok.inj (hdata.symm.trans hok)
    rw [htx] at htx'
    cases htx'
  -- from here on the receipt is shown, whatever the counters are
  have hheld := h.received (l := l) ⟨data, hdata, htx⟩
  refine meets_modify_bind.2 ?_
  split_ifs
  · exact hheld.write quiet_statusUnavailable
  refine meets_attempt_bind.2 ?_
  rcases validateStatus data 1 with e | status
  · exact hheld
  have hrendered : Held _ _ (renderStatus status _) := hheld.write quiet_renderStatus
  refine meets_modify_bind.2 (meets_get_bind.2 ?_)
  split_ifs
  · exact hrendered.write ⟨rfl, id, rfl⟩
  · exact hrendered

end Answer

theorem takes_trySign (h : Owned o p) : Takes (trySign sha256 clock config) Ended o p := by
  unfold trySign
  refine meets_get_bind.2 (meets_attempt_bind.2 ?_)
  rcases hb : buildInput sha256 clock p with e | p'
  · exact h.held
  obtain ⟨inputs, readings, rfl⟩ := buildInput_eq_ok hb
  refine meets_set_bind.2 ?_
  refine Meets.andThen (takes_receive (h.write ⟨rfl, id, rfl⟩) rfl (by simp)) ?_ ?_
  · intro proved o p h
    refine meets_attempt_bind.2 ?_
    rcases proved with e | ⟨proof, publicSignals⟩
    · exact h.held
    refine meets_get_bind.2 ?_
    split_ifs
    · exact h.held
    refine meets_attempt_bind.2 ?_
    rcases grothPayload proof publicSignals with e | payload
    · exact h.held
    refine meets_get_bind.2 (meets_receive_bind.2 ⟨h.exclusive rfl, ?_⟩)
    exact fun r hr => takes_takeAnswer hr
  · exact fun e o p h => h.held

theorem takes_doSign (h : Owned o p) :
    Takes (doSign sha256 clock) (fun o r p => r = .ok () ∧ Aside o p) o p := by
  unfold doSign
  refine meets_get_bind.2 ?_
  split_ifs
  · exact ⟨rfl, h.toAside⟩
  rcases p.currentConfig with _ | config
  · exact ⟨rfl, h.toAside⟩
  refine meets_modify_bind.2 (meets_bind.2 (meets_catching.2 ?_))
  have hsign : Takes (trySign sha256 clock config) Ended o
      (.disable true { p with signingInProgress := true }) :=
    takes_trySign (h.write ⟨rfl, fun _ => rfl, rfl⟩)
  refine hsign.mono fun o r p h => ?_
  cases r with
  | ok l => exact ⟨rfl, Held.signDone h⟩
  | error l => exact ⟨rfl, (Held.write h quiet_signFailed).signDone⟩

/-- An unlocking fails only as long as there is no receipt. -/
def Unlocked (o : Turn Wait Wait.Answer × Page) : Except Unit Unit → Page → Prop
  | .ok _, p => Aside o p
  | .error _, p => Owned o p

theorem takes_unlockPasskey (h : Owned o p) :
    Takes (unlockPasskey sha256 clock) Unlocked o p := by
  unfold unlockPasskey
  refine meets_modify_bind.2 ?_
  refine Meets.andThen (takes_receive (h.write ⟨rfl, id, rfl⟩) rfl (by simp)) ?_ fun _ _ _ h => h
  intro unlocked o p h
  refine meets_attempt_bind.2 ?_
  rcases unlocked with e | secret
  · exact h
  have hkept : Owned o { p with toSignerMemory := p.keep secret } := h.write ⟨rfl, id, rfl⟩
  refine meets_modify_bind.2 (meets_get_bind.2 ?_)
  split_ifs
  · exact hkept.toAside
  refine meets_modify_bind.2 ?_
  refine Meets.andThen (takes_doSign (hkept.write ⟨rfl, id, rfl⟩)) ?_ ?_
  · intro _ o p ⟨_, h⟩
    refine meets_receive.2 ⟨h.exclusive rfl (by simp), fun _ hready => ?_⟩
    exact ⟨hready.orderly_of_ne (by simp), fun revision heq => by cases heq⟩
  · rintro e o p ⟨heq, -⟩
    cases heq

theorem takes_tryUnlock (h : Owned o p) :
    Takes (tryUnlock sha256 clock domain create) Unlocked o p := by
  unfold tryUnlock
  refine meets_attempt_bind.2 ?_
  rcases domain with e | rpId
  · exact h
  cases create with
  | false => exact takes_unlockPasskey h
  | true =>
    refine meets_modify_bind.2 ?_
    refine Meets.andThen (takes_receive (h.write ⟨rfl, id, rfl⟩) rfl (by simp)) ?_ fun _ _ _ h => h
    intro created o p h
    refine meets_attempt_bind.2 ?_
    rcases created with e | _
    · exact h
    refine meets_get_bind.2 ?_
    split_ifs
    · exact h.toAside
    · exact takes_unlockPasskey h

theorem takes_unlockSigner {r : Unit} (h : Ready .event p) :
    Takes (unlockSigner sha256 clock domain create) (fun o _ p => Exclusive o.1 o.2 none p)
      (⟨.event, r⟩, p) p := by
  have hidle : Aside (⟨.event, r⟩, p) p :=
    ⟨h.orderly_of_ne (by simp), fun revision heq => by cases heq⟩
  unfold unlockSigner
  refine meets_get_bind.2 ?_
  split_ifs with hguard
  · exact hidle.exclusive_done
  push Not at hguard
  have henabled : p.scanBtn.disabled = false := by simpa using hguard.1
  have hlink : p.txLink = none := by
    by_contra hne
    rw [h.shown hne] at henabled
    cases henabled
  have howned : Owned (⟨.event, r⟩, p) (p.disable true) :=
    ⟨hidle.write ⟨rfl, fun _ => rfl, rfl⟩, rfl, hlink, .inr henabled⟩
  refine meets_modify_bind.2 (meets_andFinally.2 (meets_catching.2 ?_))
  refine (takes_tryUnlock howned).mono fun o r p h => ?_
  cases r with
  | ok _ => exact (Aside.write h quiet_unlockDone).exclusive_done
  | error _ => exact ((Owned.unlockFailed h).write quiet_unlockDone).exclusive_done

theorem takes_tryStatus {revision : ℕ} (h : Aside o p) (hevent : o.1.1 = .event)
    (hrevision : revision ≤ p.statusRevision) :
    Takes (tryStatus revision) (fun o _ p => Lookup revision o p) o p := by
  unfold tryStatus
  refine meets_get_bind.2 ?_
  split_ifs
  · exact ⟨h.orderly, .inl hevent⟩
  refine meets_receive_bind.2 ⟨h.exclusive rfl ?_, fun ⟨answer, p⟩ hready => ?_⟩
  · intro revision' heq
    rw [Wait.getStatus.injEq] at heq
    omega
  have hlookup : Lookup revision (⟨.getStatus revision, answer⟩, p) p :=
    ⟨hready.orderly_of_ne (by simp), .inr ⟨rfl, rfl⟩⟩
  refine meets_attempt_bind.2 ?_
  rcases received answer with e | s
  · exact hlookup
  refine meets_get_bind.2 ?_
  split_ifs with hstale
  · exact hlookup
  · exact hlookup
  refine meets_attempt_bind.2 ?_
  rcases validateStatus s 0 with e | status
  · exact hlookup
  · exact hlookup.write quiet_renderStatus (not_not.1 hstale)

theorem takes_refreshStatus {r : Unit} (h : Ready .event p) :
    Takes refreshStatus (fun o _ p => Exclusive o.1 o.2 none p) (⟨.event, r⟩, p) p := by
  have hnext : Aside (⟨.event, r⟩, p) { p with statusRevision := p.statusRevision + 1 } := by
    refine ⟨⟨h.shown, Nat.le_succ _, fun _ hdisabled => ⟨hdisabled, rfl⟩, ?_, ?_⟩, ?_⟩
    · intro revision heq
      cases heq
    · intro body answer transaction heq
      cases heq
    · intro revision heq
      cases heq
  unfold refreshStatus
  refine meets_modify_bind.2 (meets_get_bind.2 (meets_catching.2 ?_))
  refine (takes_tryStatus hnext rfl le_rfl).mono fun o r p h => ?_
  cases r with
  | ok _ => exact h.exclusive_done
  | error _ =>
    unfold statusFailed
    refine meets_get_bind.2 ?_
    split_ifs with hstale
    · exact h.exclusive_done
    · refine (h.write ?_ (not_not.1 hstale)).exclusive_done
      simp only []
      split
      · exact quiet_renderStatus
      · exact ⟨rfl, id, rfl⟩

theorem takes_handler {event : Event} {r : Unit} (h : Ready .event p) :
    Takes (handler sha256 clock domain event) (fun o _ p => Exclusive o.1 o.2 none p)
      (⟨.event, r⟩, p) p := by
  cases event with
  | refresh => exact takes_refreshStatus h
  | click create => exact takes_unlockSigner h

end Handlers

section Session

variable {ι : Type}

/-- What a signer's operation holds while it waits. -/
def Page.Busy (p : Page) : Prop := p.scanBtn.disabled = true ∧ p.txLink = none

/-- The button is disabled under a receipt and while a signer's operation waits, which has no
receipt yet; one operation waits at most; and no lookup is of a later revision. -/
structure Single (w : ι → Option Wait) (p : Page) : Prop where
  shown : p.txLink ≠ none → p.scanBtn.disabled = true
  locked : Crowd.Locked Wait.active Page.Busy w p
  lookup : ∀ i revision, w i = some (.getStatus revision) → revision ≤ p.statusRevision

section Invariant

variable {w : ι → Option Wait} {p p' : Page} {i : ι} {e : Turn Wait Wait.Answer} {q : Option Wait}

theorem Exclusive.guards (h : Exclusive e p q p') :
    Crowd.Guards Wait.active Page.Busy e p q p' := by
  refine ⟨fun q' hq hactive => ?_, fun hpassive ⟨hdisabled, hlink⟩ => ?_⟩
  · obtain ⟨hdisabled, hlink, hmine⟩ := h.active q' hq hactive
    refine ⟨⟨hdisabled, hlink⟩, hmine.imp id fun henabled hbusy => ?_⟩
    rw [hbusy.1] at henabled
    cases henabled
  · obtain ⟨hdisabled', hlink'⟩ := h.orderly.passive hpassive hdisabled
    exact ⟨hdisabled', hlink'.trans hlink⟩

variable [DecidableEq ι]

theorem Single.kept (h : Single w p) (hi : w i = some e.1) (hstep : Exclusive e p q p') :
    Single (Function.update w i q) p' := by
  refine ⟨hstep.orderly.shown, h.locked.kept hi hstep.guards, ?_⟩
  refine (Function.forall_update_iff w fun _ q => ∀ revision, q = some (.getStatus revision) →
    revision ≤ p'.statusRevision).2 ⟨hstep.lookup, fun j _ revision hj => ?_⟩
  exact (h.lookup j revision hj).trans hstep.orderly.revision

theorem invariant_single : Crowd.Invariant (ι := ι) Ready Exclusive Single :=
  ⟨fun h hq => ⟨h.shown, h.locked.held _ _ hq⟩, Single.kept⟩

end Invariant

variable (sha256 : List UInt8 → Bytes 32) (clock : ℕ → Text)
  (domain : Except String (Option Text)) (contract : List UInt8) (config : Option (ℕ × ℕ))
  (events : ι → Event)

theorem sound_single :
    (session sha256 clock domain contract config events).Sound Ready Exclusive Single := by
  refine Crowd.sound_start ⟨fun hne => absurd rfl hne, Crowd.locked_start rfl, ?_⟩
    fun i r p hp => takes_handler hp
  intro i revision heq
  cases heq

/-- What a receipt at this revision leaves: it is shown, as a later revision, and the lookups that
were pending still are, or are over. -/
structure Received [DecidableEq ι] (transaction : Text) (w : ι → Option Wait) (revision : ℕ)
    (c : Crowd ι Wait Wait.Answer Page (Except Unit Unit)) : Prop where
  sound : c.Sound Ready Exclusive Single
  link : c.state.txLink = some transaction
  later : revision < c.state.statusRevision
  pending : ∀ j revision', w j = some (.getStatus revision') →
    revision' ≤ revision ∧ (c.waits j = some (.getStatus revision') ∨ c.waits j = none)

variable [DecidableEq ι] {c c' : Crowd ι Wait Wait.Answer Page (Except Unit Unit)} {i : ι}
  {e : Turn Wait Wait.Answer} {transaction : Text} {w : ι → Option Wait} {revision : ℕ}

theorem Received.inactive {q : Wait} (h : Received transaction w revision c)
    (hq : c.waits i = some q) : q.active = false := by
  by_contra hactive
  have hnone := (h.sound.2.locked.held i q hq (by simpa using hactive)).2
  rw [h.link] at hnone
  cases hnone

theorem Received.step (h : Received transaction w revision c) (hstep : Crowd.Step c i e c') :
    Received transaction w revision c' := by
  obtain ⟨hwaits, -⟩ := hstep.waits
  obtain ⟨hspec, hsound⟩ := h.sound.resume invariant_single hstep
  have hdisabled : c.state.scanBtn.disabled = true := h.sound.2.shown (by simp [h.link])
  obtain ⟨-, hlink⟩ := hspec.orderly.passive (h.inactive hwaits) hdisabled
  refine ⟨hsound, hlink.trans h.link, h.later.trans_le hspec.orderly.revision,
    fun j revision' hj => ?_⟩
  obtain ⟨hle, hpending⟩ := h.pending j revision' hj
  refine ⟨hle, ?_⟩
  by_cases hji : j = i
  · subst hji
    rcases hpending with hpending | hpending
    · rw [hwaits] at hpending
      exact .inr (hspec.once revision' (Option.some.inj hpending))
    · rw [hwaits] at hpending
      cases hpending
  · rw [Crowd.waits, hstep.tasks_of_ne hji]
    exact hpending

theorem Received.runs (h : Received transaction w revision c) (hruns : Crowd.Runs c c') :
    Received transaction w revision c' := by
  induction hruns with
  | refl => exact h
  | tail _ hstep ih =>
    obtain ⟨i, e, hstep⟩ := hstep
    exact ih.step hstep

/-- Whatever the events are and in whatever order their answers come: one submission is pending at
most; and after an answer with a receipt, whatever else it says, the receipt stays displayed, no
submission is made, and a lookup that was pending changes neither the progress line nor the
button. -/
theorem one_signature (hruns : Crowd.Runs (session sha256 clock domain contract config events) c) :
    (∀ i j body body', c.waits i = some (.postSign body) → c.waits j = some (.postSign body') →
      i = j)
    ∧ ∀ i body answer transaction c', Crowd.Step c i ⟨.postSign body, answer⟩ c' →
      Receipt answer transaction → ∀ c'', Crowd.Runs c' c'' →
        c''.state.txLink = some transaction
        ∧ (∀ j body', c''.waits j ≠ some (.postSign body'))
        ∧ ∀ j revision, c.waits j = some (.getStatus revision) →
          ∀ e c''', Crowd.Step c'' j e c''' →
            c'''.state.progress = c''.state.progress ∧ c'''.state.scanBtn = c''.state.scanBtn := by
  have hsound := (sound_single sha256 clock domain contract config events).runs
    invariant_single hruns
  refine ⟨fun i j body body' hi hj => hsound.2.locked.one i j _ _ hi rfl hj rfl, ?_⟩
  intro i body answer transaction c' hstep hreceipt c'' hruns'
  obtain ⟨hspec, hsound'⟩ := hsound.resume invariant_single hstep
  obtain ⟨hlink, hlater⟩ := hspec.orderly.receipt body answer transaction rfl hreceipt
  have hreceived : Received transaction c.waits c.state.statusRevision c' := by
    refine ⟨hsound', hlink, hlater, fun j revision hj => ⟨hsound.2.lookup j revision hj, .inl ?_⟩⟩
    have hji : j ≠ i := by
      rintro rfl
      rw [hstep.waits.1] at hj
      cases hj
    rw [Crowd.waits, hstep.tasks_of_ne hji]
    exact hj
  have hafter := hreceived.runs hruns'
  refine ⟨hafter.link, fun j body' hj => ?_, fun j revision hj e c''' hstep' => ?_⟩
  · have := hafter.inactive hj
    cases this
  · obtain ⟨hle, hpending⟩ := hafter.pending j revision hj
    obtain ⟨hspec', -⟩ := hafter.sound.resume invariant_single hstep'
    rw [hstep'.waits.1] at hpending
    rcases hpending with hpending | hpending
    · exact hspec'.orderly.stale revision (Option.some.inj hpending) (hle.trans_lt hafter.later).ne
    · cases hpending

end Session

section Sample

/-- A page whose signer clicks while the status is being looked up. -/
def samplePending : Crowd Bool Wait Wait.Answer Page (Except Unit Unit) :=
  session (fun _ => ⟨List.replicate 32 7, rfl⟩) (fun _ => "1700000000".toList) (.ok none)
    (Bytes.utf8 "Agreement") (some (2, 3)) fun click => if click then .click false else .refresh

def sampleProved : List (Bool × Turn Wait Wait.Answer) :=
  let zero := ['0']
  let proof : Groth16Proof :=
    ⟨(zero, decimal fieldModulus.toNat), ((zero, zero), (zero, zero)), (zero, zero)⟩
  [(false, ⟨.event, ()⟩), (true, ⟨.event, ()⟩),
    (true, ⟨.getPasskeySecret, .ok (List.replicate 32 5)⟩),
    (true, ⟨.fullProve 0, .ok (proof, fun _ => zero)⟩)]

def sampleBody : Text :=
  (requestBody (List.replicate 32 7) 2 3
    ⟨.zero 64, .zero 128, .zero 64, .zero 128, .zero 32, .zero 32⟩).stringify

def sampleTransaction : Text := List.replicate 64 '2'

/-- A receipt without counters. -/
def sampleReceipt : RelayAnswer :=
  .ok (200, (Json.object [("transaction".toList, .string sampleTransaction)]).stringify)

/-- The receipt is shown, and the lookup that was pending changes nothing when it fails. -/
theorem one_signature_sample : ∃ c c' c'', Crowd.Runs samplePending c
    ∧ Crowd.Step c true ⟨.postSign sampleBody, sampleReceipt⟩ c'
    ∧ c'.state.txLink = some sampleTransaction
    ∧ Crowd.Step c' false ⟨.getStatus 1, .error "Failed to fetch"⟩ c''
    ∧ c''.state.progress = c'.state.progress ∧ c''.state.scanBtn = c'.state.scanBtn := by
  have hplay : (samplePending.play sampleProved).map (fun c => (c.waits true, c.waits false))
      = some (some (.postSign sampleBody), some (.getStatus 1)) := by decide +kernel
  obtain ⟨c, hc, hwaits⟩ := Option.map_eq_some_iff.1 hplay
  obtain ⟨hpost, hlookup⟩ := Prod.mk.inj hwaits
  have hruns := Crowd.runs_of_play hc
  have hreceipt : Receipt sampleReceipt sampleTransaction := ⟨_, rfl, rfl⟩
  obtain ⟨c', hstep⟩ := Crowd.exists_step hpost sampleReceipt
  have hlookup' : c'.waits false = some (.getStatus 1) := by
    rw [Crowd.waits, hstep.tasks_of_ne (by decide)]
    exact hlookup
  obtain ⟨c'', hstep'⟩ := Crowd.exists_step hlookup' (.error "Failed to fetch")
  obtain ⟨hlink, -, hstale⟩ := (one_signature _ _ _ _ _ _ hruns).2 true sampleBody sampleReceipt
    sampleTransaction c' hstep hreceipt c' .refl
  exact ⟨c, c', c'', hruns, hstep, hlink, hstep', hstale false 1 hlookup _ _ hstep'⟩

end Sample

end MultisigPage

end Oblivia

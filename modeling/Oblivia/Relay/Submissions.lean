import Oblivia.Chain.Provenance
import Oblivia.Client.AccountLayout
import Oblivia.Relay.Routes
/-!
# What a request submits

A sponsored request sends at most one transaction that registers the contract and at most one that
creates or signs, and its answer accounts for them (`receipts_accounted`): a receipt is that of a
transaction that was confirmed, a confirmed signature is always reported, and an answer that says
nothing was submitted is true.
-/

namespace Oblivia

namespace Relay

open Dialogue

/-- The requests to the network so far, with their answers. -/
abbrev History := List (Turn Rpc Rpc.Reply)

def isSend : Rpc → Bool
  | .send _ => true
  | _ => false

/-- A transaction that registers a contract. -/
def isRegister : Rpc → Bool
  | .send (.registerContract .. :: _) => true
  | _ => false

/-- A transaction that verifies a signature, and perhaps records it. -/
def isVerify : Rpc → Bool
  | .send (.verifyGroth16V2 .. :: _) => true
  | _ => false

/-- A transaction that creates an agreement, or verifies a signature. -/
def isSubmission : Rpc → Bool
  | .send (.createMultisig .. :: _) => true
  | q => isVerify q

def count (p : Rpc → Bool) (h : History) : ℕ := (h.map Sigma.fst).countP p

/-- The transaction was confirmed with this signature. -/
def Confirmed (p : Rpc → Bool) (tx : Text) (h : History) : Prop :=
  ∃ transaction, p (.send transaction) = true ∧ ⟨.send transaction, .ok tx⟩ ∈ h

/-- Nothing has been sent. -/
def Quiet (h : History) : Prop := count isSend h = 0

/-- At most a registration has been sent. -/
def Prepared (h : History) : Prop :=
  count isRegister h ≤ 1 ∧ count isSubmission h = 0

/-- No signature has been confirmed, and nothing has been sent twice. -/
structure Unconfirmed (h : History) : Prop where
  registers : count isRegister h ≤ 1
  submissions : count isSubmission h ≤ 1
  unconfirmed : ∀ tx, ¬ Confirmed isVerify tx h

/-- The signature has been confirmed, as this transaction. -/
structure Signed (tx : Text) (h : History) : Prop where
  registers : count isRegister h ≤ 1
  submissions : count isSubmission h = 1
  confirmed : Confirmed isVerify tx h
  unique : ∀ tx', Confirmed isVerify tx' h → tx' = tx

/-- The class of an error that may come after a transaction was sent. -/
def Failure.Late (f : Failure) : Prop :=
  (sendRelayError f).status ≠ 400 ∧ (sendRelayError f).status ≠ 503

/-- The answer accounts for what was sent. -/
structure Accounted (h : History) (response : Response) : Prop where
  registers : count isRegister h ≤ 1
  submissions : count isSubmission h ≤ 1
  genuine : ∀ v, response.body.field "transaction" = some v →
    ∃ tx, v = .string tx ∧ Confirmed isSubmission tx h
  reported : ∀ tx, Confirmed isVerify tx h →
    response.status = 200 ∧ response.body.field "transaction" = some (.string tx)
  untouched : response.status = 400 ∨ response.status = 503 → Quiet h

section Counting

variable {p : Rpc → Bool} {h : History} {q : Rpc} {r : q.Reply} {tx : Text}

@[simp]
theorem count_append : count p (h ++ [⟨q, r⟩]) = count p h + if p q then 1 else 0 := by
  simp [count, List.countP_cons]

theorem isVerify_isSubmission (hq : isVerify q = true) : isSubmission q = true := by
  cases q with
  | send transaction =>
    cases transaction with
    | nil => cases hq
    | cons ix ixs => cases ix <;> first | rfl | cases hq
  | _ => cases hq

theorem isSend_of_isRegister (hq : isRegister q = true) : isSend q = true := by
  cases q <;> first | rfl | cases hq

theorem isSend_of_isSubmission (hq : isSubmission q = true) : isSend q = true := by
  cases q <;> first | rfl | cases hq

theorem Confirmed.count_pos (hc : Confirmed p tx h) : 0 < count p h := by
  obtain ⟨transaction, hp, hmem⟩ := hc
  exact List.countP_pos_iff.2 ⟨_, List.mem_map_of_mem hmem, hp⟩

theorem Confirmed.mono {p' : Rpc → Bool} (hc : Confirmed p tx h)
    (hp : ∀ q, p q = true → p' q = true) : Confirmed p' tx h := by
  obtain ⟨transaction, hq, hmem⟩ := hc
  exact ⟨transaction, hp _ hq, hmem⟩

theorem confirmed_append : Confirmed p tx (h ++ [⟨q, r⟩]) ↔ Confirmed p tx h
    ∨ ∃ transaction, p (.send transaction) = true
      ∧ (⟨.send transaction, .ok tx⟩ : Turn Rpc Rpc.Reply) = ⟨q, r⟩ := by
  simp only [Confirmed, List.mem_append, List.mem_singleton, and_or_left, exists_or]

theorem not_confirmed_of_count (hc : count isSubmission h = 0) : ¬ Confirmed isVerify tx h := by
  intro hv
  have := (hv.mono fun _ => isVerify_isSubmission).count_pos
  omega

theorem Quiet.prepared (hq : Quiet h) : Prepared h := by
  have hle {p : Rpc → Bool} (hp : ∀ q, p q = true → isSend q = true) : count p h = 0 :=
    Nat.eq_zero_of_le_zero ((List.countP_mono_left fun q _ => hp q).trans_eq hq)
  exact ⟨by rw [hle fun _ => isSend_of_isRegister]; omega, hle fun _ => isSend_of_isSubmission⟩

theorem Prepared.unconfirmed (hp : Prepared h) : Unconfirmed h :=
  ⟨hp.1, by rw [hp.2]; omega, fun _ => not_confirmed_of_count hp.2⟩

end Counting

section Answers

variable {h : History} {tx : Text} {response : Response} {f : Failure}

/-- An answer without a receipt. -/
theorem Unconfirmed.accounted (hu : Unconfirmed h)
    (htx : response.body.field "transaction" = none)
    (huntouched : response.status = 400 ∨ response.status = 503 → Quiet h) :
    Accounted h response where
  registers := hu.registers
  submissions := hu.submissions
  genuine v hv := by simp [htx] at hv
  reported tx hc := absurd hc (hu.unconfirmed tx)
  untouched := huntouched

theorem Unconfirmed.accounted_error (hu : Unconfirmed h) (hf : f.Late) :
    Accounted h (sendRelayError f) :=
  hu.accounted rfl fun hs => hs.elim (absurd · hf.1) (absurd · hf.2)

theorem Quiet.accounted_error (hq : Quiet h) : Accounted h (sendRelayError f) :=
  hq.prepared.unconfirmed.accounted rfl fun _ => hq

/-- An answer with the receipt of a transaction that does not sign. -/
theorem Unconfirmed.accounted_created (hu : Unconfirmed h) (hc : Confirmed isSubmission tx h)
    (hstatus : response.status = 200)
    (htx : response.body.field "transaction" = some (.string tx)) : Accounted h response where
  registers := hu.registers
  submissions := hu.submissions
  genuine v hv := by
    rw [htx] at hv
    exact ⟨tx, (Option.some.inj hv).symm, hc⟩
  reported tx hc := absurd hc (hu.unconfirmed tx)
  untouched h400 := by omega

theorem Signed.accounted (hs : Signed tx h) (hstatus : response.status = 200)
    (htx : response.body.field "transaction" = some (.string tx)) : Accounted h response where
  registers := hs.registers
  submissions := hs.submissions.le
  genuine v hv := by
    rw [htx] at hv
    exact ⟨tx, (Option.some.inj hv).symm, hs.confirmed.mono fun _ => isVerify_isSubmission⟩
  reported tx' hc := by
    rw [hs.unique tx' hc]
    exact ⟨hstatus, htx⟩
  untouched h400 := by omega

end Answers

/-- What a property of the history becomes in a step of a handler: an error that comes out of it
may come after a transaction was sent. -/
def Leaves {α : Type} (P : History → Prop) (r : Except Failure α) (h : History) : Prop :=
  P h ∧ ∀ f, r = .error f → f.Late

/-- A property that requests other than transactions keep. -/
def Untouched (P : History → Prop) : Prop :=
  ∀ ⦃h q⦄ (r : q.Reply), isSend q = false → P h → P (h ++ [⟨q, r⟩])

section Steps

variable {α β : Type} {P P' : History → Prop} {h : History} {address : Pubkey}

theorem late_upstream (m : String) : (Failure.relay ⟨502, m⟩).Late := by
  simp [Failure.Late, sendRelayError]

theorem late_conflict (m : String) : (Failure.relay ⟨409, m⟩).Late := by
  simp [Failure.Late, sendRelayError]

theorem count_append_of_not_send {p : Rpc → Bool} {q : Rpc} {r : q.Reply}
    (hp : ∀ q, p q = true → isSend q = true) (hq : isSend q = false) :
    count p (h ++ [⟨q, r⟩]) = count p h := by
  have hpq : p q = false := by
    by_contra hcon
    simp [hp q (by simpa using hcon)] at hq
  simp [hpq]

theorem confirmed_append_of_not_send {p : Rpc → Bool} {q : Rpc} {r : q.Reply} {tx : Text}
    (hq : isSend q = false) : Confirmed p tx (h ++ [⟨q, r⟩]) ↔ Confirmed p tx h := by
  rw [confirmed_append, or_iff_left]
  rintro ⟨transaction, -, heq⟩
  rw [← (Sigma.mk.inj heq).1] at hq
  cases hq

theorem untouched_quiet : Untouched Quiet := fun _ _ _ hq hh =>
  (count_append_of_not_send (fun _ => id) hq).trans hh

theorem untouched_prepared : Untouched Prepared := fun _ _ _ hq hh =>
  ⟨(count_append_of_not_send (fun _ => isSend_of_isRegister) hq).trans_le hh.1,
    (count_append_of_not_send (fun _ => isSend_of_isSubmission) hq).trans hh.2⟩

theorem untouched_unconfirmed : Untouched Unconfirmed := fun _ _ _ hq hh =>
  ⟨(count_append_of_not_send (fun _ => isSend_of_isRegister) hq).trans_le hh.registers,
    (count_append_of_not_send (fun _ => isSend_of_isSubmission) hq).trans_le hh.submissions,
    fun tx hc => hh.unconfirmed tx ((confirmed_append_of_not_send hq).1 hc)⟩

theorem untouched_signed {tx : Text} : Untouched (Signed tx) := fun _ _ _ hq hh =>
  ⟨(count_append_of_not_send (fun _ => isSend_of_isRegister) hq).trans_le hh.registers,
    (count_append_of_not_send (fun _ => isSend_of_isSubmission) hq).trans hh.submissions,
    (confirmed_append_of_not_send hq).2 hh.confirmed,
    fun tx' hc => hh.unique tx' ((confirmed_append_of_not_send hq).1 hc)⟩

theorem leaves_fetchAccount (hP : Untouched P) (h₀ : P h) :
    Ensures noted Eq (fetchAccount address).run (Leaves P) h := by
  rw [ensures_fetchAccount]
  rintro _ rfl r _ rfl
  refine ⟨hP r rfl h₀, fun f hf => ?_⟩
  cases r with
  | ok info => cases hf
  | error m =>
    cases hf
    exact late_upstream _

theorem leaves_decodeAccount {x : Except String α} (h₀ : P h) :
    Ensures noted Eq (decodeAccount x).run (Leaves P) h := by
  rw [ensures_decodeAccount]
  refine ⟨h₀, fun f hf => ?_⟩
  cases x with
  | ok a => cases hf
  | error m =>
    cases hf
    exact late_upstream m

theorem leaves_assertRequestedConfig {existing : MultiSigContract} {threshold maxSigners : ℤ}
    (h₀ : P h) :
    Ensures noted Eq (assertRequestedConfig existing threshold maxSigners).run (Leaves P) h := by
  unfold assertRequestedConfig
  split
  · exact ⟨h₀, by simp⟩
  · rename_i m _
    refine ⟨h₀, fun f hf => ?_⟩
    cases hf
    exact late_conflict m

theorem Leaves.ok {a : α} (h₀ : P h) : Leaves P (.ok a : Except Failure α) h := ⟨h₀, by simp⟩

theorem Leaves.error {f : Failure} (h₀ : P h) (hf : f.Late) :
    Leaves P (.error f : Except Failure α) h :=
  ⟨h₀, fun _ heq => (Except.error.inj heq) ▸ hf⟩

theorem Leaves.bind {x : Handler α} {f : α → Handler β} {R : Except Failure β → History → Prop}
    (hx : Ensures noted Eq x.run (Leaves P) h)
    (hf : ∀ a h, P h → Ensures noted Eq (f a).run R h)
    (hR : ∀ e h, P h → e.Late → R (.error e) h) : Ensures noted Eq (x >>= f).run R h :=
  hx.andThen (fun a h ha => hf a h ha.1) fun e h he => hR e h he.1 (he.2 e rfl)

end Steps

section Sends

variable {h : History} {q : Rpc} {transaction : List Instruction} {m : String} {tx : Text}

theorem isSubmission_of_isRegister (hq : isRegister q = true) : isSubmission q = false := by
  cases q with
  | send transaction =>
    cases transaction with
    | nil => cases hq
    | cons ix ixs => cases ix <;> first | rfl | cases hq
  | _ => cases hq

/-- The registration is the first transaction. -/
theorem Quiet.register {r : q.Reply} (hh : Quiet h) (hq : isRegister q = true) :
    Prepared (h ++ [⟨q, r⟩]) := by
  have hreg : count isRegister h = 0 := Nat.eq_zero_of_le_zero
    ((List.countP_mono_left fun q _ => isSend_of_isRegister).trans_eq hh)
  refine ⟨by simp [hreg, hq], ?_⟩
  rw [count_append, hh.prepared.2, isSubmission_of_isRegister hq]
  rfl

section Submission

variable (hh : Prepared h) (hsub : isSubmission (.send transaction) = true)

include hh hsub

theorem Prepared.counts {r : Except String Text} :
    count isRegister (h ++ [⟨.send transaction, r⟩]) ≤ 1
      ∧ count isSubmission (h ++ [⟨.send transaction, r⟩]) = 1 := by
  have hreg : isRegister (.send transaction) = false := by
    by_contra hcon
    rw [isSubmission_of_isRegister (by simpa using hcon)] at hsub
    cases hsub
  simpa [hreg, hsub, hh.2] using hh.1

/-- A transaction that has confirmed no signature. -/
theorem Prepared.unsigned {r : Except String Text}
    (hr : ∀ tx, r = .ok tx → isVerify (.send transaction) = false) :
    Unconfirmed (h ++ [⟨.send transaction, r⟩]) := by
  obtain ⟨hreg, hsubmitted⟩ := hh.counts hsub (r := r)
  refine ⟨hreg, hsubmitted.le, fun tx hc => ?_⟩
  rcases confirmed_append.1 hc with hc | ⟨_, hv, heq⟩
  · exact hh.unconfirmed.unconfirmed tx hc
  · cases heq
    rw [hr tx rfl] at hv
    cases hv

theorem Prepared.failed : Unconfirmed (h ++ [⟨.send transaction, .error m⟩]) :=
  hh.unsigned hsub (by simp)

end Submission

theorem Prepared.signed (hh : Prepared h) (hv : isVerify (.send transaction) = true) :
    Signed tx (h ++ [⟨.send transaction, .ok tx⟩]) := by
  obtain ⟨hreg, hsubmitted⟩ := hh.counts (isVerify_isSubmission hv) (r := .ok tx)
  refine ⟨hreg, hsubmitted, confirmed_append.2 (.inr ⟨transaction, hv, rfl⟩), fun tx' hc => ?_⟩
  rcases confirmed_append.1 hc with hc | ⟨_, -, heq⟩
  · exact absurd hc (hh.unconfirmed.unconfirmed tx')
  · cases heq
    rfl

end Sends

section Handlers

variable {h : History} {contractPda multisigPda payer registryPda address : Pubkey}
  {contractHashBytes : Bytes 32} {threshold maxSigners : ℤ} {D : Pda} {coder : Coder}
  {transaction : List Instruction} {P : History → Prop}

/-- An initialization that fails leaves what its transaction left, whatever is read then. -/
theorem ensures_recovery {γ : Type} {readAccount : Option AccountInfo → Handler (Option γ)}
    {R : Except Failure (Option Text) → History → Prop} (hP : Untouched P)
    (hread : ∀ info h, P h → Ensures noted Eq (readAccount info).run (Leaves P) h)
    (hfailed : ∀ m, P (h ++ [⟨.send transaction, .error m⟩]))
    (hsent : ∀ tx, R (.ok (some tx)) (h ++ [⟨.send transaction, .ok tx⟩]))
    (hexists : ∀ h, P h → R (.ok none) h) (herror : ∀ e h, P h → e.Late → R (.error e) h) :
    Ensures noted Eq
      (initializeOrReadExisting (submit transaction) (fetchAccount address) readAccount).run
      R h := by
  refine ensures_initializeOrReadExisting (ensures_submit.2 ?_)
  rintro _ rfl r _ rfl
  cases r with
  | ok tx => exact hsent tx
  | error m =>
    refine (leaves_fetchAccount hP (hfailed m)).mono fun info h hinfo => ?_
    cases info with
    | error e => exact herror _ h hinfo.1 (late_upstream _)
    | ok info =>
      refine (hread info h hinfo.1).mono fun account h haccount => ?_
      rcases account with e | _ | account
      · exact herror e h haccount.1 (haccount.2 e rfl)
      · exact herror _ h haccount.1 (late_upstream _)
      · exact hexists h haccount.1

/-- After it, at most a registration has been sent. -/
theorem leaves_registerAbsent {contract : Option Contract} (hq : Quiet h) :
    Ensures noted Eq
      (registerAbsent coder registryPda contractPda payer contractHashBytes contract).run
      (Leaves Prepared) h := by
  unfold registerAbsent
  split_ifs
  · refine Leaves.bind ?_ (fun a h hh => .ok hh) fun e h hh he => .error hh he
    exact ensures_recovery untouched_prepared (fun info h hh => leaves_decodeAccount hh)
      (fun m => hq.register rfl) (fun tx => .ok (hq.register rfl)) (fun h hh => .ok hh)
      fun e h hh he => .error hh he
  · exact .ok hq.prepared

theorem Leaves.accounted {P : History → Prop} (hP : ∀ h, P h → Unconfirmed h) {e : Failure}
    {h : History} (hh : P h) (he : e.Late) : Accounted h (answer (.error e)) :=
  (hP h hh).accounted_error he

/-- As long as nothing has been sent, any error will do. -/
theorem ensures_before {α : Type} {x : Handler α} {f : α → Handler Response}
    (hx : Ensures noted Eq x.run (fun _ h => Quiet h) h)
    (hf : ∀ a h, Quiet h → Ensures noted Eq (f a).run (fun r h => Accounted h (answer r)) h) :
    Ensures noted Eq (x >>= f).run (fun r h => Accounted h (answer r)) h :=
  hx.andThen hf fun _ _ hh => hh.accounted_error

theorem quiet_fetchAccount (hq : Quiet h) :
    Ensures noted Eq (fetchAccount address).run (fun _ h => Quiet h) h :=
  (leaves_fetchAccount untouched_quiet hq).mono fun _ _ hr => hr.1

/-- The signature is sent; what comes after it starts from the receipt. -/
theorem ensures_verify {f : Text → Handler Response} (hp : Prepared h)
    (hv : isVerify (.send transaction) = true)
    (hf : ∀ tx h, Signed tx h →
      Ensures noted Eq (f tx).run (fun r h => Accounted h (answer r)) h) :
    Ensures noted Eq (submit transaction >>= f).run (fun r h => Accounted h (answer r)) h := by
  refine Ensures.andThen (P := fun r h => match r with
    | .ok tx => Signed tx h
    | .error e => Unconfirmed h ∧ e.Late) (ensures_submit.2 ?_) hf
    fun e h he => he.1.accounted_error he.2
  rintro _ rfl r _ rfl
  cases r with
  | ok tx => exact hp.signed hv
  | error m => exact ⟨hp.failed (isVerify_isSubmission hv), late_upstream _⟩

theorem ensures_postSign {keypair : Option Pubkey} {body : Option Json} (hq : Quiet h) :
    Ensures noted Eq (postSign D coder keypair body).run (fun r h => Accounted h (answer r)) h := by
  unfold postSign
  refine ensures_before (ensures_classified.2 hq) fun ⟨contractHashBytes, proof⟩ h hq => ?_
  refine ensures_before (ensures_getProgram.2 hq) fun payer h hq => ?_
  refine ensures_before (ensures_unclassified.2 hq) fun ⟨registryPda, _⟩ h hq => ?_
  refine ensures_before (ensures_unclassified.2 hq) fun ⟨contractPda, _⟩ h hq => ?_
  refine ensures_before (ensures_unclassified.2 hq) fun ⟨signaturePda, _⟩ h hq => ?_
  refine ensures_before (ensures_unclassified.2 hq) fun ⟨signerRecordPda, _⟩ h hq => ?_
  refine ensures_before (quiet_fetchAccount hq) fun info h hq => ?_
  refine ensures_before (ensures_decodeAccount.2 hq) fun contract h hq => ?_
  refine Leaves.bind (leaves_registerAbsent hq) (fun _ h hp => ?_)
    fun e h hp he => hp.unconfirmed.accounted_error he
  exact ensures_verify hp rfl fun tx h hs => hs.accounted rfl rfl

/-- The settings of an agreement that exists are compared with those requested. -/
theorem leaves_compare {existing : Option MultiSigContract} (h₀ : P h) :
    Ensures noted Eq (existing.elim (pure ()) (assertRequestedConfig · threshold maxSigners) :
      Handler Unit).run (Leaves P) h := by
  cases existing with
  | none => exact .ok h₀
  | some existing => exact leaves_assertRequestedConfig h₀

theorem ensures_createAgreement (hp : Prepared h) :
    Ensures noted Eq (createAgreement coder contractPda multisigPda payer contractHashBytes
      threshold maxSigners).run (fun r h => Leaves Unconfirmed r h
        ∧ ∀ tx, r = .ok (some tx) → Confirmed isSubmission tx h) h := by
  unfold createAgreement
  refine ensures_recovery untouched_unconfirmed (fun info h hu => ?_) (fun m => hp.failed rfl)
    (fun tx => ?_) (fun h hu => ⟨.ok hu, by simp⟩) fun e h hu he => ⟨.error hu he, by simp⟩
  · refine Leaves.bind (leaves_decodeAccount hu) (fun account h hu => ?_) fun e h => Leaves.error
    exact Leaves.bind (leaves_compare hu) (fun _ h hu => .ok hu) fun e h => Leaves.error
  · refine ⟨.ok (hp.unsigned rfl fun _ _ => rfl), fun tx' heq => ?_⟩
    cases heq
    exact confirmed_append.2 (.inr ⟨_, rfl, rfl⟩)

theorem ensures_postMultisigCreate {base58 : Pubkey → Text} {keypair : Option Pubkey}
    {body : Option Json} (hq : Quiet h) :
    Ensures noted Eq (postMultisigCreate D coder base58 keypair body).run
      (fun r h => Accounted h (answer r)) h := by
  have hlate : ∀ e h, Prepared h → e.Late → Accounted h (answer (.error e)) :=
    fun e h hp he => hp.unconfirmed.accounted_error he
  have hexists : ∀ {h}, Unconfirmed h → ∀ multisigPda,
      Accounted h (alreadyExists base58 multisigPda) :=
    fun hu multisigPda => hu.accounted rfl (by simp [alreadyExists])
  unfold postMultisigCreate
  refine ensures_before (ensures_classified.2 hq) fun ⟨⟨threshold, maxSigners⟩, hash⟩ h hq => ?_
  refine ensures_before (ensures_getProgram.2 hq) fun payer h hq => ?_
  refine ensures_before (ensures_unclassified.2 hq) fun ⟨registryPda, _⟩ h hq => ?_
  refine ensures_before (ensures_unclassified.2 hq) fun ⟨contractPda, _⟩ h hq => ?_
  refine ensures_before (ensures_unclassified.2 hq) fun seeds h hq => ?_
  refine ensures_before (ensures_unclassified.2 hq) fun ⟨multisigPda, _⟩ h hq => ?_
  refine ensures_before (quiet_fetchAccount hq) fun contractInfo h hq => ?_
  refine ensures_before (ensures_decodeAccount.2 hq) fun contract h hq => ?_
  refine ensures_before (quiet_fetchAccount hq) fun multisigInfo h hq => ?_
  refine ensures_before (ensures_decodeAccount.2 hq) fun existing h hq => ?_
  refine ensures_before ((leaves_compare hq).mono fun _ _ hr => hr.1) fun _ h hq => ?_
  refine Leaves.bind (leaves_registerAbsent hq) (fun _ h hp => ?_) hlate
  split
  · exact hexists hp.unconfirmed multisigPda
  · refine (ensures_createAgreement hp).andThen (fun result h hr => ?_) fun e h he =>
      he.1.1.accounted_error (he.1.2 e rfl)
    cases result with
    | none => exact hexists hr.1.1 multisigPda
    | some tx => exact hr.1.1.accounted_created (hr.2 tx rfl) rfl rfl

theorem ensures_postMultisigSign {keypair : Option Pubkey} {body : Option Json} (hq : Quiet h) :
    Ensures noted Eq (postMultisigSign D keypair body).run
      (fun r h => Accounted h (answer r)) h := by
  have hbuild : ∀ {h : History} {ix : Instruction}, Quiet h → Ensures noted Eq
      (await Failure.other (.request (Rpc.build ix))).run (fun _ h => Quiet h) h := by
    rintro h ix hq _ rfl r _ rfl
    exact untouched_quiet r rfl hq
  unfold postMultisigSign
  refine ensures_before (ensures_classified.2 hq)
    fun ⟨⟨threshold, maxSigners⟩, hash, proof⟩ h hq => ?_
  refine ensures_before (ensures_getProgram.2 hq) fun payer h hq => ?_
  refine ensures_before (ensures_unclassified.2 hq) fun ⟨registryPda, _⟩ h hq => ?_
  refine ensures_before (ensures_unclassified.2 hq) fun ⟨contractPda, _⟩ h hq => ?_
  refine ensures_before (ensures_unclassified.2 hq) fun ⟨signaturePda, _⟩ h hq => ?_
  refine ensures_before (ensures_unclassified.2 hq) fun seeds h hq => ?_
  refine ensures_before (ensures_unclassified.2 hq) fun ⟨multisigPda, _⟩ h hq => ?_
  refine ensures_before (ensures_unclassified.2 hq) fun ⟨memberPda, _⟩ h hq => ?_
  refine ensures_before (ensures_unclassified.2 hq) fun ⟨signerRecord, _⟩ h hq => ?_
  refine ensures_before (hbuild hq) fun _ h hq => ?_
  refine ensures_before (ensures_unclassified.2 hq) fun ⟨signerRecord', _⟩ h hq => ?_
  refine ensures_before (hbuild hq) fun _ h hq => ?_
  refine ensures_verify hq.prepared rfl fun tx h hs => ?_
  rw [ensures_tryCatch]
  refine Ensures.andThen (P := fun _ h => Signed tx h) ?_ (fun ms h hs => ?_) fun e h hs => ?_
  · rintro _ rfl r _ rfl
    exact untouched_signed r rfl hs
  · exact hs.accounted rfl rfl
  · exact hs.accounted rfl rfl

end Handlers

variable (D : Pda) (coder : Coder) (base58 : Pubkey → Text) (keypair : Option Pubkey)

theorem ensures_sponsored (passage : Passage) (route : Route) (body : Option Json) :
    Ensures noted Eq (sponsored passage (handler D coder base58 keypair route body))
      (fun response h => Accounted h response) [] := by
  have hq : Quiet [] := rfl
  cases passage with
  | limited => exact hq.accounted_error
  | refused error => exact hq.accounted_error
  | passed =>
    refine ensures_respond.2 ?_
    cases route with
    | sign => exact ensures_postSign hq
    | create => exact ensures_postMultisigCreate hq
    | multisigSign => exact ensures_postMultisigSign hq

/-- Whatever the body is, and whatever the network answers, a sponsored request never sends more
than one registration, nor more than one other transaction, and its answer accounts for what it
sent. -/
theorem receipts_accounted (passage : Passage) (route : Route) (body : Option Json) {t : History}
    {d : Dialogue Rpc Rpc.Reply Response}
    (h : Follows (sponsored passage (handler D coder base58 keypair route body)) t d) :
    (asked t d).countP isRegister ≤ 1 ∧ (asked t d).countP isSubmission ≤ 1
      ∧ ∀ response, d = .done response → Accounted t response := by
  have haccounted {t : History} {response : Response} (hdone : Follows _ t (.done response)) :
      Accounted t response :=
    (ensures_sponsored D coder base58 keypair passage route body).of_follows hdone
  obtain ⟨u, response, hdone, hpre⟩ := h.exists_complete
  refine ⟨?_, ?_, fun response hd => haccounted (hd ▸ h)⟩
  · exact (hpre.sublist.countP_le).trans (haccounted hdone).registers
  · exact (hpre.sublist.countP_le).trans (haccounted hdone).submissions

section Sample

def sampleBody : Json :=
  .object [("contractHash".toList, jsonBytes sampleHash.toList),
    ("threshold".toList, .number (.ofNat 2)), ("maxSigners".toList, .number (.ofNat 3))]

/-- A client creates an agreement on a contract that is not registered yet. -/
def sampleTurns : History :=
  [⟨.getAccountInfo sampleContract, .ok none⟩, ⟨.getAccountInfo sampleMultisig, .ok none⟩,
    ⟨.send [.registerContract (.of sampleRegistry sampleContract samplePayer) sampleHash],
      .ok "5RegisterTx".toList⟩,
    ⟨.send [.createMultisig (.of sampleContract sampleMultisig samplePayer) sampleHash 2 3],
      .ok "5CreateTx".toList⟩]

theorem receipts_accounted_sample : ∃ response, Accounted sampleTurns response
    ∧ response.status = 200 ∧ count isRegister sampleTurns = 1
    ∧ count isSubmission sampleTurns = 1 := by
  have hplay : (play (sponsored .passed (handler samplePda idlCoder toBase58
      (some samplePayer) .create (some sampleBody))) sampleTurns).map Response.status
      = some 200 := by
    decide +kernel
  obtain ⟨response, hresponse, hstatus⟩ := Option.map_eq_some_iff.1 hplay
  exact ⟨response, (receipts_accounted samplePda idlCoder _ _ _ _ _
    (follows_of_play hresponse)).2.2 response rfl, hstatus, by decide, by decide⟩

end Sample

end Relay

end Oblivia

import Oblivia.Client.CoSignPage
import Oblivia.Client.RelayService
/-!
# What the co-signing page is answered

How the requests of the page are served: by the routes of the relay, over a network that runs the
program, if they are not lost. An answer that the page accepts vouches for the chain, and goes on
to do so: a status is not ahead of the agreement, and a receipt is of a key that the agreement
counts (`vouch_servers`).
-/

namespace Oblivia

open Dialogue

variable {D : Pda} {groth16 : Groth16Verifier} {s s' : Store} {h k : Bytes 32} {t n : UInt8}

/-- The agreement counts the key. -/
def CoSigned (D : Pda) (s : Store) (h : Bytes 32) (t n : UInt8) (k : Bytes 32) : Prop :=
  ∃ m b mm, D.findProgramAddress (.multisig h t n) = some (m, b)
    ∧ StoredAt D s (.member m k) (.member mm)

/-- The agreement is there, and it has come as far as this status says. -/
def Behind (D : Pda) (s : Store) (h : Bytes 32) (t n : UInt8)
    (status : MultisigPage.AgreementStatus) : Prop :=
  ∃ ms, StoredAt D s (.multisig h t n) (.multisig ms) ∧ status.threshold = t.toNat
    ∧ status.collected ≤ ms.signaturesCollected.toNat
    ∧ (status.finalized = true → ms.finalized = true)

section Later

theorem CoSigned.later (hl : Later D groth16 s s') (hk : CoSigned D s h t n k) :
    CoSigned D s' h t n k := by
  obtain ⟨m, b, mm, hm, a, b', ha, hx⟩ := hk
  exact ⟨m, b, mm, hm, a, b', ha, hl.extends.member hx⟩

theorem Behind.later {status : MultisigPage.AgreementStatus} (hl : Later D groth16 s s')
    (hb : Behind D s h t n status) : Behind D s' h t n status := by
  obtain ⟨ms, ⟨m, b, hm, hx⟩, ht, hc, hf⟩ := hb
  obtain ⟨ms', hx', -, -, -, -, hle, hfin⟩ := hl.extends.multisig hx
  rw [UInt8.le_iff_toNat_le] at hle
  refine ⟨ms', ⟨m, b, hm, hx'⟩, ht, by omega, fun hst => ?_⟩
  rw [hfin (hf hst)]
  exact hf hst

/-- What an agreement is shown as. -/
theorem behind_shown (hs : Reachable D groth16 s) {m : Pubkey} {b : UInt8} {ms : MultiSigContract}
    (hm : D.findProgramAddress (.multisig h t n) = some (m, b))
    (hx : s.lookup m = some (.multisig ms)) : Behind D s h t n ms.shown := by
  obtain ⟨ht, -⟩ : ms.threshold = t ∧ ms.maxSigners = n := hs.sound.fits hm hx
  exact ⟨ms, ⟨m, b, hm, hx⟩, by rw [MultiSigContract.shown, ht], le_rfl, id⟩

end Later

section Counted

variable {verify : VerifyGroth16V2} {record : RecordVerifiedMultiSig} {proof : ProofArgs}
  {rt : Runtime}

/-- A combined transaction leaves the key counted. -/
theorem coSigned_of_exec {b : UInt8}
    (hm : D.findProgramAddress (.multisig h t n) = some (record.multisig.key, b))
    (hexec : Batch.exec (exec D groth16) s
      [⟨rt, .verifyGroth16V2 verify proof⟩, ⟨rt, .recordVerifiedMultisig record h k⟩] = .ok s') :
    CoSigned D s' h t n k := by
  obtain ⟨s₁, hv, hrest⟩ := Batch.exec_cons_ok.1 hexec
  obtain ⟨s₂, hr, hnil⟩ := Batch.exec_cons_ok.1 hrest
  rw [Batch.exec, Except.ok.injEq] at hnil
  subst hnil
  cases exec_eq_ok.1 hr with
  | @recordVerifiedMultisig _ _ _ _ r c ms sr sg bump g =>
    have hne : record.multisigMember.key ≠ record.multisig.key := by
      intro heq
      have := Pda.find_inj (heq ▸ g.member.address) hm
      cases this
    refine ⟨_, b, newMember rt record k bump, hm, _, bump, g.member.address, ?_⟩
    rw [recordStore, Finmap.lookup_insert_of_ne _ hne, Finmap.lookup_insert]

end Counted

section Routes

variable {bytes : Account → List UInt8} {coder : Coder} {keypair : Option Pubkey}
  {body : Option Json} {proof : ProofArgs}

/-- A receipt is of a key that the agreement counts. -/
theorem yields_counted
    (hreq : Relay.multisigSignRequest body = .ok ((t.toNat, n.toNat), h, proof)) :
    Yields (Serve D groth16 bytes) (Later D groth16) (Relay.postMultisigSign D keypair body)
      (fun _ s => CoSigned D s h t n proof.keyCommitment) s := by
  unfold Relay.postMultisigSign
  rw [hreq, Relay.classified_bind]
  refine (yields_trivial _).bind fun payer s _ => ?_
  refine (yields_trivial _).bind fun ⟨registryPda, _⟩ s _ => ?_
  refine (yields_trivial _).bind fun ⟨contractPda, _⟩ s _ => ?_
  refine (yields_trivial _).bind fun ⟨signaturePda, _⟩ s _ => ?_
  refine (Relay.yields_multisigSeeds (I := fun _ => True) trivial).bind fun seeds s hseeds => ?_
  obtain ⟨rfl, -⟩ := hseeds
  refine (Relay.yields_find (d := .multisig h t n) (I := fun _ => True) trivial).bind
    fun ⟨m, b⟩ s ⟨hm, _⟩ => ?_
  refine (yields_trivial _).bind fun ⟨memberPda, _⟩ s _ => ?_
  refine (yields_trivial _).bind fun ⟨signerRecord, _⟩ s _ => ?_
  refine (yields_trivial _).bind fun _ s _ => ?_
  refine (yields_trivial _).bind fun ⟨signerRecord', _⟩ s _ => ?_
  refine (yields_trivial _).bind fun _ s _ => ?_
  refine Yields.bind (Relay.yields_submit fun s₁ h₁ tx s₂ h₂ => ?_) fun tx s hk =>
    yields_later (fun _ _ hl hk => hk.later hl) _ hk
  cases h₂ with
  | sent hexec => exact coSigned_of_exec hm hexec

/-- What the relay says of an agreement is not ahead of it. -/
theorem yields_behind (henc : coder.Encodes bytes) (hs : Reachable D groth16 s) (ht : 0 < t)
    (htn : t ≤ n) : Yields (Serve D groth16 bytes) (Later D groth16)
      (Relay.getMultisigStatus D coder (hashParam h) (some (Nat.toDigits 10 t.toNat))
        (some (Nat.toDigits 10 n.toNat)))
      (fun response s => ∀ status, MultisigPage.validateStatus response.body 0 = .ok status →
        Behind D s h t n status) s := by
  have hseeds : multisigSeeds h t.toNat n.toNat = .ok (Derivation.multisig h t n).seeds :=
    multisigSeeds_eq_ok.2 ⟨ht, htn, rfl⟩
  unfold Relay.getMultisigStatus
  rw [parseStatusHash_hashParam, Relay.classified_bind, parseStatusConfig_toDigits ht htn,
    Relay.classified_bind]
  simp only [hseeds, Relay.unclassified_bind]
  refine (Relay.yields_find (d := .contract h) hs).bind fun ⟨c, b⟩ s ⟨hc, hs⟩ => ?_
  refine (Relay.yields_find (d := .multisig h t n) hs).bind fun ⟨m, b'⟩ s ⟨hm, hs⟩ => ?_
  refine Yields.bind (P := fun info s => Reachable D groth16 s ∧ Shows bytes s m info)
    (Relay.yields_fetchAccount fun s₁ h₁ info s₂ h₂ => ?_) fun info s ⟨hs, hshow⟩ => ?_
  · cases h₂ with
    | read hshow => exact ⟨h₁.reachable hs, hshow⟩
  · have hread := hshow.readMultisigAccount henc hs hc hm
    unfold Relay.readMultisig
    rw [hread]
    refine yields_pure.2 fun status hv => ?_
    rcases hms : (s.lookup m).bind Account.asMultisig with _ | ms
    · rw [hms] at hv
      cases hv
    · rw [hms] at hv
      obtain ⟨x, hx, hview⟩ := Option.bind_eq_some_iff.1 hms
      rw [Account.asMultisig_eq_some] at hview
      subst hview
      have hvalid : MultisigPage.validateStatus (Relay.statusAnswer (some ms)).body 0
          = .ok ms.shown :=
        MultisigPage.validateStatus_eq_ok rfl rfl rfl (shown_valid hs hx (Nat.zero_le _))
      have heq : status = ms.shown := Except.ok.inj (hv.symm.trans hvalid)
      exact heq ▸ behind_shown hs hm hx

end Routes

namespace MultisigPage

section Servers

variable (D : Pda) (groth16 : Groth16Verifier) (bytes : Account → List UInt8) (coder : Coder)
  (base58 : Pubkey → Text) (fromSecretKey : List UInt8 → Except String Pubkey)
  (secretHex : Option Text) (h : Bytes 32) (t n : UInt8)

/-- The request for the status of the agreement. -/
def statusRequest : Relay.Request :=
  .status (hashParam h) (some (Nat.toDigits 10 t.toNat)) (some (Nat.toDigits 10 n.toNat))

/-- The relay and the network behind it, for the page of this agreement. What the page asks of the
browser is answered in any way. -/
def servers : Servers Wait Wait.Answer Rpc Rpc.Reply Store where
  serve := Serve D groth16 bytes
  drift := Later D groth16
  offers
    | .getStatus _, d => Relay.Offers D coder base58 fromSecretKey secretHex (statusRequest h t n) d
    | .postSign body, d =>
      Relay.Offers D coder base58 fromSecretKey secretHex (.ofText .multisigSign body) d
    | _, _ => False
  lost
    | .getStatus _, answer => Relay.Lost answer
    | .postSign _, answer => Relay.Lost answer
    | _, _ => True

/-- What an answer vouches for if the page accepts it. -/
def Vouched : (q : Wait) → q.Answer → Store → Prop
  | .getStatus _, answer, s => ∀ data status, received answer = .ok data →
    validateStatus data 0 = .ok status → Behind D s h t n status
  | .postSign body, answer, s => ∀ payload,
    body = (requestBody h.toList t.toNat n.toNat payload).stringify →
    ∀ data tx, received answer = .ok data →
      validateTransaction (data.field "transaction") = .ok tx →
      CoSigned D s h t n payload.keyCommitment
        ∧ (isBool true (data.field "statusUnavailable") = false → ∀ status,
          validateStatus data 1 = .ok status → Behind D s h t n status)
  | _, _, _ => True

end Servers

section Vouch

variable {bytes : Account → List UInt8} {coder : Coder} {base58 : Pubkey → Text}
  {fromSecretKey : List UInt8 → Except String Pubkey} {secretHex : Option Text}

theorem isOk_of_relayResponse {status : ℕ} {text : Text} {data : Json}
    (h : relayResponse status text = .ok data) : isOk status = true := by
  unfold relayResponse at h
  generalize Json.parse text = parsed at h
  rcases parsed with _ | v
  · cases h
  · cases v with
    | object fields =>
      by_contra hstatus
      rw [Bool.not_eq_true] at hstatus
      simp [hstatus] at h
    | _ => cases h

/-- A lost request has no answer that the page accepts. -/
theorem received_of_lost {answer : RelayAnswer} {data : Json} (h : Relay.Lost answer) :
    received answer ≠ .ok data := by
  rcases answer with m | ⟨status, text⟩
  · exact nofun
  · intro hdata
    have hlost : isOk status = false := h
    exact Bool.noConfusion (hlost.symm.trans (isOk_of_relayResponse hdata))

theorem received_sent {response : Relay.Response} {data : Json}
    (h : received response.sent = .ok data) : data = response.body := by
  simp only [received, Relay.Response.sent, relayResponse, Json.parse_stringify] at h
  split at h
  · split_ifs at h
    exact (Except.ok.inj h).symm
  · cases h

theorem Requested.find {body : Option Json} {proof : ProofArgs} {m : Pubkey}
    (hreq : Relay.multisigSignRequest body = .ok ((t.toNat, n.toNat), h, proof))
    (hm : Requested D body m) : ∃ b, D.findProgramAddress (.multisig h t n) = some (m, b) := by
  obtain ⟨t', n', h', proof', seeds, b, hreq', hseeds, hfind⟩ := hm
  rw [hreq, Except.ok.injEq, Prod.mk.injEq, Prod.mk.injEq, Prod.mk.injEq] at hreq'
  obtain ⟨⟨rfl, rfl⟩, rfl, rfl⟩ := hreq'
  obtain ⟨-, -, rfl⟩ := multisigSeeds_eq_ok.1 hseeds
  exact ⟨b, findProgramAddressSync_seeds.1 hfind⟩

theorem multisigSignRequest_payload (ht : 0 < t) (htn : t ≤ n) (payload : ProofArgs) :
    Relay.multisigSignRequest (some (requestBody h.toList t.toNat n.toNat payload))
      = .ok ((t.toNat, n.toNat), h, payload) :=
  Relay.multisigSignRequest_requestBody h payload (UInt8.lt_iff_toNat_lt.1 ht)
    (UInt8.le_iff_toNat_le.1 htn) (by have := n.toNat_lt; omega)

/-- A signature that the relay answers for is what it says. -/
theorem ensures_vouched {keypair : Option Pubkey} (hs : Reachable D groth16 s) (ht : 0 < t)
    (htn : t ≤ n) (payload : ProofArgs) :
    Ensures (Serve D groth16 bytes) (Later D groth16)
      (Relay.postMultisigSign D keypair
        (some (requestBody h.toList t.toNat n.toNat payload))).run
      (fun r s => (Relay.answer r).body.field "transaction" ≠ none →
        CoSigned D s h t n payload.keyCommitment
          ∧ (isBool true ((Relay.answer r).body.field "statusUnavailable") = false → ∀ status,
            validateStatus (Relay.answer r).body 1 = .ok status → Behind D s h t n status)) s := by
  have hreq := multisigSignRequest_payload (h := h) ht htn payload
  refine ((ensures_reachable hs _).and ((ensures_sign hs).and (yields_counted hreq))).mono ?_
  rintro r s ⟨hs, hshown, hcounted⟩ hne
  rcases r with e | response
  · exact absurd rfl hne
  refine ⟨hcounted response rfl, fun hread status hv => ?_⟩
  rcases hshown hne with hunread | ⟨m, ms, hm, hx, hvalid⟩
  · rw [hunread] at hread
    cases hread
  · obtain ⟨b, hfind⟩ := Requested.find hreq hm
    obtain rfl : status = ms.shown := Except.ok.inj (hv.symm.trans hvalid)
    exact behind_shown hs hfind hx

/-- Nothing is accepted of an answer that names no transaction. -/
theorem vouched_of_no_transaction {text : Text} {answer : RelayAnswer}
    (hno : ∀ data tx, received answer = .ok data →
      validateTransaction (data.field "transaction") ≠ .ok tx) :
    Vouched D h t n (.postSign text) answer s :=
  fun _ _ data tx hdata htx => absurd htx (hno data tx hdata)

theorem vouched_error {text : Text} {f : Relay.Failure} :
    Vouched D h t n (.postSign text) (Relay.sendRelayError f).sent s := by
  refine vouched_of_no_transaction fun data tx hdata => ?_
  rw [received_sent hdata]
  exact nofun

/-- The work on a submission. -/
theorem ensures_post (hs : Reachable D groth16 s) (ht : 0 < t) (htn : t ≤ n) {text : Text}
    {d : Dialogue Rpc Rpc.Reply RelayAnswer}
    (hd : Relay.Offers D coder base58 fromSecretKey secretHex
      (.ofText .multisigSign text) d) :
    Ensures (Serve D groth16 bytes) (Later D groth16) d
      (Vouched D h t n (.postSign text)) s := by
  refine Relay.ensures_offers hd (fun _ => vouched_error) fun body keypair hbody => ?_
  by_cases hpayload : ∃ payload, text = (requestBody h.toList t.toNat n.toNat payload).stringify
  · obtain ⟨payload, htext⟩ := hpayload
    obtain rfl := Relay.readBody_stringify htext hbody
    refine (ensures_vouched hs ht htn payload).mono fun r s hr => ?_
    intro payload' htext' data tx hdata htx
    have hbodies := congrArg (Relay.multisigSignRequest ∘ some)
      (Relay.readBody_stringify htext' hbody)
    simp only [Function.comp_apply, multisigSignRequest_payload ht htn] at hbodies
    obtain rfl : payload = payload' := (Prod.mk.inj (Prod.mk.inj (Except.ok.inj hbodies)).2).2
    obtain rfl := received_sent hdata
    refine hr fun hnone => ?_
    rw [hnone] at htx
    cases htx
  · exact (ensures_trivial _).mono fun r s _ payload htext => absurd ⟨payload, htext⟩ hpayload

/-- The work on a lookup. -/
theorem ensures_status (henc : coder.Encodes bytes) (hs : Reachable D groth16 s) (ht : 0 < t)
    (htn : t ≤ n) (revision : ℕ) {d : Dialogue Rpc Rpc.Reply RelayAnswer}
    (hd : Relay.Offers D coder base58 fromSecretKey secretHex (statusRequest h t n) d) :
    Ensures (Serve D groth16 bytes) (Later D groth16) d
      (Vouched D h t n (.getStatus revision)) s := by
  obtain ⟨passage, rfl⟩ := hd
  refine ensures_bind.2 (Relay.ensures_respond.2 ?_)
  refine Ensures.mono (yields_behind henc hs ht htn) fun r s hr data status hdata hv => ?_
  obtain rfl := received_sent hdata
  rcases r with e | response
  · cases hv
  · exact hr response rfl status hv

/-- What the page accepts of the relay is so, and stays so. -/
theorem vouch_servers (henc : coder.Encodes bytes) (ht : 0 < t) (htn : t ≤ n) :
    (servers D groth16 bytes coder base58 fromSecretKey secretHex h t n).Vouch
      (Reachable D groth16) (Vouched D h t n) where
  refl := .refl
  trans := .trans
  served hserve := hserve.later
  kept hl hs := hl.reachable hs
  stays {s s' q a} hl hright := by
    cases q with
    | getStatus revision => exact fun data status hdata hv => (hright data status hdata hv).later hl
    | postSign body =>
      intro payload hbody data tx hdata htx
      obtain ⟨hk, hstatus⟩ := hright payload hbody data tx hdata htx
      exact ⟨hk.later hl, fun hread status hv => (hstatus hread status hv).later hl⟩
    | _ => trivial
  offered {s q d} hs hd := by
    cases q with
    | getStatus revision => exact ensures_status henc hs ht htn revision hd
    | postSign body => exact ensures_post hs ht htn hd
    | _ => exact hd.elim
  lost {s q a} hlost := by
    cases q with
    | getStatus revision => exact fun data status hdata => absurd hdata (received_of_lost hlost)
    | postSign body => exact fun payload _ data tx hdata => absurd hdata (received_of_lost hlost)
    | _ => trivial

end Vouch

end MultisigPage

end Oblivia

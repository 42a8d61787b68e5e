import Oblivia.Client.RelayService
import Oblivia.Client.SignPageReceipts
/-!
# The signing page tells the truth

A receipt that the page keeps is on the chain. Receipts come from answers that confirm a submission,
and such an answer vouches for the receipt of the key that was submitted; the chain keeps it from
then on. So whatever is typed or clicked, however the page, the relay and the network are
interleaved and whatever is lost between them, a contract that is displayed as signed is signed
(`signed_true`).
-/

namespace Oblivia

open Dialogue

variable {D : Pda} {groth16 : Groth16Verifier} {s s' : Store} {h k : Bytes 32}

section Routes

variable {bytes : Account → List UInt8} {coder : Coder} {keypair : Option Pubkey}
  {body : Option Json} {proof : ProofArgs}

/-- A receipt that the relay gives is on the chain. -/
theorem yields_signed (hreq : Relay.signRequest body = .ok (h, proof)) :
    Yields (Serve D groth16 bytes) (Later D groth16) (Relay.postSign D coder keypair body)
      (fun _ s => HasReceipt D s h proof.keyCommitment) s := by
  unfold Relay.postSign
  rw [hreq, Relay.classified_bind]
  refine (yields_trivial _).bind fun payer s _ => ?_
  refine (yields_trivial _).bind fun ⟨registryPda, _⟩ s _ => ?_
  refine (Relay.yields_find (d := .contract h) (I := fun _ => True) trivial).bind
    fun ⟨contractPda, b⟩ s ⟨hc, _⟩ => ?_
  refine (yields_trivial _).bind fun ⟨signaturePda, _⟩ s _ => ?_
  refine (yields_trivial _).bind fun ⟨signerRecordPda, _⟩ s _ => ?_
  -- what is read and registered before makes no difference
  refine (yields_trivial _).bind fun info s _ => ?_
  refine (yields_trivial _).bind fun contract s _ => ?_
  refine (yields_trivial _).bind fun _ s _ => ?_
  refine Yields.bind (Relay.yields_submit fun s₁ h₁ tx s₂ h₂ => ?_) fun tx s hk =>
    yields_pure.2 hk
  cases h₂ with
  | sent hexec => exact (receipted_of_exec hc hexec).hasReceipt

end Routes

namespace SignPage

open Async

section Servers

variable (D : Pda) (groth16 : Groth16Verifier) (bytes : Account → List UInt8) (coder : Coder)
  (base58 : Pubkey → Text) (fromSecretKey : List UInt8 → Except String Pubkey)
  (secretHex : Option Text)

/-- The relay and the network behind it, for this page. What the page asks of the browser is
answered in any way. -/
def servers : Servers Wait Wait.Answer Rpc Rpc.Reply Store where
  serve := Serve D groth16 bytes
  drift := Later D groth16
  offers
    | .postSign body, d =>
      Relay.Offers D coder base58 fromSecretKey secretHex (.ofText .sign body) d
    | _, _ => False
  lost
    | .postSign _, answer => Relay.Lost answer
    | _, _ => True

/-- What an answer vouches for if the page accepts it. -/
def Vouched : (q : Wait) → q.Answer → Store → Prop
  | .postSign body, answer, s => ∀ (h : Bytes 32) payload transaction,
    body = (requestBody h.toList payload).stringify → confirmed answer = .ok transaction →
      HasReceipt D s h payload.keyCommitment
  | _, _, _ => True

end Servers

section Vouch

variable {bytes : Account → List UInt8} {coder : Coder} {base58 : Pubkey → Text}
  {fromSecretKey : List UInt8 → Except String Pubkey} {secretHex : Option Text}

theorem confirmed_of_lost {answer : RelayAnswer} {transaction : Text} (h : Relay.Lost answer) :
    confirmed answer ≠ .ok transaction := by
  rcases answer with m | ⟨status, text⟩
  · exact nofun
  · have hstatus : isOk status = false := h
    unfold confirmed
    simp only [hstatus, true_or, if_true]
    generalize Json.parse text = parsed
    rcases parsed with _ | data <;> exact nofun

/-- A confirmed answer of the relay names a transaction. -/
theorem transaction_of_confirmed {response : Relay.Response} {transaction : Text}
    (h : confirmed response.sent = .ok transaction) :
    response.body.field "transaction" ≠ none := by
  intro hnone
  simp only [confirmed, Relay.Response.sent, Json.parse_stringify, hnone] at h
  split_ifs at h

theorem vouched_error {text : Text} {f : Relay.Failure} :
    Vouched D (.postSign text) (Relay.sendRelayError f).sent s :=
  fun _ _ _ _ hconfirmed => absurd rfl (transaction_of_confirmed hconfirmed)

/-- The work on a submission. -/
theorem ensures_post {text : Text} {d : Dialogue Rpc Rpc.Reply RelayAnswer}
    (hd : Relay.Offers D coder base58 fromSecretKey secretHex (.ofText .sign text) d) :
    Ensures (Serve D groth16 bytes) (Later D groth16) d (Vouched D (.postSign text)) s := by
  refine Relay.ensures_offers hd (fun _ => vouched_error) fun body keypair hbody => ?_
  by_cases hpayload : ∃ (h : Bytes 32) (payload : ProofArgs),
      text = (requestBody h.toList payload).stringify
  · obtain ⟨h, payload, htext⟩ := hpayload
    obtain rfl := Relay.readBody_stringify htext hbody
    refine Ensures.mono (yields_signed (Relay.signRequest_requestBody h payload)) ?_
    intro r s hr h' payload' transaction htext' hconfirmed
    have hbodies := congrArg (Relay.signRequest ∘ some) (Relay.readBody_stringify htext' hbody)
    simp only [Function.comp_apply, Relay.signRequest_requestBody] at hbodies
    obtain ⟨rfl, rfl⟩ := Prod.mk.inj (Except.ok.inj hbodies)
    rcases r with e | response
    · exact absurd rfl (transaction_of_confirmed hconfirmed)
    · exact hr response rfl
  · exact (ensures_trivial _).mono fun r s _ h payload _ htext =>
      absurd ⟨h, payload, htext⟩ hpayload

/-- What the page accepts of the relay is so, and stays so. -/
theorem vouch_servers :
    (servers D groth16 bytes coder base58 fromSecretKey secretHex).Vouch (Reachable D groth16)
      (Vouched D) where
  refl := .refl
  trans := .trans
  served hserve := hserve.later
  kept hl hs := hl.reachable hs
  stays {s s' q a} hl hright := by
    cases q with
    | postSign body =>
      exact fun h payload transaction hbody hconfirmed =>
        (hright h payload transaction hbody hconfirmed).later hl
    | _ => trivial
  offered {s q d} hs hd := by
    cases q with
    | postSign body => exact ensures_post hd
    | _ => exact hd.elim
  lost {s q a} hlost := by
    cases q with
    | postSign body =>
      exact fun h payload transaction _ hconfirmed =>
        absurd hconfirmed (confirmed_of_lost hlost)
    | _ => trivial

end Vouch

section Run

variable {bytes : Account → List UInt8} {coder : Coder} {base58 : Pubkey → Text}
  {fromSecretKey : List UInt8 → Except String Pubkey} {secretHex : Option Text}
  {sha256 : List UInt8 → Bytes 32} {clock : ℕ → Text} {domain : Except String (Option Text)}
  {contract : Utf16} {ι : Type} {events : ι → Event} {log : List (ι × Turn Wait Wait.Answer)}

/-- The hash of a text. -/
abbrev hashOf (sha256 : List UInt8 → Bytes 32) (contract : Utf16) : Bytes 32 :=
  sha256 (Utf16.encode contract)

/-- The receipt is what the answer to a submission has confirmed, and the key of this submission
has its receipt on the chain. -/
def Submitted (D : Pda) (s : Store) (sha256 : List UInt8 → Bytes 32)
    (log : List (ι × Turn Wait Wait.Answer)) (receipt : Receipt) : Prop :=
  ∃ i payload answer,
    (i, ⟨.postSign (requestBody (hashOf sha256 receipt.contract).toList payload).stringify,
      answer⟩) ∈ log
    ∧ confirmed answer = .ok receipt.transaction ∧ receipt.proofPreview = proofPreview payload
    ∧ HasReceipt D s (hashOf sha256 receipt.contract) payload.keyCommitment

/-- The page keeps to its sections, and every receipt that it keeps is on the chain. -/
def Honest (D : Pda) (sha256 : List UInt8 → Bytes 32) (s : Store)
    (log : List (ι × Turn Wait Wait.Answer)) (c : Session ι) : Prop :=
  c.Sound (Ready sha256) (Accounted sha256) (Once sha256)
    ∧ ∀ key receipt, (key, receipt) ∈ c.state.confirmedReceipts → Submitted D s sha256 log receipt

theorem Submitted.mono {log' : List (ι × Turn Wait Wait.Answer)} {receipt : Receipt}
    (h : Submitted D s sha256 log receipt) (hlog : log ⊆ log')
    (hs : ∀ h k, HasReceipt D s h k → HasReceipt D s' h k) :
    Submitted D s' sha256 log' receipt := by
  obtain ⟨i, payload, answer, hmem, hconfirmed, hpreview, hk⟩ := h
  exact ⟨i, payload, answer, hlog hmem, hconfirmed, hpreview, hs _ _ hk⟩

variable [DecidableEq ι]

theorem Honest.resume {c c' : Session ι} {i : ι} {e : Turn Wait Wait.Answer}
    (hh : Honest D sha256 s log c) (hright : Vouched D e.1 e.2 s) (hstep : Crowd.Step c i e c') :
    Honest D sha256 s (log ++ [(i, e)]) c' := by
  obtain ⟨hspec, hc'⟩ := hh.1.resume (invariant_once sha256) hstep
  refine ⟨hc', fun key receipt hmem => ?_⟩
  rcases hspec.recorded.fresh key receipt hmem with hold | ⟨body, answer, rfl, hgenuine⟩
  · exact (hh.2 key receipt hold).mono (List.subset_append_left ..) fun _ _ => id
  · obtain ⟨payload, rfl, hconfirmed, hpreview⟩ := hgenuine
    rw [contractHash_eq] at hright ⊢
    exact ⟨i, payload, answer, by simp, hconfirmed, hpreview,
      hright _ payload _ rfl hconfirmed⟩

/-- Whatever is typed or clicked, however the page, the relay and the network are interleaved and
whatever of it is lost: when the page says that the contract is signed, the displayed text, proof
and transaction are those of one of its submissions, the text in the editor has the same hash, and
the submitted key has its receipt for this hash on the chain, of a proof that the verifier has
accepted. The same holds of every receipt that the page keeps. -/
theorem signed_true (hs : Reachable D groth16 s)
    {c : Service ι Wait Wait.Answer Page (Except Unit Unit) Rpc Rpc.Reply Store}
    (hruns : Service.Runs (servers D groth16 bytes coder base58 fromSecretKey secretHex)
      (.start (session sha256 clock domain contract events) s) c) :
    (c.crowd.state.contractSignedDisplay = "TRUE" →
      hashOf sha256 c.crowd.state.contract = hashOf sha256 c.crowd.state.signedContractDisplay
      ∧ ∃ i payload answer transaction,
        (i, ⟨.postSign (requestBody (hashOf sha256 c.crowd.state.signedContractDisplay).toList
          payload).stringify, answer⟩) ∈ c.log
        ∧ confirmed answer = .ok transaction ∧ c.crowd.state.txDisplay = .link transaction
        ∧ c.crowd.state.proofDisplay = proofPreview payload
        ∧ Proven D groth16 c.world (hashOf sha256 c.crowd.state.contract) payload.keyCommitment)
    ∧ ∀ key receipt, (key, receipt) ∈ c.crowd.state.confirmedReceipts → ∃ k,
      Proven D groth16 c.world (hashOf sha256 receipt.contract) k := by
  have hstart : Honest D sha256 s [] (session sha256 clock domain contract events) :=
    ⟨sound_once sha256 clock domain contract events, fun _ _ hmem => (nomatch hmem)⟩
  obtain ⟨-, hsound, hkept⟩ : Servers.Sound _ _ _ c ∧ Honest D sha256 c.world c.log c.crowd :=
    vouch_servers.runs
      (fun hl hh => ⟨hh.1, fun key receipt hmem =>
        (hh.2 key receipt hmem).mono (fun _ => id) fun _ _ hk => hk.later hl⟩)
      (fun _ hh hright hstep => hh.resume hright hstep) hs hstart hruns
  refine ⟨fun htrue => ?_, fun key receipt hmem => ?_⟩
  · obtain ⟨key, receipt, hmem, htext, hproof, htx, hhash⟩ := hsound.2.coherent.shown htrue
    obtain ⟨i, payload, answer, hlog, hconfirmed, hpreview, hk⟩ := hkept key receipt hmem
    rw [contractHash_eq, contractHash_eq] at hhash
    have hsame : hashOf sha256 c.crowd.state.contract = hashOf sha256 receipt.contract :=
      Bytes.toList_inj.1 hhash
    rw [htext]
    exact ⟨hsame, i, payload, answer, _, hlog, hconfirmed, htx, hproof.trans hpreview,
      hsame ▸ hk.proven⟩
  · obtain ⟨i, payload, answer, -, -, -, hk⟩ := hkept key receipt hmem
    exact ⟨_, hk.proven⟩

end Run

section Sample

def sampleOpened : Session Bool :=
  session sampleHashes (fun _ => []) (.ok none) [65] fun sign =>
    if sign then .sign else .unlock true

/-- The passkey is created and the proof is made. -/
def sampleProved : List (Bool × Turn Wait Wait.Answer) :=
  [(false, ⟨.event, ()⟩), (false, ⟨.createSignerPasskey, .ok ()⟩),
    (false, ⟨.getPasskeySecret, .ok (List.replicate 32 5)⟩), (true, ⟨.event, ()⟩),
    (true, ⟨.fullProve 0, .ok sampleGroth⟩)]

def sampleBody : Text := (requestBody sampleHash.toList (sampleProof 1)).stringify

def sampleReceipt : RelayAnswer :=
  .ok (200, (Json.object (Relay.receipt sampleSignature)).stringify)

/-- The page submits its proof, and its key has a receipt. -/
theorem signed_true_sample : ∃ c : Service Bool Wait Wait.Answer Page (Except Unit Unit) Rpc
      Rpc.Reply Store, c.crowd.state.txDisplay = .link sampleSignature
    ∧ ∃ k, Proven samplePda sampleVerifier c.world sampleHash k := by
  let secret := some (List.replicate 128 '0')
  let S := servers samplePda sampleVerifier Account.bytes idlCoder toBase58
    (fun _ => .ok samplePayer) secret
  have hs : Reachable samplePda sampleVerifier sampleRegistered := ⟨_, rfl⟩
  -- the proof is made, and the answer to the submission
  have hplay : ((sampleOpened.play sampleProved).bind fun c =>
      (c.play [(true, ⟨.postSign sampleBody, sampleReceipt⟩)]).map fun c =>
        (c.state.contractSignedDisplay, c.state.txDisplay))
      = some ("TRUE", .link sampleSignature) := by decide +kernel
  obtain ⟨c₁, h₁, hplay⟩ := Option.bind_eq_some_iff.1 hplay
  obtain ⟨c₂, h₂, hdisplay⟩ := Option.map_eq_some_iff.1 hplay
  obtain ⟨htrue, htx⟩ := Prod.mk.inj hdisplay
  obtain ⟨c₃, h₃, hnil⟩ := Crowd.exists_step_of_play h₂
  obtain rfl : c₃ = c₂ := Option.some.inj hnil
  -- the relay reads the contract, submits the proof and answers
  have hanswer : play (Relay.Response.sent <$> Relay.serve samplePda idlCoder toBase58
      (fun _ => .ok samplePayer) secret .passed (.ofText .sign sampleBody)) sampleTurns
      = some sampleReceipt := by decide +kernel
  obtain ⟨s', hserves⟩ := serves_sampleTurns
  have hevents := Service.runs_of_lost (S := S) (s := .start sampleOpened sampleRegistered)
    (fun _ => rfl) (fun x hx => by fin_cases hx <;> trivial) h₁
  have hoffers : S.offers (Wait.postSign sampleBody) _ := ⟨.passed, rfl⟩
  have hruns := hevents.trans (Service.runs_of_answered rfl hoffers (follows_of_play hanswer)
    hserves h₃)
  obtain ⟨-, i, payload, answer, transaction, -, -, -, -, hproven⟩ := (signed_true hs hruns).1 htrue
  exact ⟨⟨c₃, _, _, _⟩, htx, _, hproven⟩

end Sample

end SignPage

end Oblivia

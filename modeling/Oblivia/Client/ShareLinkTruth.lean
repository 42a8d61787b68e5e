import Oblivia.Client.CoSignTruth
import Oblivia.Client.ShareLink
/-!
# What a link leads to

A link is shown only of an agreement that is on the chain, and whoever opens it asks for this
agreement and for no other: its status is then one that the agreement has had between the request
and the answer, unless the network fails to show it (`link_true`).
-/

namespace Oblivia

open Dialogue

variable {D : Pda} {groth16 : Groth16Verifier} {s s' : Store} {h : Bytes 32} {t n : UInt8}
  {m : Pubkey}

/-- The agreement is there, at this address. -/
structure AgreementAt (D : Pda) (s : Store) (h : Bytes 32) (t n : UInt8) (m : Pubkey) : Prop where
  address : ∃ b, D.findProgramAddress (.multisig h t n) = some (m, b)
  there : ∃ ms, s.lookup m = some (.multisig ms)

theorem AgreementAt.later (hm : AgreementAt D s h t n m) (hl : Later D groth16 s s') :
    AgreementAt D s' h t n m := by
  obtain ⟨ms, hms⟩ := hm.there
  obtain ⟨ms', hms', -⟩ := hl.extends.multisig hms
  exact ⟨hm.address, ms', hms'⟩

/-- An agreement has a contract. -/
theorem AgreementAt.contract (hm : AgreementAt D s h t n m) (hs : Sound D s) :
    ∃ c b, D.findProgramAddress (.contract h) = some (c, b) := by
  obtain ⟨b, hfind⟩ := hm.address
  obtain ⟨ms, hms⟩ := hm.there
  cases hs.placed m _ hms with
  | @multisig _ c hcon hadr =>
    have hd := Pda.find_inj hadr hfind
    rw [Derivation.multisig.injEq] at hd
    cases hs.placed _ _ hcon with
    | contract hc _ _ => exact ⟨_, _, hd.1 ▸ hc⟩

namespace Relay

section Create

variable {bytes : Account → List UInt8} {coder : Coder} {base58 : Pubkey → Text}
  {keypair : Option Pubkey} {body : Option Json}

/-- What is read at the address of an agreement is there. -/
theorem yields_agreement (henc : coder.Encodes bytes) (hs : Reachable D groth16 s) {c : Pubkey}
    {b b' : UInt8} (hc : D.findProgramAddress (.contract h) = some (c, b))
    (hm : D.findProgramAddress (.multisig h t n) = some (m, b')) :
    Yields (Serve D groth16 bytes) (Later D groth16) (fetchAccount m)
      (fun info s => Reachable D groth16 s
        ∧ readMultisig coder c info = pure ((s.lookup m).bind Account.asMultisig)) s := by
  refine yields_fetchAccount fun s₁ h₁ info s₂ h₂ => ?_
  cases h₂ with
  | read hshow =>
    refine ⟨h₁.reachable hs, ?_⟩
    rw [readMultisig, hshow.readMultisigAccount henc (h₁.reachable hs) hc hm]
    rfl

theorem yields_assertRequestedConfig {σ : Type} {asked : σ → (q : Rpc) → q.Reply → σ → Prop}
    {drift : σ → σ → Prop} {ms : MultiSigContract} {threshold maxSigners : ℤ}
    {P : Unit → σ → Prop} {w : σ} (hP : P () w) :
    Yields asked drift (assertRequestedConfig ms threshold maxSigners) P w := by
  unfold assertRequestedConfig
  rcases assertMultisigConfig ms threshold maxSigners with e | u
  · exact fun _ heq => (nomatch heq)
  · exact yields_pure.2 hP

/-- An agreement that a request has created, or has found, is there. -/
theorem yields_createAgreement (henc : coder.Encodes bytes) (hs : Reachable D groth16 s)
    {c payer : Pubkey} {b b' : UInt8} {threshold maxSigners : ℤ}
    (hc : D.findProgramAddress (.contract h) = some (c, b))
    (hm : D.findProgramAddress (.multisig h t n) = some (m, b')) :
    Yields (Serve D groth16 bytes) (Later D groth16)
      (createAgreement coder c m payer h threshold maxSigners)
      (fun _ s => AgreementAt D s h t n m) s := by
  unfold createAgreement
  refine yields_initializeOrReadExisting (R := Reachable D groth16)
    (ensures_submit.2 fun s₁ h₁ r s₂ h₂ => ?_) fun s hs => ?_
  · cases r with
    | error e => exact (h₁.trans h₂.later).reachable hs
    | ok sig =>
      cases h₂ with
      | sent hexec => exact ⟨⟨b', hm⟩, exists_multisig_of_exec hexec⟩
  · refine (yields_agreement henc hs hc hm).bind fun info s hread => ?_
    rw [hread.2]
    exact yields_checked (fun _ => yields_assertRequestedConfig rfl)
      fun hsome => ⟨⟨b', hm⟩, exists_multisig hsome⟩

theorem yields_postMultisigCreate (henc : coder.Encodes bytes) (hs : Reachable D groth16 s)
    (hreq : createRequest body = .ok ((t.toNat, n.toNat), h)) :
    Yields (Serve D groth16 bytes) (Later D groth16)
      (postMultisigCreate D coder base58 keypair body)
      (fun _ s => ∃ m, AgreementAt D s h t n m) s := by
  have hkeep {s : Store} {α : Type} (x : Handler α) (hs : Reachable D groth16 s) :
      Yields (Serve D groth16 bytes) (Later D groth16) x (fun _ s => Reachable D groth16 s) s :=
    yields_later (fun _ _ hl hs => hl.reachable hs) x hs
  unfold postMultisigCreate
  rw [hreq, classified_bind]
  refine (hkeep _ hs).bind fun payer s hs => (hkeep _ hs).bind fun registry s hs => ?_
  refine (yields_find (d := .contract h) hs).bind fun c s hI => ?_
  obtain ⟨c, b⟩ := c
  obtain ⟨hc, hs⟩ := hI
  refine (yields_multisigSeeds hs).bind fun seeds s hI => ?_
  obtain ⟨rfl, hs⟩ := hI
  refine (yields_find (d := .multisig h t n) hs).bind fun m s hI => ?_
  obtain ⟨m, b'⟩ := m
  obtain ⟨hm, hs⟩ := hI
  refine (hkeep _ hs).bind fun contractInfo s hs => (hkeep _ hs).bind fun contract s hs => ?_
  refine (yields_agreement henc hs hc hm).bind fun info s hread => ?_
  rw [hread.2]
  refine Yields.bind (P := fun existing s => Reachable D groth16 s
      ∧ (existing.isSome = true → AgreementAt D s h t n m))
    (yields_pure.2 ⟨hread.1, fun hsome => ⟨⟨b', hm⟩, exists_multisig hsome⟩⟩)
    fun existing s hI => ?_
  have hstays {s : Store} {α : Type} (x : Handler α) (hI : Reachable D groth16 s
      ∧ (existing.isSome = true → AgreementAt D s h t n m)) :
      Yields (Serve D groth16 bytes) (Later D groth16) x (fun _ s => Reachable D groth16 s
        ∧ (existing.isSome = true → AgreementAt D s h t n m)) s :=
    yields_later (fun _ _ hl hI => ⟨hl.reachable hI.1, fun hsome => (hI.2 hsome).later hl⟩) x hI
  refine (hstays _ hI).bind fun _ s hI => (hstays _ hI).bind fun _ s hI => ?_
  split_ifs with hsome
  · exact yields_pure.2 ⟨m, hI.2 hsome⟩
  · refine (yields_createAgreement henc hI.1 hc hm).bind fun tx s hm => ?_
    cases tx <;> exact yields_pure.2 ⟨m, hm⟩

end Create

end Relay

namespace MultisigPage

section Created

variable {bytes : Account → List UInt8} {coder : Coder} {base58 : Pubkey → Text}
  {fromSecretKey : List UInt8 → Except String Pubkey} {secretHex : Option Text}
  {sha256 : List UInt8 → Bytes 32} {contract : Utf16} {answer : RelayAnswer}
  {d : Dialogue Rpc Rpc.Reply RelayAnswer}

/-- The relay reads what the page writes. -/
theorem createRequest_createBody (ht : 0 < t) (htn : t ≤ n) :
    Relay.createRequest (some (createBody sha256 contract t.toNat n.toNat))
      = .ok ((t.toNat, n.toNat), sha256 (Utf16.encode contract)) := by
  have hconfig : Relay.validateRequestConfig (some (.number (.ofNat t.toNat)))
      (some (.number (.ofNat n.toNat))) = .ok (t.toNat, n.toNat) :=
    Relay.validateRequestConfig_ofNat (UInt8.lt_iff_toNat_lt.1 ht) (UInt8.le_iff_toNat_le.1 htn)
      (Nat.le_of_lt_succ n.toNat_lt)
  have hhash : Relay.parseBytes32 (some (jsonBytes (hashContract sha256 (Utf16.encode contract))))
      "contractHash" = .ok (sha256 (Utf16.encode contract)) := by
    rw [hashContract_eq]
    exact Relay.parseByteArray_jsonBytes _ _
  show (Relay.validateRequestConfig (some (.number (.ofNat t.toNat)))
    (some (.number (.ofNat n.toNat)))).bind _ = _
  rw [hconfig]
  show (Relay.parseBytes32 (some (jsonBytes (hashContract sha256 (Utf16.encode contract))))
    "contractHash").bind _ = _
  rw [hhash]
  rfl

theorem not_confirms_error {f : Relay.Failure} : ¬Confirms (Relay.sendRelayError f).sent := by
  rintro ⟨data, hdata, hconfirm⟩
  rw [received_sent hdata] at hconfirm
  cases hconfirm

/-- A creation that the page takes for confirmed has left the agreement. -/
theorem ensures_created (henc : coder.Encodes bytes) (hs : Reachable D groth16 s) (ht : 0 < t)
    (htn : t ≤ n) (hd : Relay.Offers D coder base58 fromSecretKey secretHex
      (.ofText .create (createBody sha256 contract t.toNat n.toNat).stringify) d) :
    Ensures (Serve D groth16 bytes) (Later D groth16) d
      (fun answer s => Reachable D groth16 s ∧ (Confirms answer →
        ∃ m, AgreementAt D s (sha256 (Utf16.encode contract)) t n m)) s := by
  refine (ensures_reachable hs d).and (Relay.ensures_offers hd
    (fun _ hc => absurd hc not_confirms_error) fun body keypair hbody => ?_)
  obtain rfl := Relay.readBody_stringify rfl hbody
  refine Ensures.mono (Relay.yields_postMultisigCreate henc hs (createRequest_createBody ht htn))
    fun r s hr hc => ?_
  rcases r with e | response
  · exact absurd hc not_confirms_error
  · exact hr response rfl

end Created

section Lookup

variable {bytes : Account → List UInt8} {coder : Coder} {base58 : Pubkey → Text}
  {fromSecretKey : List UInt8 → Except String Pubkey} {secretHex : Option Text}
  {d : Dialogue Rpc Rpc.Reply RelayAnswer}

/-- The agreement has had this status between the two states. -/
structure Current (D : Pda) (s s' : Store) (h : Bytes 32) (t n : UInt8)
    (status : AgreementStatus) : Prop where
  before : ∀ ms, StoredAt D s (.multisig h t n) (.multisig ms) →
    ms.signaturesCollected.toNat ≤ status.collected
      ∧ (ms.finalized = true → status.finalized = true)
  after : Behind D s' h t n status

/-- The page accepts the answer, as a status that the agreement has had meanwhile. -/
def Tracks (D : Pda) (s s' : Store) (h : Bytes 32) (t n : UInt8) (answer : RelayAnswer) : Prop :=
  ∃ data status, received answer = .ok data ∧ validateStatus data 0 = .ok status
    ∧ Current D s s' h t n status

theorem current_shown (hs : Reachable D groth16 s) (hl : Later D groth16 s s') {b : UInt8}
    {ms : MultiSigContract} (hm : D.findProgramAddress (.multisig h t n) = some (m, b))
    (hx : s'.lookup m = some (.multisig ms)) : Current D s s' h t n ms.shown := by
  refine ⟨fun ms₀ ⟨m', b', hm', hx₀⟩ => ?_, behind_shown (hl.reachable hs) hm hx⟩
  rw [hm, Option.some.injEq, Prod.mk.injEq] at hm'
  obtain ⟨rfl, rfl⟩ := hm'
  obtain ⟨ms', hx', -, -, -, -, hle, hfinal⟩ := hl.extends.multisig hx₀
  rw [hx, Option.some.injEq, Account.multisig.injEq] at hx'
  subst hx'
  refine ⟨Int.ofNat_le.2 (UInt8.le_iff_toNat_le.1 hle), fun hf => ?_⟩
  rw [hfinal hf] at *
  exact hf

/-- Of an agreement that is there the relay tells a status that it has had meanwhile, unless the
network fails to show it. -/
theorem ensures_tracks (henc : coder.Encodes bytes) (hs : Reachable D groth16 s)
    (hm : AgreementAt D s h t n m)
    (hd : Relay.Offers D coder base58 fromSecretKey secretHex (statusRequest h t n) d) :
    Ensures (Serve D groth16 bytes) (Later D groth16) d
      (fun answer s' => (∃ message,
        answer = (Relay.sendRelayError (Relay.upstreamError message)).sent)
          ∨ Tracks D s s' h t n answer) s := by
  obtain ⟨passage, rfl⟩ := hd
  obtain ⟨c, b, hc⟩ := hm.contract hs.sound
  obtain ⟨⟨b', hfind⟩, ms, hms⟩ := hm
  obtain ⟨hpos, htn⟩ : 0 < t ∧ t ≤ n := by
    obtain ⟨rfl, rfl⟩ : ms.threshold = t ∧ ms.maxSigners = n := hs.sound.fits hfind hms
    obtain ⟨q, hq⟩ := (hs.tallied m).agreement ms hms
    exact ⟨UInt8.lt_iff_toNat_lt.2 (UInt8.le_iff_toNat_le.1 hq.positive), hq.capacity⟩
  have hstatus : Relay.StatusAddresses D (hashParam h) (some (Nat.toDigits 10 t.toNat))
      (some (Nat.toDigits 10 n.toNat)) c m :=
    ⟨h, _, _, _, b, b', parseStatusHash_hashParam, parseStatusConfig_toDigits hpos htn,
      (findProgramAddressSync_seeds (d := .contract h)).2 hc,
      multisigSeeds_eq_ok.2 ⟨hpos, htn, rfl⟩, findProgramAddressSync_seeds.2 hfind⟩
  refine ensures_bind.2 ?_
  show Ensures _ _ (Relay.respond (Relay.getMultisigStatus _ _ _ _ _)) _ _
  rw [Relay.respond_getMultisigStatus hstatus]
  intro s₁ h₁ r s₂ h₂
  cases h₂ with
  | unread => exact .inl ⟨_, rfl⟩
  | @read _ info hshow =>
    obtain ⟨ms₁, hms₁, -⟩ := h₁.extends.multisig hms
    have hread := hshow.readMultisigAccount henc (h₁.reachable hs) hc hfind
    rw [hms₁] at hread
    have htell : Relay.tellStatus coder c (.ok info) = Relay.statusAnswer (some ms₁) := by
      simp only [Relay.tellStatus, hread]
      rfl
    refine .inr ⟨(Relay.statusAnswer (some ms₁)).body, ms₁.shown, ?_, ?_,
      current_shown hs h₁ hfind hms₁⟩
    · show received (Relay.tellStatus coder c (.ok info)).sent = _
      rw [htell]
      simp only [received, Relay.Response.sent, relayResponse, Json.parse_stringify]
      rfl
    · exact validateStatus_eq_ok rfl rfl rfl
        (shown_valid (h₁.reachable hs) hms₁ (Nat.zero_le _))

end Lookup

section Leads

variable (D : Pda) (groth16 : Groth16Verifier) (bytes : Account → List UInt8) (coder : Coder)
  (base58 : Pubkey → Text) (fromSecretKey : List UInt8 → Except String Pubkey)
  (secretHex : Option Text) (sha256 : List UInt8 → Bytes 32)

/-- The page that is opened by this link is of the agreement: the agreement is there, the page has
its text and its settings and submits signatures for it only, and whenever the page asks for its
status, it is told one that the agreement has had meanwhile, unless the network fails. -/
structure Leads (link : Text) (contract : Utf16) (t n : UInt8) (m : Pubkey) (s : Store) : Prop where
  opened : signMode (UrlEncoding.search link) = some (contract, some (t.toNat, n.toNat))
  agreement : AgreementAt D s (sha256 (Utf16.encode contract)) t n m
  posts : ∀ (clock : ℕ → Text) (domain : Except String (Option Text)) (ι : Type) [DecidableEq ι]
    (events : ι → Event) (c : Async.Crowd ι Wait Wait.Answer Page (Except Unit Unit)),
    Async.Crowd.Runs (session sha256 clock domain (Utf16.encode contract)
      (some (t.toNat, n.toNat)) events) c →
    ∀ i body, c.waits i = some (.postSign body) → ∃ json payload, Json.parse body = some json
      ∧ Relay.multisigSignRequest (some json)
        = .ok ((t.toNat, n.toNat), sha256 (Utf16.encode contract), payload)
  status : ∀ s', Later D groth16 s s' → ∀ d, Relay.Offers D coder base58 fromSecretKey secretHex
      (statusRequest (sha256 (Utf16.encode contract)) t n) d →
    Ensures (Serve D groth16 bytes) (Later D groth16) d
      (fun answer s'' => (∃ message,
        answer = (Relay.sendRelayError (Relay.upstreamError message)).sent)
          ∨ Tracks D s' s'' (sha256 (Utf16.encode contract)) t n answer) s'

end Leads

section Link

variable {bytes : Account → List UInt8} {coder : Coder} {base58 : Pubkey → Text}
  {fromSecretKey : List UInt8 → Except String Pubkey} {secretHex : Option Text}
  {sha256 : List UInt8 → Bytes 32} {address : PageAddress} {contract : Utf16}
  {threshold maxSigners : ℤ} {p : CreatePage}

/-- The page after this answer. -/
def answered (sha256 : List UInt8 → Bytes 32) (address : PageAddress) (contract : Utf16)
    (threshold maxSigners : ℤ) (p : CreatePage) (answer : RelayAnswer) : CreatePage :=
  createMultisig sha256 address (fun _ => answer) contract threshold maxSigners p

/-- A link is shown of a creation that was confirmed, and the page that it opens has the text and
the settings. -/
theorem opened_of_shared (hidle : p.creatingInProgress = false) (hne : contract ≠ [])
    (hconfig : validateMultisigConfig threshold maxSigners = .ok ()) {answer : RelayAnswer}
    (hshared : (answered sha256 address contract threshold maxSigners p answer).shareBox = true) :
    Confirms answer ∧ ∃ config,
      signMode (UrlEncoding.search
        (answered sha256 address contract threshold maxSigners p answer).shareLink)
          = some (contract, some config)
      ∧ (config.1 : ℤ) = threshold ∧ (config.2 : ℤ) = maxSigners := by
  have hconfirms : Confirms answer := by
    rcases htry : tryCreate address contract threshold maxSigners answer with e | link
    · unfold answered createMultisig at hshared
      simp [hidle, hne, hconfig, htry] at hshared
    · unfold tryCreate at htry
      simp only [Batch.bind_eq_ok] at htry
      obtain ⟨data, hdata, u, hconfirm, -⟩ := htry
      exact ⟨data, hdata, hconfirm⟩
  refine ⟨hconfirms, ?_⟩
  by_cases hwell : Utf16.isWellFormed contract = true
  · have hshares : Shares sha256 contract threshold maxSigners
        (answered sha256 address contract threshold maxSigners p answer) :=
      shares_of_wellFormed hwell hidle hne hconfig hconfirms
    obtain ⟨-, opened, config, hmode, rfl, -, ht, hn⟩ := hshares
    exact ⟨config, hmode, ht, hn⟩
  · have heq : answered sha256 address contract threshold maxSigners p answer
        = ⟨false, false, p.shareLink, false⟩ := by
      refine (createMultisig_eq hidle hne hconfig hconfirms).trans ?_
      unfold link encodeURIComponent
      rw [if_neg hwell]
      rfl
    rw [heq] at hshared
    cases hshared

/-- Whatever others do on the network: a link is shown only of an agreement that is there, on the
hash of the text and with the settings that were entered, and leads to it; and none is shown if the
request is lost. -/
theorem link_true (henc : coder.Encodes bytes) (hs : Reachable D groth16 s)
    (hidle : p.creatingInProgress = false) (hne : contract ≠ [])
    (hconfig : validateMultisigConfig threshold maxSigners = .ok ()) :
    (∀ answer, Relay.Lost answer →
      (answered sha256 address contract threshold maxSigners p answer).shareBox = false)
    ∧ ∀ d, Relay.Offers D coder base58 fromSecretKey secretHex
        (.ofText .create (createBody sha256 contract threshold maxSigners).stringify) d →
      Ensures (Serve D groth16 bytes) (Later D groth16) d (fun answer s' =>
        (answered sha256 address contract threshold maxSigners p answer).shareBox = true →
        ∃ (t n : UInt8) (m : Pubkey), threshold = t.toNat ∧ maxSigners = n.toNat
          ∧ Leads D groth16 bytes coder base58 fromSecretKey secretHex sha256
            (answered sha256 address contract threshold maxSigners p answer).shareLink
            contract t n m s') s := by
  refine ⟨fun answer hlost => ?_, fun d hd => ?_⟩
  · rw [← Bool.not_eq_true]
    intro hshared
    obtain ⟨⟨data, hdata, -⟩, -⟩ := opened_of_shared hidle hne hconfig hshared
    exact received_of_lost hlost hdata
  obtain ⟨t, n, ht, htn, hthreshold, hmax⟩ := exists_settings hconfig
  subst hthreshold hmax
  refine (ensures_created henc hs ht htn hd).mono fun answer s' hcreated hshared => ?_
  obtain ⟨hs', hcreated⟩ := hcreated
  obtain ⟨hconfirms, config, hmode, hc₁, hc₂⟩ := opened_of_shared hidle hne hconfig hshared
  obtain ⟨m, hm⟩ := hcreated hconfirms
  have hsettings : config = (t.toNat, n.toNat) :=
    Prod.ext (Int.ofNat.inj hc₁) (Int.ofNat.inj hc₂)
  refine ⟨t, n, m, rfl, rfl, hsettings ▸ hmode, hm, ?_, fun s'' hl d' hd' =>
    ensures_tracks henc (hl.reachable hs') (hm.later hl) hd'⟩
  intro clock domain ι _ events c hruns i body hbody
  have hposting := (sound_posting.runs invariant_posting hruns).2
  obtain ⟨payload, rfl⟩ := hposting.2 i body hbody
  rw [hashContract_eq]
  exact ⟨_, payload, Json.parse_stringify _, multisigSignRequest_payload ht htn payload⟩

end Link

section Sample

/-- The agreement of the sample is there already. -/
def sampleCreation : List (Turn Rpc Rpc.Reply) :=
  [⟨.getAccountInfo sampleContract, .ok (some (accountInfo (Account.bytes (.contract
      ⟨sampleHash, 1700000000, 0, true, 255⟩))))⟩,
    ⟨.getAccountInfo sampleMultisig, .ok (some (accountInfo (Account.bytes (.multisig
      ⟨sampleContract, 2, 0, 3, false, 0, 254⟩))))⟩]

def sampleCreated : Store := run samplePda sampleVerifier ∅ sampleSetup

def sampleAnswer : RelayAnswer := (Relay.alreadyExists toBase58 sampleMultisig).sent

/-- The link to the agreement of the sample. -/
theorem link_true_sample : ∃ (p : CreatePage) (m : Pubkey), p.shareBox = true
    ∧ Leads samplePda sampleVerifier Account.bytes idlCoder toBase58 (fun _ => .ok samplePayer)
      (some (List.replicate 128 '0')) sampleSha256 p.shareLink [65] 2 3 m
      sampleCreated := by
  have hs : Reachable samplePda sampleVerifier sampleCreated := ⟨_, rfl⟩
  have hcontract : sampleCreated.lookup sampleContract
      = some (.contract ⟨sampleHash, 1700000000, 0, true, 255⟩) := by decide +kernel
  have hmultisig : sampleCreated.lookup sampleMultisig
      = some (.multisig ⟨sampleContract, 2, 0, 3, false, 0, 254⟩) := by decide +kernel
  have hplay : play (Relay.Response.sent <$> Relay.serve samplePda idlCoder toBase58
      (fun _ => .ok samplePayer) (some (List.replicate 128 '0')) .passed
      (.ofText .create (createBody sampleSha256 [65] 2 3).stringify)) sampleCreation
      = some sampleAnswer := by decide +kernel
  -- the work has a name, so that it is not evaluated again
  obtain ⟨d, hd, hanswer⟩ : ∃ d, d = Relay.Response.sent <$> Relay.serve samplePda idlCoder toBase58
      (fun _ => .ok samplePayer) (some (List.replicate 128 '0')) .passed
      (.ofText .create (createBody sampleSha256 [65] 2 3).stringify)
        ∧ play d sampleCreation = some sampleAnswer := ⟨_, rfl, hplay⟩
  have hserves : Pool.Serves (Serve samplePda sampleVerifier Account.bytes)
      sampleCreated sampleCreation sampleCreated :=
    .cons (.read (Shows.account hcontract)) <| .cons (.read (Shows.account hmultisig)) <| .nil _
  have hshared : (answered sampleSha256 sampleAddress [65] 2 3 ⟨false, false, [], false⟩
      sampleAnswer).shareBox = true := by decide +kernel
  have hconfig : validateMultisigConfig 2 3 = .ok () := by decide
  have hlink := (@link_true _ _ _ Account.bytes idlCoder toBase58 (fun _ => .ok samplePayer)
    (some (List.replicate 128 '0')) sampleSha256 sampleAddress [65] 2 3 ⟨false, false, [], false⟩
    idlCoder_encodes hs rfl (List.cons_ne_nil _ _) hconfig).2 d ⟨.passed, hd⟩
  obtain ⟨t, n, m, ht, hn, hleads⟩ :=
    hserves.ensures .refl (follows_of_play hanswer) hlink hshared
  obtain rfl : t = 2 := UInt8.toNat_inj.1 (Int.ofNat.inj ht).symm
  obtain rfl : n = 3 := UInt8.toNat_inj.1 (Int.ofNat.inj hn).symm
  exact ⟨_, m, hshared, hleads⟩

end Sample

end MultisigPage

end Oblivia

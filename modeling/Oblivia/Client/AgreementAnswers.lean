import Oblivia.Chain.Provenance
import Oblivia.Client.Network
import Oblivia.Client.RelayAnswers
/-!
# Genuine agreements are accepted

Every agreement that runs of the program lead to passes every check on its way to the co-signing
page: the clients' reading of its account, the relay's answers about it, and the page's validation
of them (`genuine_answers`). The page's validation is stricter than any check of the program; that
genuine agreements pass it rests on what the program keeps over whole runs (`shown_valid`).
-/

namespace Oblivia

open Dialogue MultisigPage

variable {D : Pda} {groth16 : Groth16Verifier} {s s' : Store} {m : Pubkey} {ms : MultiSigContract}

/-- The counters and the flag of an agreement. -/
def MultiSigContract.shown (ms : MultiSigContract) : AgreementStatus :=
  ⟨ms.signaturesCollected.toNat, ms.threshold.toNat, ms.finalized⟩

section Status

/-- The counters of a genuine agreement agree with each other and with the flag. -/
theorem shown_valid (hs : Reachable D groth16 s) (h : s.lookup m = some (.multisig ms)) {k : ℕ}
    (hk : k ≤ ms.signaturesCollected.toNat) : ms.shown.Valid k := by
  obtain ⟨q, hq⟩ := (hs.tallied m).agreement ms h
  have hpos := UInt8.le_iff_toNat_le.1 hq.positive
  have hle := UInt8.le_iff_toNat_le.1 hq.collected_le
  have hlt := ms.threshold.toNat_lt
  have hfin := hq.finalized_iff
  rw [← UInt8.toNat_inj] at hfin
  have hiff : ms.finalized = true ↔ (ms.threshold.toNat : ℤ) ≤ ms.signaturesCollected.toNat := by
    rw [hfin]
    omega
  simp only [UInt8.toNat_one] at hpos
  constructor <;> simp only [MultiSigContract.shown]
  · omega
  · omega
  · omega
  · omega
  · exact Bool.eq_iff_iff.2 (hiff.trans decide_eq_true_iff.symm)

end Status

section StatusRoute

variable {bytes : Account → List UInt8} {coder : Coder} {h : Bytes 32} {t n : UInt8}
  {info : Option AccountInfo}

/-- The text the page puts the hash of the contract into. -/
def hashParam (h : Bytes 32) : Text := (jsonBytes h.toList).stringify

theorem parseStatusHash_hashParam : Relay.parseStatusHash (hashParam h) = .ok h := by
  rw [Relay.parseStatusHash, hashParam, Json.parse_stringify]
  exact Relay.parseByteArray_jsonBytes h _

theorem length_toDigits_u8 : ∀ n < 256, (Nat.toDigits 10 n).length ≤ 3 := by decide +kernel

theorem parseDecimal_toDigits (t : UInt8) :
    Relay.parseDecimal (some (Nat.toDigits 10 t.toNat)) = some t.toNat := by
  have hne : 1 ≤ (Nat.toDigits 10 t.toNat).length :=
    List.length_pos_of_ne_nil Nat.toDigits_ne_nil
  have hle := length_toDigits_u8 _ t.toNat_lt
  have hdigits : (Nat.toDigits 10 t.toNat).all Char.isDigit = true :=
    List.all_eq_true.2 Json.isDigit_toDigits
  rw [Relay.parseDecimal, Option.bind_some, if_pos ⟨hne, hle, hdigits⟩,
    Numeral.value_toDigits (by norm_num) (by norm_num)]

theorem parseStatusConfig_toDigits (ht : 0 < t) (htn : t ≤ n) :
    Relay.parseStatusConfig (some (Nat.toDigits 10 t.toNat)) (some (Nat.toDigits 10 n.toNat))
      = .ok (t.toNat, n.toNat) := by
  have hvalid : validateMultisigConfig t.toNat n.toNat = .ok () :=
    validateMultisigConfig_eq_ok.2 ⟨ht, htn⟩
  simp only [Relay.parseStatusConfig, parseDecimal_toDigits, hvalid]

/-- What the relay asks and answers when the page asks for an agreement that is there. -/
theorem follows_status (henc : coder.Encodes bytes) (hs : Reachable D groth16 s) {c : Pubkey}
    {b b' : UInt8} (hc : D.findProgramAddress (.contract h) = some (c, b))
    (hm : D.findProgramAddress (.multisig h t n) = some (m, b'))
    (hms : s.lookup m = some (.multisig ms)) (hshow : Shows bytes s m info) :
    Follows (Relay.respond (Relay.getMultisigStatus D coder (hashParam h)
        (some (Nat.toDigits 10 t.toNat)) (some (Nat.toDigits 10 n.toNat))))
      [⟨.getAccountInfo m, .ok info⟩] (.done (Relay.statusAnswer (some ms))) := by
  obtain ⟨rfl, rfl⟩ : ms.threshold = t ∧ ms.maxSigners = n := hs.sound.fits hm hms
  obtain ⟨q, hq⟩ := (hs.tallied m).agreement ms hms
  have hpos : 0 < ms.threshold := UInt8.lt_iff_toNat_lt.2 (UInt8.le_iff_toNat_le.1 hq.positive)
  have hread := hshow.readMultisigAccount henc hs hc hm
  rw [hms] at hread
  have hcontract : findProgramAddressSync D [Relay.contractSeed, h.toList] = .ok (c, b) :=
    (findProgramAddressSync_seeds (d := .contract h)).2 hc
  have hseeds : multisigSeeds h ms.threshold.toNat ms.maxSigners.toNat
      = .ok (Derivation.multisig h ms.threshold ms.maxSigners).seeds :=
    multisigSeeds_eq_ok.2 ⟨hpos, hq.capacity, rfl⟩
  simp only [Relay.getMultisigStatus, parseStatusHash_hashParam,
    parseStatusConfig_toDigits hpos hq.capacity, Relay.classified_bind, Relay.unclassified_bind,
    hcontract, hseeds, findProgramAddressSync_seeds.2 hm]
  refine .ask ?_
  show Follows (Relay.respond (Relay.readMultisig coder c info >>= _)) _ _
  rw [Relay.readMultisig, hread]
  exact .refl _

end StatusRoute

section SignRoute

variable {bytes : Account → List UInt8} {body : Option Json} {keypair : Option Pubkey}

/-- The address of the agreement that a request to sign is about. -/
def Requested (D : Pda) (body : Option Json) (m : Pubkey) : Prop :=
  ∃ t n h proof seeds b, Relay.multisigSignRequest body = .ok ((t, n), h, proof)
    ∧ multisigSeeds h t n = .ok seeds ∧ findProgramAddressSync D seeds = .ok (m, b)

/-- An answer with a receipt says that the status is unavailable, or the page accepts it, as the
agreement that was signed is now. -/
def ReceiptShown (D : Pda) (body : Option Json) (response : Relay.Response) (s : Store) : Prop :=
  response.body.field "transaction" ≠ none →
    response.body.field "statusUnavailable" = some (.bool true)
      ∨ ∃ m ms, Requested D body m ∧ s.lookup m = some (.multisig ms)
        ∧ validateStatus response.body 1 = .ok ms.shown

/-- An agreement stays, and its counter only grows. -/
theorem Later.collected_le (h : Later D groth16 s s') (hms : s.lookup m = some (.multisig ms)) :
    ∃ ms', s'.lookup m = some (.multisig ms')
      ∧ ms.signaturesCollected.toNat ≤ ms'.signaturesCollected.toNat := by
  obtain ⟨ms', hms', hg⟩ := h.extends.multisig hms
  exact ⟨ms', hms', UInt8.le_iff_toNat_le.1 hg.2.2.2.2.1⟩

/-- A combined transaction leaves its agreement with a signature. -/
theorem collected_of_exec {verify : VerifyGroth16V2} {record : RecordVerifiedMultiSig}
    {proof : ProofArgs} {h k : Bytes 32} {rt : Runtime} (hs : Reachable D groth16 s)
    (hexec : Batch.exec (exec D groth16) s
      [⟨rt, .verifyGroth16V2 verify proof⟩, ⟨rt, .recordVerifiedMultisig record h k⟩] = .ok s') :
    ∃ ms, s'.lookup record.multisig.key = some (.multisig ms)
      ∧ 1 ≤ ms.signaturesCollected.toNat := by
  obtain ⟨s₁, hv, hrest⟩ := Batch.exec_cons_ok.1 hexec
  obtain ⟨s₂, hr, hnil⟩ := Batch.exec_cons_ok.1 hrest
  rw [Batch.exec, Except.ok.injEq] at hnil
  subst hnil
  cases exec_eq_ok.1 hr with
  | @recordVerifiedMultisig _ _ _ _ _ _ ms _ _ _ g =>
    refine ⟨_, lookup_recordStore, ?_⟩
    have hroom := ((hs.step hv).tallied record.multisig.key).room g.multisig g.pending
    have hcount : (ms.counted rt).signaturesCollected = ms.signaturesCollected + 1 := by
      unfold MultiSigContract.counted collect
      split_ifs <;> rfl
    rw [hcount, toNat_add_one_u8 hroom.2]
    omega

/-- Whatever the network does, a receipt of the relay is shown as what it is. -/
theorem ensures_sign (hs : Reachable D groth16 s) :
    Ensures (Serve D groth16 bytes) (Later D groth16)
      (Relay.postMultisigSign D keypair body).run
      (fun r s => ReceiptShown D body (Relay.answer r) s) s := by
  have herror : ∀ (e : Relay.Failure) (s : Store),
      ReceiptShown D body (Relay.answer (.error e)) s := fun e s h => absurd rfl h
  have hbuild : ∀ {s : Store} {ix : Instruction}, Reachable D groth16 s →
      Ensures (Serve D groth16 bytes) (Later D groth16)
        (await Relay.Failure.other (.request (Rpc.build ix))).run
        (fun _ s => Reachable D groth16 s) s :=
    fun hs s₁ h₁ r s₂ h₂ => (h₁.trans h₂.later).reachable hs
  unfold Relay.postMultisigSign
  refine Relay.ensures_classified_bind (fun ⟨⟨t, n⟩, h, proof⟩ hreq => ?_) fun e => herror _ _
  refine Ensures.andThen (P := fun _ s => Reachable D groth16 s) (Relay.ensures_getProgram.2 hs)
    (fun payer s hs => ?_) fun e s _ => herror e s
  refine Relay.ensures_unclassified_bind (fun ⟨registryPda, _⟩ _ => ?_) fun e => herror _ _
  refine Relay.ensures_unclassified_bind (fun ⟨contractPda, _⟩ _ => ?_) fun e => herror _ _
  refine Relay.ensures_unclassified_bind (fun ⟨signaturePda, _⟩ _ => ?_) fun e => herror _ _
  refine Relay.ensures_unclassified_bind (fun seeds hseeds => ?_) fun e => herror _ _
  refine Relay.ensures_unclassified_bind (fun ⟨m, b⟩ hm => ?_) fun e => herror _ _
  refine Relay.ensures_unclassified_bind (fun ⟨memberPda, _⟩ _ => ?_) fun e => herror _ _
  refine Relay.ensures_unclassified_bind (fun ⟨signerRecord, _⟩ _ => ?_) fun e => herror _ _
  refine Ensures.andThen (hbuild hs) (fun _ s hs => ?_) fun e s _ => herror e s
  refine Relay.ensures_unclassified_bind (fun ⟨signerRecord', _⟩ _ => ?_) fun e => herror _ _
  refine Ensures.andThen (hbuild hs) (fun _ s hs => ?_) fun e s _ => herror e s
  have hrequested : Requested D body m := ⟨t, n, h, proof, seeds, b, hreq, hseeds, hm⟩
  -- the transaction is sent, and what it leaves stays until the account is fetched
  refine Ensures.andThen (P := fun r s => r.isOk = true → Reachable D groth16 s
    ∧ ∃ ms, s.lookup m = some (.multisig ms) ∧ 1 ≤ ms.signaturesCollected.toNat)
    (Relay.ensures_submit.2 fun s₁ h₁ r s₂ h₂ hok => ?_) (fun tx s hsigned => ?_)
    fun e s _ => herror e s
  · cases h₂ with
    | sent hexec =>
      have hs₁ := h₁.reachable hs
      exact ⟨(Later.of_exec hexec).reachable hs₁, collected_of_exec hs₁ hexec⟩
    | rejected => cases hok
  · obtain ⟨hs, ms, hms, hcount⟩ := hsigned rfl
    rw [ensures_tryCatch]
    refine Ensures.andThen (P := fun r s => ∀ ms, r = .ok ms → Reachable D groth16 s
      ∧ s.lookup m = some (.multisig ms) ∧ 1 ≤ ms.signaturesCollected.toNat)
      (fun s₁ h₁ r s₂ h₂ ms' hr => ?_) (fun ms' s hread _ => ?_) fun e s _ _ => .inl rfl
    · cases h₂ with
      | fetched hms' =>
        obtain rfl : _ = ms' := Except.ok.inj hr
        obtain ⟨ms₁, hms₁, hle⟩ := h₁.collected_le hms
        rw [hms', Option.some.injEq, Account.multisig.injEq] at hms₁
        subst hms₁
        exact ⟨h₁.reachable hs, hms', hcount.trans hle⟩
      | unfetched => cases hr
    · obtain ⟨hs, hms', hcount'⟩ := hread ms' rfl
      exact .inr ⟨m, ms', hrequested, hms', validateStatus_eq_ok rfl rfl rfl
        (shown_valid hs hms' hcount')⟩

end SignRoute

/-- Every agreement that a run of the program leads to is read by the clients as it is, and the
relay answers a request for it with counters and a flag that the page accepts. After a combined
transaction the receipt of the relay shows the agreement with one signature at least, as the page
demands, at any later time; so, whatever the network does meanwhile, does what the relay answers. -/
theorem genuine_answers {bytes : Account → List UInt8} {coder : Coder}
    (henc : coder.Encodes bytes) (txs : List (List Call)) :
    (∀ m ms, (run D groth16 ∅ txs).lookup m = some (.multisig ms) →
      readMultisigAccount coder (some (accountInfo (bytes (.multisig ms)))) ms.contract
          = .ok (some ms)
        ∧ (∃ h, (∃ b, D.findProgramAddress (.multisig h ms.threshold ms.maxSigners) = some (m, b))
          ∧ Follows (Relay.respond (Relay.getMultisigStatus D coder (hashParam h)
              (some (Nat.toDigits 10 ms.threshold.toNat))
              (some (Nat.toDigits 10 ms.maxSigners.toNat))))
            [⟨.getAccountInfo m, .ok (some (accountInfo (bytes (.multisig ms))))⟩]
            (.done (Relay.statusAnswer (some ms))))
        ∧ validateStatus (Relay.statusAnswer (some ms)).body 0 = .ok ms.shown)
    ∧ (∀ rt verify proof record h k s', Batch.exec (exec D groth16) (run D groth16 ∅ txs)
        [⟨rt, .verifyGroth16V2 verify proof⟩, ⟨rt, .recordVerifiedMultisig record h k⟩] = .ok s' →
      ∀ s'', Later D groth16 s' s'' → ∃ ms,
        s''.lookup record.multisig.key = some (.multisig ms)
          ∧ ∀ tx, validateStatus (Relay.signAnswer tx ms).body 1 = .ok ms.shown)
    ∧ ∀ keypair body, Ensures (Serve D groth16 bytes) (Later D groth16)
        (Relay.respond (Relay.postMultisigSign D keypair body)) (ReceiptShown D body)
        (run D groth16 ∅ txs) := by
  have hs : Reachable D groth16 (run D groth16 ∅ txs) := ⟨txs, rfl⟩
  refine ⟨fun m ms hms => ?_, fun rt verify proof record h k s' hexec s'' hlater => ?_,
    fun keypair body => Relay.ensures_respond.2 (ensures_sign hs)⟩
  · have hshow : Shows bytes (run D groth16 ∅ txs) m
        (some (accountInfo (bytes (.multisig ms)))) := by
      rw [Shows, hms]
    cases hs.sound.placed m _ hms with
    | @multisig _ c hcon hadr =>
      cases hs.sound.placed _ _ hcon with
      | contract hc _ _ =>
        have hread := hshow.readMultisigAccount henc hs hc hadr
        rw [hms] at hread
        exact ⟨hread, ⟨c.contractHash, ⟨_, hadr⟩, follows_status henc hs hc hadr hms hshow⟩,
          validateStatus_eq_ok rfl rfl rfl (shown_valid hs hms (Nat.zero_le _))⟩
  · obtain ⟨ms, hms, hcount⟩ := collected_of_exec hs hexec
    obtain ⟨ms', hms', hle⟩ := hlater.collected_le hms
    exact ⟨ms', hms', fun tx => validateStatus_eq_ok rfl rfl rfl
      (shown_valid (((Later.of_exec hexec).trans hlater).reachable hs) hms' (hcount.trans hle))⟩

/-- The agreement of the sample, after the first of its two signatures. -/
theorem genuine_answers_sample :
    let ms : MultiSigContract := ⟨sampleContract, 2, 1, 3, false, 0, 254⟩
    readMultisigAccount idlCoder (some (accountInfo (Account.bytes (.multisig ms)))) sampleContract
        = .ok (some ms)
      ∧ validateStatus (Relay.statusAnswer (some ms)).body 0 = .ok ⟨1, 2, false⟩ := by
  have hms : (run samplePda sampleVerifier ∅ (sampleSetup ++ [sampleSign 1])).lookup sampleMultisig
      = some (.multisig ⟨sampleContract, 2, 1, 3, false, 0, 254⟩) := by
    decide +kernel
  obtain ⟨hread, -, hvalid⟩ := (genuine_answers idlCoder_encodes _).1 _ _ hms
  exact ⟨hread, hvalid⟩

end Oblivia

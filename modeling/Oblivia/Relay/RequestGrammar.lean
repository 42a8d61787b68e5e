import Oblivia.Relay.Routes
/-!
# The grammar of signing requests

What the two routes that sign accept, said without the code that checks it: which arrays list
which bytes, and which texts spell them. A body of the grammar takes a handler to the program's
interface with exactly these bytes, which it sends unless the network fails, and any other body is
refused before a request is made or a key is read (`validation_exact`).
-/

namespace Oblivia

namespace Relay

section Fields

/-- An array of as many integers as there are bytes, each of them the byte at its place. -/
def ListsBytes {n : ℕ} (value : Option Json) (b : Bytes n) : Prop :=
  ∃ entries, value = some (.array entries) ∧
    List.Forall₂ (fun entry byte => ∃ x, entry = .number x ∧ x.value = some (byte.toNat : ℚ))
      entries b.toList

/-- A text of 64 hexadecimal digits in either case, perhaps behind `0x`: the number that they are
is the number of the bytes. -/
def SpellsBytes (value : Option Json) (b : Bytes 32) : Prop :=
  ∃ digits : Text,
    (value = some (.string digits) ∨ value = some (.string ("0x".toList ++ digits)))
    ∧ digits.length = 64 ∧ (∀ c ∈ digits, Numeral.digitVal c < 16)
    ∧ Numeral.value 16 digits = b.toNat

/-- Two integers between which there are the settings of an agreement. -/
def IsConfig (threshold maxSigners : Option Json) (t n : ℤ) : Prop :=
  (∃ x, threshold = some (.number x) ∧ x.value = some (t : ℚ))
    ∧ (∃ x, maxSigners = some (.number x) ∧ x.value = some (n : ℚ)) ∧ 1 ≤ t ∧ t ≤ n ∧ n ≤ 255

theorem integer_eq_some {value : Option Json} {k : ℤ} :
    integer value = some k ↔ ∃ x, value = some (.number x) ∧ x.value = some (k : ℚ) := by
  constructor
  · intro h
    unfold integer at h
    split at h
    · rename_i x
      obtain ⟨y, hy, h⟩ := Option.bind_eq_some_iff.1 h
      split_ifs at h with hint
      refine ⟨x, rfl, ?_⟩
      rw [hy, ← Option.some.inj h]
      exact congrArg some (Rat.ext rfl (by simpa [Rat.isInt] using hint))
    · cases h
  · rintro ⟨x, rfl, hx⟩
    simp [integer, hx, Rat.isInt]

theorem byteOf_eq_some {entry : Json} {b : UInt8} :
    byteOf entry = some b ↔ ∃ x, entry = .number x ∧ x.value = some (b.toNat : ℚ) := by
  have hb := b.toNat_lt
  unfold byteOf
  constructor
  · intro h
    obtain ⟨k, hk, h⟩ := Option.bind_eq_some_iff.1 h
    split_ifs at h with hrange
    obtain ⟨x, hentry, hx⟩ := integer_eq_some.1 hk
    refine ⟨x, Option.some.inj hentry, ?_⟩
    have hk' : (k.toNat : ℤ) = k := Int.toNat_of_nonneg (by omega)
    have hlt : k.toNat < 256 := by omega
    rw [← Option.some.inj h, UInt8.toNat_ofNat_of_lt' hlt, hx, ← hk']
    norm_cast
  · rintro ⟨x, rfl, hx⟩
    have hk : integer (some (.number x)) = some (b.toNat : ℤ) :=
      integer_eq_some.2 ⟨x, rfl, by exact_mod_cast hx⟩
    have hrange : ¬((b.toNat : ℤ) < 0 ∨ (b.toNat : ℤ) > 255) := by omega
    rw [hk, Option.bind_some, if_neg hrange]
    simp

theorem bytesOf_eq_some : ∀ {entries : List Json} {l : List UInt8}, bytesOf entries = some l ↔
    List.Forall₂ (fun entry byte => ∃ x, entry = .number x ∧ x.value = some (byte.toNat : ℚ))
      entries l
  | [], l => by
    rw [List.forall₂_nil_left_iff]
    exact ⟨fun h => (Option.some.inj h).symm, fun h => by rw [h]; rfl⟩
  | e :: entries, l => by
    rw [bytesOf, List.forall₂_cons_left_iff]
    constructor
    · intro h
      obtain ⟨b, hb, h⟩ := Option.bind_eq_some_iff.1 h
      obtain ⟨l', hl', h⟩ := Option.bind_eq_some_iff.1 h
      exact ⟨b, l', byteOf_eq_some.1 hb, bytesOf_eq_some.1 hl', (Option.some.inj h).symm⟩
    · rintro ⟨b, l', hb, hl', rfl⟩
      rw [byteOf_eq_some.2 hb, bytesOf_eq_some.2 hl']
      rfl

theorem parseByteArray_eq_ok {n : ℕ} {value : Option Json} {name : String} {b : Bytes n} :
    parseByteArray value n name = .ok b ↔ ListsBytes value b := by
  unfold parseByteArray ListsBytes
  constructor
  · intro h
    split at h
    · rename_i entries
      split at h
      · rename_i bytes hbytes
        split_ifs at h with hlen
        rw [← Except.ok.inj h]
        exact ⟨entries, rfl, bytesOf_eq_some.1 hbytes⟩
      · cases h
    · cases h
  · rintro ⟨entries, rfl, hb⟩
    simp only [bytesOf_eq_some.2 hb]
    exact dif_pos b.length_toList

theorem value_eq_beVal_hexDecode : ∀ {n : ℕ} {l : Text}, (∀ c ∈ l, Numeral.digitVal c < 16) →
    l.length = 2 * n → Numeral.value 16 l = Bytes.beVal (Numeral.hexDecode l)
  | 0, [], _, _ => rfl
  | n + 1, c :: c' :: l, h, hl => by
    have hc : Numeral.digitVal c < 16 := h c (by simp)
    have hc' : Numeral.digitVal c' < 16 := h c' (by simp)
    have hrest : ∀ d ∈ l, Numeral.digitVal d < 16 := fun d hd => h d (by simp [hd])
    have hlen : l.length = 2 * n := by
      simp only [List.length_cons] at hl
      omega
    have hpow : (16 : ℕ) ^ l.length = 256 ^ (Numeral.hexDecode l).length := by
      rw [Numeral.length_hexDecode hrest hlen, hlen, pow_mul]
      norm_num
    have hpair : Numeral.value 16 [c, c'] = 16 * Numeral.digitVal c + Numeral.digitVal c' := by
      simp [Numeral.value]
    have hbyte : Bytes.beVal [UInt8.ofNat (16 * Numeral.digitVal c + Numeral.digitVal c')]
        = 16 * Numeral.digitVal c + Numeral.digitVal c' := by
      have hlt : 16 * Numeral.digitVal c + Numeral.digitVal c' < 256 := by omega
      simp [Bytes.beVal, Nat.mod_eq_of_lt hlt]
    have happend := Numeral.value_append 16 [c, c'] l
    have hcons := Bytes.beVal_append
      [UInt8.ofNat (16 * Numeral.digitVal c + Numeral.digitVal c')] (Numeral.hexDecode l)
    rw [hpair, hpow, value_eq_beVal_hexDecode hrest hlen] at happend
    rw [hbyte] at hcons
    rw [Numeral.hexDecode, if_pos ⟨hc, hc'⟩]
    exact happend.trans hcons.symm

theorem stripPrefix_digits {digits : Text} (h : ∀ c ∈ digits, Numeral.digitVal c < 16) :
    stripPrefix digits = digits := by
  unfold stripPrefix
  split
  · exact absurd (h 'x' (by simp)) (by decide)
  · rfl

theorem eq_or_prefix_of_stripPrefix (s : Text) :
    s = stripPrefix s ∨ s = "0x".toList ++ stripPrefix s := by
  unfold stripPrefix
  split
  · exact .inr rfl
  · exact .inl rfl

theorem parseHex32_eq_ok {value : Option Json} {name : String} {b : Bytes 32} :
    parseHex32 value name = .ok b ↔ SpellsBytes value b := by
  have hdecode {digits : Text} (h : IsHex64 digits) {b : Bytes 32} :
      (⟨Numeral.hexDecode digits, length_hexDecode h⟩ : Bytes 32) = b
        ↔ Numeral.value 16 digits = b.toNat := by
    rw [value_eq_beVal_hexDecode (n := 32) h.2 (by rw [h.1])]
    exact ⟨fun heq => by rw [← heq]; rfl, fun heq => Bytes.toNat_inj heq⟩
  unfold parseHex32 SpellsBytes
  constructor
  · intro h
    split at h
    · rename_i s
      split_ifs at h with hhex
      refine ⟨stripPrefix s, ?_, hhex.1, hhex.2, (hdecode hhex).1 (Except.ok.inj h)⟩
      rcases eq_or_prefix_of_stripPrefix s with hs | hs
      · exact .inl (congrArg _ (congrArg _ hs))
      · exact .inr (congrArg _ (congrArg _ hs))
    · cases h
  · rintro ⟨digits, hvalue, hlen, hdigits, hb⟩
    have hstrip : ∃ s, value = some (.string s) ∧ stripPrefix s = digits := by
      rcases hvalue with hvalue | hvalue
      · exact ⟨_, hvalue, stripPrefix_digits hdigits⟩
      · exact ⟨_, hvalue, rfl⟩
    obtain ⟨s, rfl, rfl⟩ := hstrip
    simp only [dif_pos (show IsHex64 (stripPrefix s) from ⟨hlen, hdigits⟩)]
    exact congrArg Except.ok ((hdecode ⟨hlen, hdigits⟩).2 hb)

theorem validateRequestConfig_eq_ok {threshold maxSigners : Option Json} {t n : ℤ} :
    validateRequestConfig threshold maxSigners = .ok (t, n)
      ↔ IsConfig threshold maxSigners t n := by
  unfold validateRequestConfig IsConfig
  rw [← integer_eq_some, ← integer_eq_some]
  constructor
  · intro h
    split at h
    · rename_i t' n' ht hn
      split at h
      · rename_i hvalid
        obtain ⟨rfl, rfl⟩ := Prod.mk.inj (Except.ok.inj h)
        unfold validateMultisigConfig at hvalid
        split_ifs at hvalid with hbad
        exact ⟨ht, hn, by omega⟩
      · cases h
    · cases h
  · rintro ⟨ht, hn, hrange⟩
    have hvalid : validateMultisigConfig t n = .ok () := if_neg (by omega)
    simp only [ht, hn, hvalid]

end Fields

section Bodies

/-- The hash and the proof in the fields of an object. -/
structure ProofFields (body : Json) (contractHash : Bytes 32) (proof : ProofArgs) : Prop where
  contractHash : ListsBytes (body.field "contractHash") contractHash
  keyCommitment : SpellsBytes (body.field "keyCommitment") proof.keyCommitment
  signatureCommitment : SpellsBytes (body.field "signatureCommitment") proof.signatureCommitment
  proofA : ListsBytes (body.field "proofA") proof.proofA
  proofB : ListsBytes (body.field "proofB") proof.proofB
  proofC : ListsBytes (body.field "proofC") proof.proofC
  publicInputs : ListsBytes (body.field "publicInputs") proof.pubInputs

/-- A body of `POST /sign`. -/
def SignGrammar (body : Option Json) (contractHash : Bytes 32) (proof : ProofArgs) : Prop :=
  ∃ fields, body = some (.object fields) ∧ ProofFields (.object fields) contractHash proof

/-- A body of `POST /multisig/sign`. -/
def MultisigGrammar (body : Option Json) (threshold maxSigners : ℤ) (contractHash : Bytes 32)
    (proof : ProofArgs) : Prop :=
  ∃ fields, body = some (.object fields)
    ∧ IsConfig ((Json.object fields).field "threshold") ((Json.object fields).field "maxSigners")
      threshold maxSigners
    ∧ ProofFields (.object fields) contractHash proof

theorem parseProof_eq_ok {body : Json} {contractHash : Bytes 32} {proof : ProofArgs} :
    parseProof body = .ok (contractHash, proof) ↔ ProofFields body contractHash proof := by
  simp only [parseProof, parseBytes32, Batch.bind_eq_ok, Batch.pure_eq_ok, Prod.mk.injEq,
    parseByteArray_eq_ok, parseHex32_eq_ok]
  constructor
  · rintro ⟨h, hh, k, hk, s, hs, a, ha, b, hb, c, hc, p, hp, rfl, rfl⟩
    exact ⟨hh, hk, hs, ha, hb, hc, hp⟩
  · intro h
    exact ⟨_, h.contractHash, _, h.keyCommitment, _, h.signatureCommitment, _, h.proofA, _,
      h.proofB, _, h.proofC, _, h.publicInputs, rfl, rfl⟩

theorem validateRequestBody_eq_ok {body : Option Json} {fields : Json} :
    validateRequestBody body = .ok fields ↔ ∃ l, body = some (.object l) ∧ fields = .object l := by
  unfold validateRequestBody
  split
  · simp [eq_comm]
  · rename_i hne
    refine ⟨fun h => ?_, fun ⟨l, hl, _⟩ => absurd hl (hne l)⟩
    cases h

theorem signRequest_eq_ok {body : Option Json} {contractHash : Bytes 32} {proof : ProofArgs} :
    signRequest body = .ok (contractHash, proof) ↔ SignGrammar body contractHash proof := by
  unfold signRequest SignGrammar
  rw [Batch.bind_eq_ok]
  constructor
  · rintro ⟨fields, hbody, hproof⟩
    obtain ⟨l, rfl, rfl⟩ := validateRequestBody_eq_ok.1 hbody
    exact ⟨l, rfl, parseProof_eq_ok.1 hproof⟩
  · rintro ⟨l, rfl, hproof⟩
    exact ⟨_, rfl, parseProof_eq_ok.2 hproof⟩

theorem multisigSignRequest_eq_ok {body : Option Json} {threshold maxSigners : ℤ}
    {contractHash : Bytes 32} {proof : ProofArgs} :
    multisigSignRequest body = .ok ((threshold, maxSigners), contractHash, proof)
      ↔ MultisigGrammar body threshold maxSigners contractHash proof := by
  unfold multisigSignRequest MultisigGrammar
  simp only [Batch.bind_eq_ok, Batch.pure_eq_ok, Prod.mk.injEq]
  constructor
  · rintro ⟨fields, hbody, config, hconfig, request, hproof, rfl, rfl⟩
    obtain ⟨l, rfl, rfl⟩ := validateRequestBody_eq_ok.1 hbody
    exact ⟨l, rfl, validateRequestConfig_eq_ok.1 hconfig, parseProof_eq_ok.1 hproof⟩
  · rintro ⟨l, rfl, hconfig, hproof⟩
    exact ⟨_, rfl, _, validateRequestConfig_eq_ok.2 hconfig, _, parseProof_eq_ok.2 hproof, rfl, rfl⟩

end Bodies

section Errors

/-- A check whose errors are of the class of bad requests. -/
def Checks {α : Type} (x : Except RelayError α) : Prop := ∀ e, x = .error e → e.status = 400

theorem checks_ok {α : Type} {a : α} : Checks (.ok a) := fun _ h => by cases h

theorem checks_error {α : Type} {message : String} :
    Checks (.error ⟨400, message⟩ : Except RelayError α) :=
  fun _ h => by rw [← Except.error.inj h]

theorem Checks.bind {α β : Type} {x : Except RelayError α} {f : α → Except RelayError β}
    (hx : Checks x) (hf : ∀ a, Checks (f a)) : Checks (x >>= f) := by
  intro e he
  rcases x with e' | a
  · exact hx e (congrArg _ (Except.error.inj he))
  · exact hf a e he

theorem checks_validateRequestBody (body : Option Json) : Checks (validateRequestBody body) := by
  unfold validateRequestBody
  split
  · exact checks_ok
  · exact checks_error

theorem checks_validateRequestConfig (threshold maxSigners : Option Json) :
    Checks (validateRequestConfig threshold maxSigners) := by
  unfold validateRequestConfig
  split
  · split
    · exact checks_ok
    · exact checks_error
  · exact checks_error

theorem checks_parseHex32 (value : Option Json) (name : String) :
    Checks (parseHex32 value name) := by
  unfold parseHex32
  split
  · split_ifs
    · exact checks_ok
    · exact checks_error
  · exact checks_error

theorem checks_parseByteArray (value : Option Json) (length : ℕ) (name : String) :
    Checks (parseByteArray value length name) := by
  unfold parseByteArray
  split
  · split
    · split_ifs
      · exact checks_ok
      · exact checks_error
    · exact checks_error
  · exact checks_error

theorem checks_parseProof (body : Json) : Checks (parseProof body) := by
  unfold parseProof parseBytes32
  refine (checks_parseByteArray _ _ _).bind fun h => (checks_parseHex32 _ _).bind fun k => ?_
  refine (checks_parseHex32 _ _).bind fun s => (checks_parseByteArray _ _ _).bind fun a => ?_
  refine (checks_parseByteArray _ _ _).bind fun b => (checks_parseByteArray _ _ _).bind fun c => ?_
  exact (checks_parseByteArray _ _ _).bind fun p => checks_ok

theorem checks_signRequest (body : Option Json) : Checks (signRequest body) :=
  (checks_validateRequestBody body).bind checks_parseProof

theorem checks_multisigSignRequest (body : Option Json) : Checks (multisigSignRequest body) :=
  (checks_validateRequestBody body).bind fun body =>
    (checks_validateRequestConfig _ _).bind fun _ =>
      (checks_parseProof body).bind fun _ => checks_ok

end Errors

section Handlers

/-- The handler gets to the program's interface: up to there it does the same with any key. -/
def ReachesProgram (handler : Option Pubkey → Handler Response) : Prop :=
  ∃ rest : Pubkey → Handler Response, ∀ keypair, handler keypair = getProgram keypair >>= rest

/-- The request is answered with 400, with nothing asked of the network and the same with any
key. -/
def Refuses (handler : Option Pubkey → Handler Response) : Prop :=
  ∃ response : Response, response.status = 400 ∧
    ∀ keypair, respond (handler keypair) = pure response

/-- What follows a check that passes starts with the program's interface. -/
theorem reaches_or_refuses {α : Type} {x : Except RelayError α} (hx : Checks x)
    {rest : α → Pubkey → Handler Response} {handler : Option Pubkey → Handler Response}
    (h : ∀ keypair, handler keypair
      = classified x >>= fun a => getProgram keypair >>= fun payer => rest a payer) :
    (ReachesProgram handler ↔ ∃ a, x = .ok a) ∧ (Refuses handler ↔ ¬∃ a, x = .ok a) := by
  rcases x with e | a
  · have hhandler (keypair : Option Pubkey) : handler keypair = throw (.relay e) := h keypair
    have hrefuses : Refuses handler :=
      ⟨sendRelayError (.relay e), hx e rfl, fun keypair => by rw [hhandler keypair]; rfl⟩
    have hno : ¬∃ a, (Except.error e : Except RelayError α) = .ok a := by
      rintro ⟨a, ha⟩
      cases ha
    refine ⟨⟨fun ⟨rest, hrest⟩ => ?_, fun hok => absurd hok hno⟩, fun _ => hno, fun _ => hrefuses⟩
    -- without a key the program's interface would be the error
    have hnone := hrest none
    rw [hhandler none] at hnone
    have he : (Failure.relay e)
        = .relay ⟨503, "Relay signer or program configuration is unavailable"⟩ :=
      Except.error.inj (Dialogue.done.inj hnone)
    have hstatus := hx e rfl
    rw [Failure.relay.inj he] at hstatus
    cases hstatus
  · have hhandler (keypair : Option Pubkey) : handler keypair = getProgram keypair >>= rest a :=
      h keypair
    refine ⟨⟨fun _ => ⟨a, rfl⟩, fun _ => ⟨rest a, hhandler⟩⟩,
      fun ⟨response, hstatus, hresponse⟩ => ?_, fun hno => absurd ⟨a, rfl⟩ hno⟩
    have hnone := hresponse none
    rw [hhandler none] at hnone
    have hbody : response.status = 503 :=
      (congrArg Response.status (Dialogue.done.inj hnone)).symm
    rw [hstatus] at hbody
    cases hbody

end Handlers

section Bytes

open Dialogue

/-- The hash, the commitments and the proof in an instruction are these. -/
def Carries (contractHash : Bytes 32) (proof : ProofArgs) : Instruction → Prop
  | .registerContract _ hash => hash = contractHash
  | .verifyGroth16V2 _ args => args = proof
  | .recordVerifiedMultisig _ hash keyCommitment =>
    hash = contractHash ∧ keyCommitment = proof.keyCommitment
  | _ => False

/-- A request hands nothing else to the program. -/
def HandsOver (contractHash : Bytes 32) (proof : ProofArgs) : Rpc → Prop
  | .send transaction => ∀ ix ∈ transaction, Carries contractHash proof ix
  | .build ix => Carries contractHash proof ix
  | _ => True

variable {α β : Type} {contractHash : Bytes 32} {proof : ProofArgs}

/-- No request of the handler hands anything else to the program. -/
def OnlyHands (contractHash : Bytes 32) (proof : ProofArgs) (x : Handler α) : Prop :=
  Spends (HandsOver contractHash proof) (fun _ => (0 : ℕ)) 0 x.run

theorem OnlyHands.bind {x : Handler α} {f : α → Handler β}
    (hx : OnlyHands contractHash proof x) (hf : ∀ a, OnlyHands contractHash proof (f a)) :
    OnlyHands contractHash proof (x >>= f) := Spends.andThen hx hf

theorem OnlyHands.orElse {x : Handler α} {f : Failure → Handler α}
    (hx : OnlyHands contractHash proof x) (hf : ∀ e, OnlyHands contractHash proof (f e)) :
    OnlyHands contractHash proof (tryCatch x f) := Spends.orElse hx hf

theorem onlyHands_pure (a : α) : OnlyHands contractHash proof (pure a : Handler α) := trivial

theorem onlyHands_getProgram (keypair : Option Pubkey) :
    OnlyHands contractHash proof (getProgram keypair) := by
  cases keypair <;> exact spends_pure

theorem onlyHands_unclassified (x : Except String α) :
    OnlyHands contractHash proof (unclassified x) := by
  cases x <;> exact spends_pure

theorem onlyHands_decodeAccount (x : Except String α) :
    OnlyHands contractHash proof (decodeAccount x) := by
  cases x <;> exact spends_pure

theorem onlyHands_fetchAccount (address : Pubkey) :
    OnlyHands contractHash proof (fetchAccount address) := by
  rw [fetchAccount_eq]
  exact ⟨trivial, 0, le_rfl, fun _ => trivial⟩

theorem onlyHands_submit {transaction : List Instruction}
    (h : ∀ ix ∈ transaction, Carries contractHash proof ix) :
    OnlyHands contractHash proof (submit transaction) := by
  rw [submit_eq]
  exact ⟨h, 0, le_rfl, fun _ => trivial⟩

theorem onlyHands_build {reject : String → Failure} {ix : Instruction}
    (h : Carries contractHash proof ix) :
    OnlyHands contractHash proof (await reject (.request (Rpc.build ix))) :=
  ⟨h, 0, le_rfl, fun _ => trivial⟩

theorem onlyHands_fetchMultisig {reject : String → Failure} {address : Pubkey} :
    OnlyHands contractHash proof (await reject (.request (Rpc.fetchMultisig address))) :=
  ⟨trivial, 0, le_rfl, fun _ => trivial⟩

/-- A registration is tried, and what is there instead is read. -/
theorem onlyHands_registerAbsent (coder : Coder) (registryPda contractPda payer : Pubkey)
    (contract : Option Contract) : OnlyHands contractHash proof
      (registerAbsent coder registryPda contractPda payer contractHash contract) := by
  unfold registerAbsent
  split_ifs
  · refine OnlyHands.bind ?_ fun _ => onlyHands_pure _
    unfold initializeOrReadExisting
    refine OnlyHands.orElse ?_ fun e => ?_
    · refine (onlyHands_submit fun ix hix => ?_).bind fun _ => onlyHands_pure _
      rw [List.mem_singleton.1 hix]
      exact rfl
    · refine OnlyHands.bind ?_ fun info => ?_
      · exact (onlyHands_fetchAccount contractPda).orElse fun _ => spends_pure
      · refine (onlyHands_decodeAccount _).bind fun account => ?_
        cases account <;> exact spends_pure
  · exact onlyHands_pure ()

variable (D : Pda) (coder : Coder) {body : Option Json}

theorem onlyHands_postSign (h : signRequest body = .ok (contractHash, proof))
    (keypair : Option Pubkey) :
    OnlyHands contractHash proof (postSign D coder keypair body) := by
  unfold postSign
  rw [h, classified_bind]
  refine (onlyHands_getProgram keypair).bind fun payer => ?_
  refine (onlyHands_unclassified _).bind fun registryPda => ?_
  refine (onlyHands_unclassified _).bind fun contractPda => ?_
  refine (onlyHands_unclassified _).bind fun signaturePda => ?_
  refine (onlyHands_unclassified _).bind fun signerRecordPda => ?_
  refine (onlyHands_fetchAccount _).bind fun contractInfo => ?_
  refine (onlyHands_decodeAccount _).bind fun contract => ?_
  refine (onlyHands_registerAbsent coder _ _ payer contract).bind fun _ => ?_
  refine (onlyHands_submit fun ix hix => ?_).bind fun tx => onlyHands_pure _
  rw [List.mem_singleton.1 hix]
  exact rfl

theorem onlyHands_postMultisigSign {threshold maxSigners : ℤ}
    (h : multisigSignRequest body = .ok ((threshold, maxSigners), contractHash, proof))
    (keypair : Option Pubkey) :
    OnlyHands contractHash proof (postMultisigSign D keypair body) := by
  unfold postMultisigSign
  rw [h, classified_bind]
  refine (onlyHands_getProgram keypair).bind fun payer => ?_
  refine (onlyHands_unclassified _).bind fun registryPda => ?_
  refine (onlyHands_unclassified _).bind fun contractPda => ?_
  refine (onlyHands_unclassified _).bind fun signaturePda => ?_
  refine (onlyHands_unclassified _).bind fun seeds => ?_
  refine (onlyHands_unclassified _).bind fun multisigPda => ?_
  refine (onlyHands_unclassified _).bind fun memberPda => ?_
  refine (onlyHands_unclassified _).bind fun signerRecord => ?_
  refine OnlyHands.bind (onlyHands_build ?verify) fun _ => ?_
  case verify => exact rfl
  refine (onlyHands_unclassified _).bind fun signerRecord' => ?_
  refine OnlyHands.bind (onlyHands_build ?record) fun _ => ?_
  case record => exact ⟨rfl, rfl⟩
  refine (onlyHands_submit fun ix hix => ?_).bind fun tx => ?_
  · rcases List.mem_pair.1 hix with rfl | rfl
    · exact rfl
    · exact ⟨rfl, rfl⟩
  · exact (onlyHands_fetchMultisig.bind fun ms => onlyHands_pure _).orElse fun _ =>
      onlyHands_pure _

/-- So nothing else is handed over at any moment of any run. -/
theorem OnlyHands.asked {handler : Handler Response} (h : OnlyHands contractHash proof handler)
    {t : List (Turn Rpc Rpc.Reply)} {d : Dialogue Rpc Rpc.Reply Response}
    (hf : Follows (respond handler) t d) :
    ∀ q ∈ Dialogue.asked t d, HandsOver contractHash proof q := by
  have hrespond : Spends (HandsOver contractHash proof) (fun _ => (0 : ℕ)) (0 + 0)
      (respond handler) := Spends.bind (fun r => by cases r <;> exact spends_pure) h
  exact (hrespond.asked hf).1

section Granted

/-- The addresses of a signature on a contract. -/
structure SignatureAccounts (D : Pda) (hash key sig : Bytes 32) where
  registry : Pubkey × UInt8
  contract : Pubkey × UInt8
  signature : Pubkey × UInt8
  signerRecord : Pubkey × UInt8
  registry_eq : D.findProgramAddress .registry = some registry
  contract_eq : D.findProgramAddress (.contract hash) = some contract
  signature_eq : D.findProgramAddress (.signature contract.1 key sig) = some signature
  signerRecord_eq : D.findProgramAddress (.signerRecord hash key) = some signerRecord

/-- An answer of the network that lets a handler go on. -/
def Granted (coder : Coder) (contractHash : Bytes 32) : Turn Rpc Rpc.Reply → Prop
  | ⟨.getAccountInfo _, r⟩ =>
    ∃ info contract, r = .ok info ∧ readContractAccount coder info contractHash = .ok contract
  | ⟨.send _, r⟩ => ∃ tx, r = .ok tx
  | ⟨.build _, r⟩ => r = .ok ()
  | ⟨.fetchMultisig _, _⟩ => True

theorem exists_granted (coder : Coder) (contractHash : Bytes 32) (q : Rpc) :
    ∃ r, Granted coder contractHash ⟨q, r⟩ := by
  cases q with
  | getAccountInfo => exact ⟨.ok none, none, none, rfl, rfl⟩
  | send => exact ⟨.ok [], [], rfl⟩
  | build => exact ⟨.ok (), rfl⟩
  | fetchMultisig => exact ⟨.error "", trivial⟩

/-- What is asked for a signature: the contract, which is registered if it is absent, and to verify
the proof. -/
def SignatureAccounts.Asks {D : Pda} {proof : ProofArgs} (payer : Pubkey)
    (A : SignatureAccounts D contractHash proof.keyCommitment proof.signatureCommitment)
    (asks : List Rpc) : Prop :=
  let register := Instruction.registerContract (.of A.registry.1 A.contract.1 payer) contractHash
  let verify := Instruction.verifyGroth16V2
    (.of A.registry.1 A.contract.1 A.signature.1 A.signerRecord.1 payer) proof
  asks = [.getAccountInfo A.contract.1, .send [verify]]
    ∨ asks = [.getAccountInfo A.contract.1, .send [register], .send [verify]]

/-- What is asked for a signature that is counted: to build both instructions and to send them, and
how the agreement then is. -/
def AsksCounted {D : Pda} {t n : UInt8} (payer : Pubkey)
    (A : SignAccounts D contractHash t n proof.keyCommitment proof.signatureCommitment)
    (asks : List Rpc) : Prop :=
  let verify := Instruction.verifyGroth16V2 (A.verify payer) proof
  let record := Instruction.recordVerifiedMultisig (A.record payer) contractHash proof.keyCommitment
  asks = [.build verify, .build record, .send [verify, record], .fetchMultisig A.multisig.1]

/-- A success that has asked these questions, if the network lets the handler go on. -/
def Succeeds (coder : Coder) (contractHash : Bytes 32) (asks : List Rpc → Prop)
    (r : Except Failure Response) (turns : List (Turn Rpc Rpc.Reply)) : Prop :=
  (∀ e ∈ turns, Granted coder contractHash e) →
    (answer r).status = 200 ∧ asks (turns.map Sigma.fst)

/-- The network can let the handler go on to its end. Then it succeeds, and this is what it has
asked. -/
def Delivers (coder : Coder) (contractHash : Bytes 32) (handler : Handler Response)
    (asks : List Rpc → Prop) : Prop :=
  (∃ turns response, Follows (respond handler) turns (.done response)
    ∧ ∀ e ∈ turns, Granted coder contractHash e)
  ∧ ∀ turns response, Follows (respond handler) turns (.done response) →
    (∀ e ∈ turns, Granted coder contractHash e) →
    response.status = 200 ∧ asks (turns.map Sigma.fst)

variable {coder} {asks : List Rpc → Prop} {l : List (Turn Rpc Rpc.Reply)} {payer : Pubkey}
  {threshold maxSigners : UInt8}

theorem ensures_refused {d : Dialogue Rpc Rpc.Reply (Except Failure Response)}
    {e : Turn Rpc Rpc.Reply} (he : ¬Granted coder contractHash e) :
    Ensures noted Eq d (Succeeds coder contractHash asks) (l ++ [e]) :=
  ensures_of_bad ⟨e, by simp, he⟩

theorem succeeds_fetchContract {address : Pubkey} {f : Option Contract → Handler Response}
    (h : ∀ info contract, Ensures noted Eq (f contract).run (Succeeds coder contractHash asks)
      (l ++ [⟨.getAccountInfo address, .ok info⟩])) :
    Ensures noted Eq (do
      let info ← fetchAccount address
      let contract ← readContract coder contractHash info
      f contract : Handler Response).run (Succeeds coder contractHash asks) l := by
  rw [fetchAccount_eq]
  rintro _ rfl r _ rfl
  rcases r with m | info
  · exact ensures_refused (d := .done _) fun ⟨_, _, hr, _⟩ => by cases hr
  · rcases hread : readContractAccount coder info contractHash with m | contract
    · refine ensures_refused fun ⟨_, _, hr, hok⟩ => ?_
      cases hr
      rw [hread] at hok
      cases hok
    · show Ensures noted Eq (decodeAccount (readContractAccount coder info contractHash) >>= f
        : Handler Response).run _ _
      rw [hread]
      exact h info contract

theorem succeeds_submit {transaction : List Instruction} {f : Text → Handler Response}
    (h : ∀ tx, Ensures noted Eq (f tx).run (Succeeds coder contractHash asks)
      (l ++ [⟨.send transaction, .ok tx⟩])) :
    Ensures noted Eq (submit transaction >>= f).run (Succeeds coder contractHash asks) l := by
  rw [submit_eq]
  rintro _ rfl r _ rfl
  rcases r with m | tx
  · exact ensures_refused (d := .done _) fun ⟨_, hr⟩ => by cases hr
  · exact h tx

theorem succeeds_build {reject : String → Failure} {ix : Instruction} {f : Unit → Handler Response}
    (h : Ensures noted Eq (f ()).run (Succeeds coder contractHash asks)
      (l ++ [⟨.build ix, .ok ()⟩])) :
    Ensures noted Eq (await reject (.request (Rpc.build ix)) >>= f).run
      (Succeeds coder contractHash asks) l := by
  rintro _ rfl r _ rfl
  rcases r with m | ⟨⟩
  · exact ensures_refused (d := .done _) fun hr => by cases hr
  · exact h

theorem succeeds_registerAbsent {registryPda contractPda : Pubkey} {contract : Option Contract}
    {f : Unit → Handler Response}
    (habsent : ∀ tx, Ensures noted Eq (f ()).run (Succeeds coder contractHash asks)
      (l ++ [⟨.send [.registerContract (.of registryPda contractPda payer) contractHash],
        .ok tx⟩]))
    (hpresent : Ensures noted Eq (f ()).run (Succeeds coder contractHash asks) l) :
    Ensures noted Eq
      (registerAbsent coder registryPda contractPda payer contractHash contract >>= f).run
      (Succeeds coder contractHash asks) l := by
  unfold registerAbsent
  split_ifs
  · rw [submit_eq]
    rintro _ rfl r _ rfl
    rcases r with m | tx
    · exact ensures_refused fun ⟨_, hr⟩ => by cases hr
    · exact habsent tx
  · exact hpresent

theorem ensures_unclassified_ok {α : Type} {x : Except String α} {a : α} (hx : x = .ok a)
    {f : α → Handler Response} {R : Except Failure Response → List (Turn Rpc Rpc.Reply) → Prop}
    (h : Ensures noted Eq (f a).run R l) : Ensures noted Eq (unclassified x >>= f).run R l := by
  rw [hx]
  exact h

theorem ensures_found {D : Pda} {d : Derivation} {p : Pubkey × UInt8}
    (hd : D.findProgramAddress d = some p) {f : Pubkey × UInt8 → Handler Response}
    {R : Except Failure Response → List (Turn Rpc Rpc.Reply) → Prop}
    (h : Ensures noted Eq (f p).run R l) :
    Ensures noted Eq (unclassified (findProgramAddressSync D d.seeds) >>= f).run R l :=
  ensures_unclassified_ok (findProgramAddressSync_seeds.2 hd) h

theorem succeeds_postSign (h : signRequest body = .ok (contractHash, proof))
    (A : SignatureAccounts D contractHash proof.keyCommitment proof.signatureCommitment) :
    Ensures noted Eq (postSign D coder (some payer) body).run
      (Succeeds coder contractHash (A.Asks payer)) [] := by
  unfold postSign
  rw [h, classified_bind]
  refine ensures_found A.registry_eq (ensures_found A.contract_eq ?_)
  refine ensures_found A.signature_eq (ensures_found A.signerRecord_eq ?_)
  refine succeeds_fetchContract fun info contract => ?_
  refine succeeds_registerAbsent (fun tx => ?_) ?_
  · exact succeeds_submit fun tx _ => ⟨rfl, .inr rfl⟩
  · exact succeeds_submit fun tx _ => ⟨rfl, .inl rfl⟩

theorem succeeds_postMultisigSign
    (h : multisigSignRequest body
      = .ok ((threshold.toNat, maxSigners.toNat), contractHash, proof))
    (A : SignAccounts D contractHash threshold maxSigners proof.keyCommitment
      proof.signatureCommitment) :
    Ensures noted Eq (postMultisigSign D (some payer) body).run
      (Succeeds coder contractHash (AsksCounted payer A)) [] := by
  obtain ⟨fields, -, ⟨-, -, hpositive, hle, -⟩, -⟩ := multisigSignRequest_eq_ok.1 h
  have hseeds : multisigSeeds contractHash threshold.toNat maxSigners.toNat
      = .ok (Derivation.multisig contractHash threshold maxSigners).seeds :=
    multisigSeeds_eq_ok.2 ⟨UInt8.lt_iff_toNat_lt.2 (by exact_mod_cast hpositive),
      UInt8.le_iff_toNat_le.2 (by exact_mod_cast hle), rfl⟩
  unfold postMultisigSign
  rw [h, classified_bind]
  refine ensures_found A.registry_eq (ensures_found A.contract_eq ?_)
  refine ensures_found A.signature_eq (ensures_unclassified_ok hseeds ?_)
  refine ensures_found A.multisig_eq (ensures_found A.member_eq ?_)
  refine ensures_found A.signerRecord_eq (succeeds_build ?_)
  refine ensures_found A.signerRecord_eq (succeeds_build ?_)
  refine succeeds_submit fun tx => ensures_tryCatch.2 ?_
  rintro _ rfl r _ rfl
  rcases r with m | ms
  · exact fun _ => ⟨rfl, rfl⟩
  · exact fun _ => ⟨rfl, rfl⟩

theorem delivers_of_succeeds {handler : Handler Response}
    (h : Ensures noted Eq handler.run (Succeeds coder contractHash asks) []) :
    Delivers coder contractHash handler asks := by
  have hrespond : Ensures noted Eq (respond handler) (fun response turns =>
      (∀ e ∈ turns, Granted coder contractHash e) →
        response.status = 200 ∧ asks (turns.map Sigma.fst)) [] := ensures_respond.2 h
  exact ⟨exists_follows_good (exists_granted coder contractHash) _,
    fun _ _ hf => Ensures.of_follows hf hrespond⟩

end Granted

/-- Both routes accept the bodies of their grammars, and refuse all others before they look at the
key or make a request; and what they hand to the program is what the body lists and spells, and
nothing else. They do hand it over, with a key and addresses, unless the network fails. -/
theorem validation_exact (body : Option Json) :
    (ReachesProgram (postSign D coder · body) ↔ ∃ contractHash proof,
        SignGrammar body contractHash proof)
    ∧ (Refuses (postSign D coder · body) ↔ ¬∃ contractHash proof,
        SignGrammar body contractHash proof)
    ∧ (∀ contractHash proof, SignGrammar body contractHash proof → ∀ keypair t d,
        Follows (respond (postSign D coder keypair body)) t d →
        ∀ q ∈ Dialogue.asked t d, HandsOver contractHash proof q)
    ∧ (∀ contractHash proof, SignGrammar body contractHash proof → ∀ payer,
        ∀ A : SignatureAccounts D contractHash proof.keyCommitment proof.signatureCommitment,
        Delivers coder contractHash (postSign D coder (some payer) body) (A.Asks payer))
    ∧ (ReachesProgram (postMultisigSign D · body) ↔ ∃ threshold maxSigners contractHash proof,
        MultisigGrammar body threshold maxSigners contractHash proof)
    ∧ (Refuses (postMultisigSign D · body) ↔ ¬∃ threshold maxSigners contractHash proof,
        MultisigGrammar body threshold maxSigners contractHash proof)
    ∧ (∀ threshold maxSigners contractHash proof,
        MultisigGrammar body threshold maxSigners contractHash proof → ∀ keypair t d,
        Follows (respond (postMultisigSign D keypair body)) t d →
        ∀ q ∈ Dialogue.asked t d, HandsOver contractHash proof q)
    ∧ (∀ (threshold maxSigners : UInt8) contractHash proof,
        MultisigGrammar body threshold.toNat maxSigners.toNat contractHash proof → ∀ payer,
        ∀ A : SignAccounts D contractHash threshold maxSigners proof.keyCommitment
          proof.signatureCommitment,
        Delivers coder contractHash (postMultisigSign D (some payer) body)
          (AsksCounted payer A)) := by
  have hsign : (ReachesProgram (postSign D coder · body) ↔ ∃ a, signRequest body = .ok a)
      ∧ (Refuses (postSign D coder · body) ↔ ¬∃ a, signRequest body = .ok a) :=
    reaches_or_refuses (checks_signRequest body) fun _ => rfl
  have hmultisig :
      (ReachesProgram (postMultisigSign D · body) ↔ ∃ a, multisigSignRequest body = .ok a)
      ∧ (Refuses (postMultisigSign D · body) ↔ ¬∃ a, multisigSignRequest body = .ok a) :=
    reaches_or_refuses (checks_multisigSignRequest body) fun _ => rfl
  simp only [Prod.exists, signRequest_eq_ok] at hsign
  simp only [Prod.exists, multisigSignRequest_eq_ok] at hmultisig
  refine ⟨hsign.1, hsign.2, fun contractHash proof h keypair t d hf => ?_,
    fun contractHash proof h payer A => ?_, hmultisig.1, hmultisig.2,
    fun threshold maxSigners contractHash proof h keypair t d hf => ?_,
    fun threshold maxSigners contractHash proof h payer A => ?_⟩
  · exact (onlyHands_postSign D coder (signRequest_eq_ok.2 h) keypair).asked hf
  · exact delivers_of_succeeds (succeeds_postSign D (signRequest_eq_ok.2 h) A)
  · exact (onlyHands_postMultisigSign D (multisigSignRequest_eq_ok.2 h) keypair).asked hf
  · exact delivers_of_succeeds (succeeds_postMultisigSign D (multisigSignRequest_eq_ok.2 h) A)

end Bytes

end Relay

end Oblivia

import Oblivia.Client.AgreementAnswers
import Oblivia.Relay.RequestGrammar
/-!
# What a read of an account says

Every answer of the network about an address is one of three things: the address has no account of
the program yet, it has the account that was asked for, or it is an error to be told of. The
readers tell them apart, and the status route passes on what they say.
-/

namespace Oblivia

/-- The coder is that of the interface file: it knows the sizes of both types, and from as many
bytes it decodes the fields behind the discriminator of the type, if that is what they start
with. -/
structure Coder.OfInterface (coder : Coder) : Prop where
  contract_size : coder.contract.size = Contract.LEN
  contract : ∀ data, data.length = Contract.LEN → coder.contract.decode data =
    if data.take 8 = Contract.discriminator then Contract.fields.decode (data.drop 8) else none
  multisig_size : coder.multisig.size = MultiSigContract.LEN
  multisig : ∀ data, data.length = MultiSigContract.LEN → coder.multisig.decode data =
    if data.take 8 = MultiSigContract.discriminator then
      MultiSigContract.fields.decode (data.drop 8)
    else none

theorem idlCoder_ofInterface : idlCoder.OfInterface where
  contract_size := rfl
  contract _ _ := rfl
  multisig_size := rfl
  multisig _ _ := rfl

/-- The account is of the type with this discriminator, size and fields, and holds `a`. -/
def HoldsTyped {α : Type} (discriminator : List UInt8) (len : ℕ) (fields : Codec α)
    (info : Option AccountInfo) (a : α) : Prop :=
  ∃ data, info = some ⟨false, some data, some programId⟩ ∧ data.length = len
    ∧ data.take 8 = discriminator ∧ fields.decode (data.drop 8) = some a

/-- The account is the contract with this hash. -/
structure IsContract (contractHash : Bytes 32) (info : Option AccountInfo) (c : Contract) :
    Prop where
  holds : HoldsTyped Contract.discriminator Contract.LEN Contract.fields info c
  bound : c.contractHash = contractHash

/-- The account is an agreement on this contract, with settings and a count it can have. -/
structure IsAgreement (contractPda : Pubkey) (info : Option AccountInfo) (ms : MultiSigContract) :
    Prop where
  holds : HoldsTyped MultiSigContract.discriminator MultiSigContract.LEN MultiSigContract.fields
    info ms
  bound : ms.contract = contractPda
  threshold : 1 ≤ ms.threshold
  capacity : ms.threshold ≤ ms.maxSigners
  collected : ms.signaturesCollected ≤ ms.maxSigners

/-- A reader says of an answer whether nothing is there, or what is, and else it throws. -/
structure Classifies {α : Type} (read : Except String (Option α)) (Absent : Prop)
    (Valid : α → Prop) : Prop where
  absent : read = .ok none ↔ Absent
  valid : ∀ a, read = .ok (some a) ↔ Valid a
  rejected : (∃ message, read = .error message) ↔ ¬Absent ∧ ∀ a, ¬Valid a

section Readers

theorem AccountInfo.ext {info : AccountInfo} {executable : Bool} {data : Option (List UInt8)}
    {owner : Option Pubkey} (hexecutable : info.executable = executable)
    (hdata : info.data = data) (howner : info.owner = owner) :
    info = ⟨executable, data, owner⟩ := by
  rw [← hexecutable, ← hdata, ← howner]

variable {α : Type} {info : Option AccountInfo} {coder : Coder}

theorem Classifies.of_ok {read : Except String (Option α)} {Absent : Prop} {Valid : α → Prop}
    (habsent : read = .ok none ↔ Absent) (hvalid : ∀ a, read = .ok (some a) ↔ Valid a) :
    Classifies read Absent Valid := by
  refine ⟨habsent, hvalid, ?_⟩
  simp only [← habsent, ← hvalid]
  rcases read with message | _ | a <;> simp

theorem initializedAccount_eq_none {accountCoder : AccountCoder α} :
    initializedAccount accountCoder info = .ok none ↔ Uninitialized info := by
  refine ⟨fun h => ?_, initializedAccount_uninitialized⟩
  unfold initializedAccount at h
  split at h
  · exact trivial
  · split at h
    · rename_i info data owner hexecutable hdata howner
      split_ifs at h with hsystem hprogram hsize
      · obtain ⟨rfl, hlength⟩ := hsystem
        rw [List.eq_nil_of_length_eq_zero hlength] at hdata
        exact AccountInfo.ext hexecutable hdata howner
      · split at h <;> simp at h
    · simp at h

theorem initializedAccount_eq_some {accountCoder : AccountCoder α} {a : α} :
    initializedAccount accountCoder info = .ok (some a) ↔ ∃ data,
      info = some ⟨false, some data, some programId⟩ ∧ data.length = accountCoder.size
        ∧ accountCoder.decode data = some a := by
  constructor
  · intro h
    unfold initializedAccount at h
    split at h
    · simp at h
    · split at h
      · rename_i info data owner hexecutable hdata howner
        split_ifs at h with hsystem hprogram hsize
        · simp at h
        · split at h
          · rename_i account hdecode
            simp only [Except.ok.injEq, Option.some.injEq] at h
            rw [not_not.1 hprogram] at howner
            exact ⟨data, congrArg some (AccountInfo.ext hexecutable hdata howner),
              not_not.1 hsize, h ▸ hdecode⟩
          · simp at h
      · simp at h
  · rintro ⟨data, rfl, hsize, hdecode⟩
    exact initializedAccount_accountInfo hsize hdecode

/-- What the coder decodes is what stands behind the discriminator. -/
theorem holdsTyped_iff {accountCoder : AccountCoder α} {discriminator : List UInt8} {len : ℕ}
    {fields : Codec α} (hlen : accountCoder.size = len)
    (hdecode : ∀ data, data.length = len → accountCoder.decode data =
      if data.take 8 = discriminator then fields.decode (data.drop 8) else none) {a : α} :
    initializedAccount accountCoder info = .ok (some a)
      ↔ HoldsTyped discriminator len fields info a := by
  rw [initializedAccount_eq_some]
  refine exists_congr fun data => and_congr_right' ?_
  rw [hlen]
  refine and_congr_right fun hsize => ?_
  rw [hdecode data hsize]
  split_ifs with htag <;> simp [htag]

/-- A reader that does not throw returns what is there, after its checks. -/
theorem readContractAccount_eq_ok {contractHash : Bytes 32} {x : Option Contract} :
    readContractAccount coder info contractHash = .ok x
      ↔ initializedAccount coder.contract info = .ok x
        ∧ ∀ c, x = some c → c.contractHash = contractHash := by
  unfold readContractAccount
  rw [Batch.bind_eq_ok]
  constructor
  · rintro ⟨_ | c, hinit, hread⟩
    · obtain rfl := Batch.pure_eq_ok.1 hread
      exact ⟨hinit, by simp⟩
    · simp only at hread
      split_ifs at hread with hbound
      · cases hread
      · obtain rfl := Batch.pure_eq_ok.1 hread
        refine ⟨hinit, fun c' hc => ?_⟩
        rw [← Option.some.inj hc]
        exact not_not.1 hbound
  · rintro ⟨hinit, hbound⟩
    refine ⟨x, hinit, ?_⟩
    rcases x with _ | c
    · rfl
    · simp only [hbound c rfl, ne_eq, not_true_eq_false, if_false]
      rfl

theorem readMultisigAccount_eq_ok {contractPda : Pubkey} {x : Option MultiSigContract} :
    readMultisigAccount coder info contractPda = .ok x
      ↔ initializedAccount coder.multisig info = .ok x
        ∧ ∀ ms, x = some ms → ms.contract = contractPda ∧ (0 < ms.threshold
          ∧ ms.threshold ≤ ms.maxSigners) ∧ ms.signaturesCollected ≤ ms.maxSigners := by
  unfold readMultisigAccount
  rw [Batch.bind_eq_ok]
  constructor
  · rintro ⟨_ | ms, hinit, hread⟩
    · obtain rfl := Batch.pure_eq_ok.1 hread
      exact ⟨hinit, by simp⟩
    · simp only at hread
      by_cases hbound : ms.contract = contractPda
      · rw [if_neg (not_not.2 hbound)] at hread
        obtain ⟨_, hconfig, hread⟩ := Batch.bind_eq_ok.1 hread
        split_ifs at hread with hcount
        · cases hread
        · obtain rfl := Batch.pure_eq_ok.1 hread
          refine ⟨hinit, fun ms' hms => ?_⟩
          rw [← Option.some.inj hms]
          exact ⟨hbound, validateMultisigConfig_eq_ok.1 hconfig, UInt8.not_lt.1 hcount⟩
      · rw [if_pos hbound] at hread
        cases hread
  · rintro ⟨hinit, hchecks⟩
    rcases x with _ | ms
    · exact ⟨none, hinit, rfl⟩
    · obtain ⟨rfl, hconfig, hcount⟩ := hchecks ms rfl
      exact Batch.bind_eq_ok.1 (readMultisigAccount_some hinit hconfig hcount)

theorem readContractAccount_classifies (h : coder.OfInterface) (contractHash : Bytes 32) :
    Classifies (readContractAccount coder info contractHash) (Uninitialized info)
      (IsContract contractHash info) := by
  refine .of_ok ?_ fun c => ?_
  · simp [readContractAccount_eq_ok, initializedAccount_eq_none]
  · rw [readContractAccount_eq_ok, holdsTyped_iff h.contract_size h.contract]
    exact ⟨fun ⟨hholds, hbound⟩ => ⟨hholds, hbound c rfl⟩,
      fun hc => ⟨hc.holds, fun c' heq => Option.some.inj heq ▸ hc.bound⟩⟩

theorem readMultisigAccount_classifies (h : coder.OfInterface) (contractPda : Pubkey) :
    Classifies (readMultisigAccount coder info contractPda) (Uninitialized info)
      (IsAgreement contractPda info) := by
  refine .of_ok ?_ fun ms => ?_
  · simp [readMultisigAccount_eq_ok, initializedAccount_eq_none]
  · rw [readMultisigAccount_eq_ok, holdsTyped_iff h.multisig_size h.multisig]
    constructor
    · rintro ⟨hholds, hchecks⟩
      obtain ⟨hbound, ⟨hthreshold, hcapacity⟩, hcount⟩ := hchecks ms rfl
      exact ⟨hholds, hbound, hthreshold, hcapacity, hcount⟩
    · intro hms
      refine ⟨hms.holds, fun ms' heq => ?_⟩
      rw [← Option.some.inj heq]
      exact ⟨hms.bound, ⟨hms.threshold, hms.capacity⟩, hms.collected⟩

end Readers

namespace Relay

open Dialogue

/-- The addresses that a request for the status of an agreement is about. -/
def StatusAddresses (D : Pda) (hash : Text) (threshold maxSigners : Option Text)
    (contractPda multisigPda : Pubkey) : Prop :=
  ∃ contractHash t n seeds b b', parseStatusHash hash = .ok contractHash
    ∧ parseStatusConfig threshold maxSigners = .ok (t, n)
    ∧ findProgramAddressSync D [contractSeed, contractHash.toList] = .ok (contractPda, b)
    ∧ multisigSeeds contractHash t n = .ok seeds
    ∧ findProgramAddressSync D seeds = .ok (multisigPda, b')

/-- The response to what the network says: 404 if nothing is there, 200 if the agreement is, with
what it holds, and 502 otherwise. -/
structure TellsStatus (contractPda : Pubkey) (r : Except String (Option AccountInfo))
    (response : Response) : Prop where
  notFound : response.status = 404 ↔ ∃ info, r = .ok info ∧ Uninitialized info
  found : response.status = 200 ↔ ∃ info ms, r = .ok info ∧ IsAgreement contractPda info ms
  failed : response.status = 502 ↔
    ∀ info, r = .ok info → ¬Uninitialized info ∧ ∀ ms, ¬IsAgreement contractPda info ms
  reported : ∀ info ms, r = .ok info → IsAgreement contractPda info ms →
    response = statusAnswer (some ms)

section Status

variable {D : Pda} {coder : Coder} {hash : Text} {threshold maxSigners : Option Text}
  {contractPda multisigPda : Pubkey}

/-- The response, once the network has answered. -/
def tellStatus (coder : Coder) (contractPda : Pubkey) : Except String (Option AccountInfo) →
    Response
  | .error message => sendRelayError (upstreamError message)
  | .ok info => match readMultisigAccount coder info contractPda with
    | .ok ms => statusAnswer ms
    | .error message => sendRelayError (.relay ⟨502, message⟩)

theorem respond_decodeAccount (x : Except String (Option MultiSigContract)) :
    respond (decodeAccount x >>= fun ms => return statusAnswer ms) = .done (match x with
      | .ok ms => statusAnswer ms
      | .error message => sendRelayError (.relay ⟨502, message⟩)) := by
  cases x <;> rfl

/-- A request that names an agreement makes one request to the network. -/
theorem respond_getMultisigStatus
    (h : StatusAddresses D hash threshold maxSigners contractPda multisigPda) :
    respond (getMultisigStatus D coder hash threshold maxSigners)
      = .ask (.getAccountInfo multisigPda) fun r => .done (tellStatus coder contractPda r) := by
  obtain ⟨contractHash, t, n, seeds, b, b', hhash, hconfig, hcontract, hseeds, hmultisig⟩ := h
  simp only [getMultisigStatus, hhash, hconfig, hcontract, hseeds, hmultisig, classified_bind,
    unclassified_bind, fetchAccount_eq]
  refine congrArg (Dialogue.ask (Rpc.getAccountInfo multisigPda)) (funext fun r => ?_)
  rcases r with message | info
  · rfl
  · exact respond_decodeAccount (readMultisigAccount coder info contractPda)

/-- The handler answers without a request: the request to it is bad, or an address has failed to
be derived. -/
def EndsUnasked (handler : Handler Response) : Prop :=
  ∃ response, respond handler = .done response ∧ (response.status = 400 ∨ response.status = 500)

theorem endsUnasked_classified {α : Type} {x : Except RelayError α} {f : α → Handler Response}
    (hx : Checks x) (hf : ∀ a, x = .ok a → EndsUnasked (f a)) :
    EndsUnasked (classified x >>= f) := by
  rcases x with e | a
  · exact ⟨sendRelayError (.relay e), rfl, .inl (hx e rfl)⟩
  · exact hf a rfl

theorem endsUnasked_unclassified {α : Type} {x : Except String α} {f : α → Handler Response}
    (hf : ∀ a, x = .ok a → EndsUnasked (f a)) : EndsUnasked (unclassified x >>= f) := by
  rcases x with message | a
  · exact ⟨sendRelayError (.other message), rfl, .inr rfl⟩
  · exact hf a rfl

theorem checks_parseStatusHash : Checks (parseStatusHash hash) := by
  unfold parseStatusHash
  split
  · exact checks_parseByteArray _ _ _
  · exact checks_error

theorem checks_parseStatusConfig : Checks (parseStatusConfig threshold maxSigners) := by
  unfold parseStatusConfig
  split
  · split
    · exact checks_ok
    · exact checks_error
  · exact checks_error

theorem endsUnasked_getMultisigStatus
    (h : ¬∃ contractPda multisigPda,
      StatusAddresses D hash threshold maxSigners contractPda multisigPda) :
    EndsUnasked (getMultisigStatus D coder hash threshold maxSigners) := by
  unfold getMultisigStatus
  refine endsUnasked_classified checks_parseStatusHash fun contractHash hhash => ?_
  refine endsUnasked_classified checks_parseStatusConfig fun ⟨t, n⟩ hconfig => ?_
  refine endsUnasked_unclassified fun ⟨contractPda, b⟩ hcontract => ?_
  refine endsUnasked_unclassified fun seeds hseeds => ?_
  refine endsUnasked_unclassified fun ⟨multisigPda, b'⟩ hmultisig => ?_
  exact absurd ⟨contractPda, multisigPda, contractHash, t, n, seeds, b, b', hhash, hconfig,
    hcontract, hseeds, hmultisig⟩ h

theorem tellsStatus (h : coder.OfInterface) (r : Except String (Option AccountInfo)) :
    TellsStatus contractPda r (tellStatus coder contractPda r) := by
  rcases r with message | info
  · have hstatus : (tellStatus coder contractPda (.error message)).status = 502 := rfl
    constructor <;> simp [hstatus]
  · have hread : Classifies (readMultisigAccount coder info contractPda) (Uninitialized info)
      (IsAgreement contractPda info) := readMultisigAccount_classifies h contractPda
    have habsent : Uninitialized info ↔ readMultisigAccount coder info contractPda = .ok none :=
      hread.absent.symm
    have hvalid (ms : MultiSigContract) : IsAgreement contractPda info ms
        ↔ readMultisigAccount coder info contractPda = .ok (some ms) := (hread.valid ms).symm
    have hreported : ∀ info' ms, (Except.ok info : Except String _) = .ok info' →
        IsAgreement contractPda info' ms →
        tellStatus coder contractPda (.ok info) = statusAnswer (some ms) := by
      rintro info' ms hok hms
      rw [← Except.ok.inj hok, hvalid ms] at hms
      simp only [tellStatus, hms]
    refine ⟨?_, ?_, ?_, hreported⟩ <;>
      rcases hx : readMultisigAccount coder info contractPda with message | _ | ms <;>
      simp [habsent, hvalid, hx, tellStatus, sendRelayError, statusAnswer]

/-- Both readers tell apart what is not there, what is there, and what has to be an error; and the
status route answers accordingly, whatever the network says. -/
theorem reads_classified (h : coder.OfInterface) :
    (∀ info contractHash, Classifies (readContractAccount coder info contractHash)
      (Uninitialized info) (IsContract contractHash info))
    ∧ (∀ info contractPda, Classifies (readMultisigAccount coder info contractPda)
      (Uninitialized info) (IsAgreement contractPda info))
    ∧ ∀ D hash threshold maxSigners t response,
      Follows (respond (getMultisigStatus D coder hash threshold maxSigners)) t (.done response) →
      (∀ contractPda multisigPda,
        StatusAddresses D hash threshold maxSigners contractPda multisigPda →
        ∃ r, t = [⟨.getAccountInfo multisigPda, r⟩] ∧ TellsStatus contractPda r response)
      ∧ ((¬∃ contractPda multisigPda,
        StatusAddresses D hash threshold maxSigners contractPda multisigPda) →
        t = [] ∧ (response.status = 400 ∨ response.status = 500)) := by
  refine ⟨fun info => readContractAccount_classifies h, fun info =>
    readMultisigAccount_classifies h, fun D hash threshold maxSigners t response hf => ⟨?_, ?_⟩⟩
  · intro contractPda multisigPda haddresses
    rw [respond_getMultisigStatus haddresses] at hf
    cases hf with
    | @ask _ _ r t _ hf =>
      cases hf
      exact ⟨r, rfl, tellsStatus h r⟩
  · intro hno
    have hends : EndsUnasked (getMultisigStatus D coder hash threshold maxSigners) :=
      endsUnasked_getMultisigStatus hno
    obtain ⟨response', hresponse, hstatus⟩ := hends
    rw [hresponse] at hf
    cases hf
    exact ⟨rfl, hstatus⟩

/-- Lamports sent ahead are no agreement, and an executable account is an error. -/
theorem reads_classified_sample :
    (∃ message, readMultisigAccount idlCoder (some ⟨true, some [], some systemProgramId⟩)
      sampleContract = .error message)
    ∧ ∃ response, response.status = 404 ∧ Follows (respond (getMultisigStatus samplePda idlCoder
        (hashParam sampleHash) (some (Nat.toDigits 10 2)) (some (Nat.toDigits 10 3))))
      [⟨.getAccountInfo sampleMultisig, .ok (some ⟨false, some [], some systemProgramId⟩)⟩]
      (.done response) := by
  have hconfig : parseStatusConfig (some (Nat.toDigits 10 2)) (some (Nat.toDigits 10 3))
      = .ok (2, 3) :=
    parseStatusConfig_toDigits (show (0 : UInt8) < 2 by decide) (show (2 : UInt8) ≤ 3 by decide)
  have hseeds : multisigSeeds sampleHash 2 3 = .ok (Derivation.multisig sampleHash 2 3).seeds :=
    multisigSeeds_eq_ok.2 ⟨show (0 : UInt8) < 2 by decide, show (2 : UInt8) ≤ 3 by decide, rfl⟩
  have haddresses : StatusAddresses samplePda (hashParam sampleHash) (some (Nat.toDigits 10 2))
      (some (Nat.toDigits 10 3)) sampleContract sampleMultisig :=
    ⟨sampleHash, 2, 3, (Derivation.multisig sampleHash 2 3).seeds, 255, 254,
      parseStatusHash_hashParam, hconfig,
      (findProgramAddressSync_seeds (d := .contract sampleHash)).2 find_sampleContract, hseeds,
      findProgramAddressSync_seeds.2 find_sampleMultisig⟩
  obtain ⟨-, hread, hstatus⟩ := reads_classified idlCoder_ofInterface
  refine ⟨(hread _ _).rejected.2 ⟨by simp [Uninitialized], fun ms hms => ?_⟩, ?_⟩
  · obtain ⟨data, hinfo, -⟩ := hms.holds
    cases hinfo
  · have hf : Follows (respond (getMultisigStatus samplePda idlCoder (hashParam sampleHash)
        (some (Nat.toDigits 10 2)) (some (Nat.toDigits 10 3))))
        [⟨.getAccountInfo sampleMultisig, .ok (some ⟨false, some [], some systemProgramId⟩)⟩]
        (.done (tellStatus idlCoder sampleContract
          (.ok (some ⟨false, some [], some systemProgramId⟩)))) := by
      rw [respond_getMultisigStatus haddresses]
      exact .ask (.refl _)
    obtain ⟨r, ht, htells⟩ := (hstatus _ _ _ _ _ _ hf).1 _ _ haddresses
    cases ht
    exact ⟨_, htells.notFound.2 ⟨_, rfl, rfl⟩, hf⟩

end Status

end Relay

end Oblivia

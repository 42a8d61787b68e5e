import Oblivia.Client.CoSignPage
import Oblivia.Lib.UrlEncoding
import Oblivia.Lib.Utf16
/-!
# Links to an agreement

The page that creates an agreement writes its text and its settings into a link, and the page that
is opened by the link reads them back. The text is any list of UTF-16 code units, and
`encodeURIComponent` throws on half a pair.
-/

namespace Oblivia

namespace MultisigPage

open UrlEncoding

section Create

/-- The elements of the page that creates an agreement. -/
structure CreatePage where
  creatingInProgress : Bool
  /-- Of the button and of the three inputs. -/
  disabled : Bool
  shareLink : Text
  shareBox : Bool
  deriving DecidableEq

/-- The origin and the path name of a URL, which have no query and no fragment. -/
structure PageAddress where
  text : Text
  plain : ∀ c ∈ text, c ≠ '?' ∧ c ≠ '#'

def encodeURIComponent (s : Utf16) : Except AnswerError Text :=
  if Utf16.isWellFormed s then .ok (encode isUnreserved (Utf16.chars s))
  else .error (.text "URI malformed")

/-- `/^[1-9A-HJ-NP-Za-km-z]{32,44}$/`. -/
def IsAddress (s : Text) : Prop := 32 ≤ s.length ∧ s.length ≤ 44 ∧ s.all isBase58 = true

instance (s : Text) : Decidable (IsAddress s) := inferInstanceAs (Decidable (_ ∧ _ ∧ _))

/-- The checks of an answer to a creation. -/
def confirmCreation (data : Json) : Except AnswerError Unit :=
  let invalid := AnswerError.text "Relay did not return a valid agreement address"
  match data.field "multisig" with
  | some (.string s) =>
    if IsAddress s then
      if isBool true (data.field "alreadyExists") then .ok ()
      else do
        let _ ← validateTransaction (data.field "transaction")
        return
    else .error invalid
  | _ => .error invalid

variable (sha256 : List UInt8 → Bytes 32) (address : PageAddress) (post : Text → RelayAnswer)
  (contract : Utf16) (threshold maxSigners : ℤ)

/-- The body sent to `POST /multisig/create`. -/
def createBody : Json :=
  .object
    [("contractHash".toList, jsonBytes (hashContract sha256 (Utf16.encode contract))),
      ("threshold".toList, .number (.ofNat threshold.toNat)),
      ("maxSigners".toList, .number (.ofNat maxSigners.toNat))]

def link : Except AnswerError Text := do
  return address.text ++ "?c=".toList ++ (← encodeURIComponent contract)
    ++ "&t=".toList ++ bigIntText threshold ++ "&n=".toList ++ bigIntText maxSigners

/-- The `try` of `createMultisig` from the answer on. -/
def tryCreate (answer : RelayAnswer) : Except AnswerError Text := do
  let data ← received answer
  confirmCreation data
  link address contract threshold maxSigners

/-- The handler up to its end. No other handler touches these elements while it waits for the
answer. -/
def createMultisig (p : CreatePage) : CreatePage :=
  if p.creatingInProgress then p
  else if contract = [] then p
  else match validateMultisigConfig threshold maxSigners with
    | .error _ => p
    | .ok _ =>
      let p := { p with creatingInProgress := true, disabled := true, shareBox := false }
      let answer := post (createBody sha256 contract threshold maxSigners).stringify
      let p := match tryCreate address contract threshold maxSigners answer with
        | .ok link => { p with shareLink := link, shareBox := true }
        | .error _ => p
      { p with creatingInProgress := false, disabled := false }

end Create

section Open

/-- The settings in a query, if they are numbers and valid. -/
def linkSettings (params : List (Text × Text)) : Option (ℕ × ℕ) :=
  let t := (params.lookup "t".toList).getD []
  let n := (params.lookup "n".toList).getD []
  if Numeral.IsNumeral 10 t ∧ Numeral.IsNumeral 10 n then
    match validateMultisigConfig (Numeral.value 10 t) (Numeral.value 10 n) with
    | .ok _ => some (Numeral.value 10 t, Numeral.value 10 n)
    | .error _ => none
  else none

/-- The text and the settings of an agreement, of a query with a text: otherwise the page is the
one that creates an agreement. -/
def signMode (query : Text) : Option (Utf16 × Option (ℕ × ℕ)) :=
  let params := searchParams query
  match params.lookup "c".toList with
  | some c => if c = [] then none else some (Utf16.ofChars c, linkSettings params)
  | none => none

end Open

section RoundTrip

variable {sha256 : List UInt8 → Bytes 32} {address : PageAddress} {post : Text → RelayAnswer}
  {contract : Utf16} {threshold maxSigners : ℤ}

/-- The names and the values of a link. -/
def linkParams (contract : Utf16) (threshold maxSigners : ℕ) : List (Text × Text) :=
  [("c".toList, Utf16.chars contract), ("t".toList, decimal threshold),
    ("n".toList, decimal maxSigners)]

theorem encode_decimal (n : ℕ) : encode isUnreserved (decimal n) = decimal n := by
  have hdigit : ∀ c ∈ decimal n, c.isDigit = true := Json.isDigit_toDigits
  refine (List.flatMap_congr fun c hc => ?_).trans (List.flatMap_singleton' _)
  have hc : isUnreserved c = true := by simp [isUnreserved, Char.isAlphanum, hdigit c hc]
  exact if_pos hc

theorem link_eq (h : Utf16.isWellFormed contract = true) (t n : ℕ) :
    link address contract t n
      = .ok (address.text ++ '?' :: join isUnreserved (linkParams contract t n)) := by
  have hc : encode isUnreserved ['c'] = ['c'] := by decide
  have ht : encode isUnreserved ['t'] = ['t'] := by decide
  have hn : encode isUnreserved ['n'] = ['n'] := by decide
  have hlink : link address contract t n = .ok (address.text ++ "?c=".toList
      ++ encode isUnreserved (Utf16.chars contract) ++ "&t=".toList ++ decimal t
      ++ "&n=".toList ++ decimal n) := by
    rw [link, encodeURIComponent, if_pos h]
    rfl
  rw [hlink]
  simp [join, linkParams, hc, ht, hn, encode_decimal]

theorem linkSettings_linkParams {t n : ℕ} (h : validateMultisigConfig t n = .ok ()) :
    linkSettings (linkParams contract t n) = some (t, n) := by
  have hnum (k : ℕ) : Numeral.IsNumeral 10 (decimal k) :=
    Numeral.isNumeral_toDigits (by decide) (by decide) k
  have hval (k : ℕ) : Numeral.value 10 (decimal k) = k :=
    Numeral.value_toDigits (by decide) (by decide) k
  have ht : (linkParams contract t n).lookup "t".toList = some (decimal t) := rfl
  have hn : (linkParams contract t n).lookup "n".toList = some (decimal n) := rfl
  simp only [linkSettings, ht, hn, Option.getD_some, hval, h]
  exact if_pos ⟨hnum t, hnum n⟩

theorem signMode_link (h : Utf16.isWellFormed contract = true) (hne : contract ≠ []) {t n : ℕ}
    (hconfig : validateMultisigConfig t n = .ok ()) :
    signMode (search (address.text ++ '?' :: join isUnreserved (linkParams contract t n)))
      = some (contract, some (t, n)) := by
  have hparams : searchParams
      (search (address.text ++ '?' :: join isUnreserved (linkParams contract t n)))
      = linkParams contract t n :=
    searchParams_search keepsPlain_isUnreserved address.plain (by simp [linkParams])
  have hc : (linkParams contract t n).lookup "c".toList = some (Utf16.chars contract) := rfl
  have hchars : Utf16.chars contract ≠ [] := by
    intro hnil
    have h := Utf16.ofChars_chars h
    rw [hnil] at h
    exact hne h.symm
  simp only [signMode, hparams, hc, if_neg hchars, Utf16.ofChars_chars h,
    linkSettings_linkParams hconfig]

/-- The page shows a link, and the page that the link opens has the text, of the hash that was
sent, and the settings. -/
def Shares (sha256 : List UInt8 → Bytes 32) (contract : Utf16) (threshold maxSigners : ℤ)
    (p : CreatePage) : Prop :=
  p.shareBox = true ∧ ∃ opened config, signMode (search p.shareLink) = some (opened, some config)
    ∧ opened = contract
    ∧ (createBody sha256 contract threshold maxSigners).field "contractHash"
      = some (jsonBytes (hashContract sha256 (Utf16.encode opened)))
    ∧ (config.1 : ℤ) = threshold ∧ (config.2 : ℤ) = maxSigners

/-- The answer confirms the creation. -/
def Confirms (answer : RelayAnswer) : Prop :=
  ∃ data, received answer = .ok data ∧ confirmCreation data = .ok ()

theorem createMultisig_eq {p : CreatePage} (hidle : p.creatingInProgress = false)
    (hne : contract ≠ []) (hconfig : validateMultisigConfig threshold maxSigners = .ok ())
    (hconfirms : Confirms (post (createBody sha256 contract threshold maxSigners).stringify)) :
    createMultisig sha256 address post contract threshold maxSigners p
      = match link address contract threshold maxSigners with
        | .ok link => ⟨false, false, link, true⟩
        | .error _ => ⟨false, false, p.shareLink, false⟩ := by
  obtain ⟨data, hdata, hdata'⟩ := hconfirms
  unfold createMultisig
  simp only [hidle, Bool.false_eq_true, if_false, if_neg hne, hconfig, tryCreate, hdata, hdata',
    Batch.ok_bind]
  rcases link address contract threshold maxSigners with e | l <;> rfl

theorem not_shares {p : CreatePage} (h : ¬Utf16.isWellFormed contract = true)
    (hidle : p.creatingInProgress = false) (hne : contract ≠ [])
    (hconfig : validateMultisigConfig threshold maxSigners = .ok ())
    (hconfirms : Confirms (post (createBody sha256 contract threshold maxSigners).stringify)) :
    ¬Shares sha256 contract threshold maxSigners
      (createMultisig sha256 address post contract threshold maxSigners p) := by
  have hlink : ∃ e, link address contract threshold maxSigners = .error e := by
    refine ⟨.text "URI malformed", ?_⟩
    rw [link, encodeURIComponent, if_neg h]
    rfl
  obtain ⟨e, hlink⟩ := hlink
  rw [createMultisig_eq hidle hne hconfig hconfirms, hlink]
  rintro ⟨hbox, -⟩
  cases hbox

theorem shares_of_wellFormed {p : CreatePage} (h : Utf16.isWellFormed contract = true)
    (hidle : p.creatingInProgress = false) (hne : contract ≠ [])
    (hconfig : validateMultisigConfig threshold maxSigners = .ok ())
    (hconfirms : Confirms (post (createBody sha256 contract threshold maxSigners).stringify)) :
    Shares sha256 contract threshold maxSigners
      (createMultisig sha256 address post contract threshold maxSigners p) := by
  obtain ⟨hpos, hle⟩ : 1 ≤ threshold ∧ threshold ≤ maxSigners := by
    unfold validateMultisigConfig at hconfig
    split_ifs at hconfig with hbad
    omega
  lift threshold to ℕ using by omega
  lift maxSigners to ℕ using by omega
  rw [createMultisig_eq hidle hne hconfig hconfirms, link_eq h]
  exact ⟨rfl, contract, (threshold, maxSigners), signMode_link h hne hconfig, rfl, rfl, rfl, rfl⟩

end RoundTrip

section Silence

/-- The settings of a query are numbers and valid. -/
def HasSettings (query : Text) : Prop :=
  ∃ t n, (searchParams query).lookup "t".toList = some t
    ∧ (searchParams query).lookup "n".toList = some n
    ∧ (Numeral.IsNumeral 10 t ∧ Numeral.IsNumeral 10 n)
    ∧ validateMultisigConfig (Numeral.value 10 t) (Numeral.value 10 n) = .ok ()

theorem linkSettings_eq_none {query : Text} (h : ¬HasSettings query) :
    linkSettings (searchParams query) = none := by
  have hempty : ¬Numeral.IsNumeral 10 [] := fun hnum => hnum.1 rfl
  by_contra hsome
  unfold linkSettings at hsome
  simp only at hsome
  split_ifs at hsome with hnum
  · rcases ht : (searchParams query).lookup "t".toList with _ | t
    · rw [ht] at hnum
      exact hempty hnum.1
    rcases hn : (searchParams query).lookup "n".toList with _ | n
    · rw [hn] at hnum
      exact hempty hnum.2
    rw [ht, hn] at hnum hsome
    simp only [Option.getD_some] at hnum hsome
    rcases hvalid : validateMultisigConfig (Numeral.value 10 t) (Numeral.value 10 n) with e | u
    · rw [hvalid] at hsome
      exact hsome rfl
    · exact h ⟨t, n, ht, hn, hnum, hvalid⟩
  · exact hsome rfl

/-- A page without settings. -/
structure Page.Blocked (p : Page) : Prop where
  config : p.currentConfig = none
  disabled : p.scanBtn.disabled = true
  final : p.finalizedStatus = none

variable {sha256 : List UInt8 → Bytes 32} {clock : ℕ → Text} {domain : Except String (Option Text)}

/-- A handler that has been called on such a page ends at once. -/
theorem blocked_handler (event : Event) :
    Async.AsksIn (· = .event) Page.Blocked (handler sha256 clock domain event) := by
  intro o p hp
  cases event with
  | refresh =>
    have hq : { p with statusRevision := p.statusRevision + 1 }.Blocked :=
      ⟨hp.config, hp.disabled, hp.final⟩
    unfold handler refreshStatus
    refine Async.meets_modify_bind.2 (Async.meets_get_bind.2 (Async.meets_catching.2 ?_))
    unfold tryStatus
    refine Async.meets_get_bind.2 ?_
    rw [if_pos (by simp [hp.config])]
    refine Async.meets_get_bind.2 ?_
    rw [if_neg (by simp)]
    generalize { p with statusRevision := p.statusRevision + 1 } = q at *
    refine Async.meets_modify.2 ?_
    simp only [hq.final]
    exact ⟨hq.config, hq.disabled, rfl⟩
  | click create =>
    unfold handler unlockSigner
    refine Async.meets_get_bind.2 ?_
    rw [if_pos (.inl hp.disabled)]
    exact hp

variable {ι : Type} [DecidableEq ι]

/-- Whatever its events are, a page without settings requests nothing. -/
theorem waits_of_blocked {contract : List UInt8} {events : ι → Event}
    {c : Async.Crowd ι Wait Wait.Answer Page (Except Unit Unit)}
    (h : Async.Crowd.Runs (session sha256 clock domain contract none events) c) (i : ι) {q : Wait}
    (hq : c.waits i = some q) : q = .event :=
  (Async.Crowd.runs_of_asksIn (S := (· = .event)) (I := Page.Blocked) ⟨rfl, rfl, rfl⟩ rfl
    (fun i => blocked_handler (events i)) h).2 i q hq

end Silence

/-- Sharing is for texts without half a pair. A page whose link has no settings asks the relay for
nothing. -/
theorem shares_iff_wellFormed (sha256 : List UInt8 → Bytes 32) :
    (∀ (address : PageAddress) (post : Text → RelayAnswer) (contract : Utf16)
      (threshold maxSigners : ℤ) (p : CreatePage), p.creatingInProgress = false → contract ≠ [] →
      validateMultisigConfig threshold maxSigners = .ok () →
      Confirms (post (createBody sha256 contract threshold maxSigners).stringify) →
      (Shares sha256 contract threshold maxSigners
        (createMultisig sha256 address post contract threshold maxSigners p)
          ↔ Utf16.isWellFormed contract = true))
    ∧ ∀ (query : Text) (contract : Utf16) (config : Option (ℕ × ℕ)),
      signMode query = some (contract, config) → ¬HasSettings query →
      ∀ (clock : ℕ → Text) (domain : Except String (Option Text)) (ι : Type) [DecidableEq ι]
        (events : ι → Event) (c : Async.Crowd ι Wait Wait.Answer Page (Except Unit Unit)),
        Async.Crowd.Runs
          (session sha256 clock domain (Utf16.encode contract) config events) c →
        ∀ i, (∀ revision, c.waits i ≠ some (.getStatus revision))
          ∧ ∀ body, c.waits i ≠ some (.postSign body) := by
  refine ⟨fun address post contract threshold maxSigners p hidle hne hconfig hconfirms =>
    ⟨fun hshares => ?_, fun h => shares_of_wellFormed h hidle hne hconfig hconfirms⟩,
    fun query contract config hmode hsettings clock domain ι _ events c hruns i => ?_⟩
  · by_contra h
    exact not_shares h hidle hne hconfig hconfirms hshares
  · have hnone : config = none := by
      unfold signMode at hmode
      simp only [linkSettings_eq_none hsettings] at hmode
      split at hmode
      · split_ifs at hmode
        exact (Prod.mk.inj (Option.some.inj hmode)).2.symm
      · cases hmode
    rw [hnone] at hruns
    refine ⟨fun revision hq => ?_, fun body hq => ?_⟩
    · cases waits_of_blocked hruns i hq
    · cases waits_of_blocked hruns i hq

section Sample

def sampleAddress : PageAddress where
  text := "https://oblivia/".toList
  plain c hc := by
    have hall : "https://oblivia/".toList.all (fun c => c != '?' && c != '#') = true := by decide
    simpa only [Bool.and_eq_true, bne_iff_ne] using List.all_eq_true.1 hall c hc

/-- Somebody else has made the agreement. -/
def confirmedCreation : Json :=
  .object [("multisig".toList, .string (List.replicate 32 '1')),
    ("alreadyExists".toList, .bool true)]

def sampleConfirmation : RelayAnswer := .ok (200, confirmedCreation.stringify)

theorem confirms_sampleConfirmation : Confirms sampleConfirmation := by
  refine ⟨confirmedCreation, ?_, rfl⟩
  simp only [sampleConfirmation, received, relayResponse, Json.parse_stringify]
  rfl

/-- A text with a pair and with characters that links reserve. -/
def sharedText : Utf16 := [0xD83D, 0xDE00] ++ Utf16.ofChars "? 50% & x=1 #2".toList

theorem shares_iff_wellFormed_sample : Shares (fun _ => .zero 32) sharedText 2 3
    (createMultisig (fun _ => .zero 32) sampleAddress (fun _ => sampleConfirmation) sharedText 2 3
      ⟨false, false, [], false⟩) :=
  ((shares_iff_wellFormed fun _ => .zero 32).1 sampleAddress (fun _ => sampleConfirmation)
    sharedText 2 3 ⟨false, false, [], false⟩ rfl (by decide) (by decide)
    confirms_sampleConfirmation).2 (by decide)

/-- Half a pair as the text of an agreement of one signer. -/
theorem shares_counterexample : ¬∀ (post : Text → RelayAnswer) (contract : Utf16),
    contract ≠ [] → Confirms (post (createBody (fun _ => .zero 32) contract 1 1).stringify) →
    Shares (fun _ => .zero 32) contract 1 1
      (createMultisig (fun _ => .zero 32) sampleAddress post contract 1 1
        ⟨false, false, [], false⟩) := by
  intro h
  exact not_shares (by decide) rfl (by decide) (by decide) confirms_sampleConfirmation
    (h (fun _ => sampleConfirmation) [0xD800] (by decide) confirms_sampleConfirmation)

end Sample

end MultisigPage

end Oblivia

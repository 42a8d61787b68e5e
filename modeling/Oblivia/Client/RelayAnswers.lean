import Oblivia.Relay.Routes
/-!
# What the co-signing page accepts

The checks the page makes of an answer of the relay before it shows anything of it: that it is a
success, that the signature of the transaction is one, and that the counters of the agreement agree
with each other and with the flag.
-/

namespace Oblivia

/-- Whether a field counts as true in a condition. -/
def truthy : Option Json → Bool
  | none => false
  | some .null => false
  | some (.bool b) => b
  | some (.number x) => decide (x.value ≠ some 0)
  | some (.string s) => !s.isEmpty
  | some (.array _) => true
  | some (.object _) => true

/-- What is thrown over an answer: the error of `response.json()`, or one made from this value. -/
inductive AnswerError
  | notJson
  | error (message : Json)

namespace AnswerError

def text (message : String) : AnswerError := .error (.string message.toList)

/-- The error the relay has sent, or else this one. -/
def orElse (sent : Option Json) (message : String) : AnswerError :=
  if truthy sent then .error (sent.getD .null) else text message

end AnswerError

/-- `/^[1-9A-HJ-NP-Za-km-z]$/`. -/
def isBase58 (c : Char) : Bool :=
  ('1' ≤ c && c ≤ '9') || ('A' ≤ c && c ≤ 'H') || ('J' ≤ c && c ≤ 'N') || ('P' ≤ c && c ≤ 'Z')
    || ('a' ≤ c && c ≤ 'k') || ('m' ≤ c && c ≤ 'z')

/-- The signature of a transaction, in base 58. -/
def IsTransaction (s : Text) : Prop := 64 ≤ s.length ∧ s.length ≤ 88 ∧ s.all isBase58 = true

instance (s : Text) : Decidable (IsTransaction s) := inferInstanceAs (Decidable (_ ∧ _ ∧ _))

/-- An answer of the relay: its status code and its body, or the message of what the request
rejects with. -/
abbrev RelayAnswer := Except String (ℕ × Text)

/-- `response.ok`. -/
def isOk (status : ℕ) : Bool := 200 ≤ status && status < 300

namespace MultisigPage

/-- The counters of an agreement and its flag, as the page shows them. -/
structure AgreementStatus where
  collected : ℤ
  threshold : ℤ
  finalized : Bool
  deriving DecidableEq

/-- The body of an answer, from its status code and its text. -/
def relayResponse (status : ℕ) (text : Text) : Except AnswerError Json :=
  match Json.parse text with
  | none => .error .notJson
  | some data =>
    let failure := AnswerError.orElse (data.field "error")
      "Relay returned an unsuccessful response"
    match data with
    | .object _ => if isOk status ∧ truthy (data.field "error") = false then .ok data
      else .error failure
    | _ => .error failure

def validateTransaction : Option Json → Except AnswerError Text
  | some (.string s) =>
    if IsTransaction s then .ok s
    else .error (.text "Relay did not return a valid transaction signature")
  | _ => .error (.text "Relay did not return a valid transaction signature")

def validateStatus (status : Json) (minimumCollected : ℤ) : Except AnswerError AgreementStatus :=
  let invalid := AnswerError.text "Relay returned invalid agreement status"
  match Relay.integer (status.field "threshold"), Relay.integer (status.field "collected"),
    status.field "finalized" with
  | some threshold, some collected, some (.bool finalized) =>
    if threshold < 1 ∨ threshold > 255 ∨ collected < minimumCollected ∨ collected > threshold
      ∨ finalized ≠ decide (collected ≥ threshold) then .error invalid
    else .ok ⟨collected, threshold, finalized⟩
  | _, _, _ => .error invalid

section Valid

/-- The page has checked these counters. -/
structure AgreementStatus.Valid (s : AgreementStatus) (minimumCollected : ℤ) : Prop where
  positive : 1 ≤ s.threshold
  bounded : s.threshold ≤ 255
  minimum : minimumCollected ≤ s.collected
  collected : s.collected ≤ s.threshold
  finalized : s.finalized = decide (s.threshold ≤ s.collected)

theorem AgreementStatus.Valid.mono {s : AgreementStatus} {m m' : ℤ} (h : s.Valid m) (hm : m' ≤ m) :
    s.Valid m' :=
  { h with minimum := hm.trans h.minimum }

theorem valid_of_validateStatus {status : Json} {minimumCollected : ℤ} {s : AgreementStatus}
    (h : validateStatus status minimumCollected = .ok s) : s.Valid minimumCollected := by
  unfold validateStatus at h
  split at h
  · split_ifs at h with hbad
    simp only [Except.ok.injEq] at h
    subst h
    push Not at hbad
    exact ⟨hbad.1, hbad.2.1, hbad.2.2.1, hbad.2.2.2.1, hbad.2.2.2.2⟩
  · cases h

/-- The counters of an object that passes. -/
theorem validateStatus_eq_ok {status : Json} {minimumCollected : ℤ} {collected threshold : ℕ}
    {finalized : Bool} (hc : status.field "collected" = some (.number (.ofNat collected)))
    (ht : status.field "threshold" = some (.number (.ofNat threshold)))
    (hf : status.field "finalized" = some (.bool finalized))
    (hv : (AgreementStatus.mk collected threshold finalized).Valid minimumCollected) :
    validateStatus status minimumCollected = .ok ⟨collected, threshold, finalized⟩ := by
  have hpos : 1 ≤ (threshold : ℤ) := hv.positive
  have hbound : (threshold : ℤ) ≤ 255 := hv.bounded
  have hmin : minimumCollected ≤ collected := hv.minimum
  have hle : (collected : ℤ) ≤ threshold := hv.collected
  have hfin : finalized = decide ((collected : ℤ) ≥ threshold) := hv.finalized
  simp only [validateStatus, hc, ht, hf, Relay.integer_ofNat (n := collected) (by omega),
    Relay.integer_ofNat (n := threshold) (by omega)]
  refine if_neg ?_
  rintro (h | h | h | h | h)
  · omega
  · omega
  · omega
  · omega
  · exact h hfin

end Valid

end MultisigPage

end Oblivia

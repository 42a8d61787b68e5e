import Oblivia.Relay.Requests
import Oblivia.Relay.SponsorBudget
/-!
# Sponsored requests and their connections

The middleware and the handlers of the three sponsored routes, up to the sends they make, with the
connections of their clients. A response emits `close` once, when its connection has ended, and
`finish` if it was handed to a connection that was still open; a listener attached later sees
neither.
-/

namespace Oblivia

namespace Relay

inductive Route
  | sign
  | create
  | multisigSign
  deriving DecidableEq

/-- What a handler does before its first wait: it checks the body and loads the program. -/
def validate (route : Route) (body : Option Json) (configured : Bool) : Except RelayError Unit := do
  match route with
  | .sign => (signRequest body).map fun _ => ()
  | .create => (createRequest body).map fun _ => ()
  | .multisigSign => (multisigSignRequest body).map fun _ => ()
  if configured then .ok ()
  else .error ⟨503, "Relay signer or program configuration is unavailable"⟩

/-- What a handler waits for. `existing` says that the agreement exists, and `error` is what an
initialization failed with. -/
inductive Stage
  | readContract
  | readMultisig (contract : Bool)
  | register (existing : Bool)
  | recoverContract (existing : Bool) (error : RelayError)
  | verify
  | create
  | recoverMultisig (error : RelayError)
  | build
  | verifyAndRecord
  | readStatus

/-- How a wait ends: a transaction confirmed, an account read or none there, a request that failed,
an account that does not pass its checks. -/
inductive Reply
  | confirmed
  | found
  | absent
  | failed (error : RelayError)
  | invalid (error : RelayError)

/-- The next wait of a handler, or its answer. -/
inductive Outcome
  | wait (stage : Stage)
  | answer (error : Option RelayError)

def firstStage : Route → Stage
  | .multisigSign => .build
  | _ => .readContract

/-- What follows once the contract is registered. -/
def registered (route : Route) (existing : Bool) : Outcome :=
  if route = .create then
    if existing then .answer none else .wait .create
  else .wait .verify

/-- A handler when its wait ends, if it can end so. -/
def proceed (route : Route) : Stage → Reply → Option Outcome
  | .readContract, .found =>
    some (.wait (if route = .create then .readMultisig true else .verify))
  | .readContract, .absent =>
    some (.wait (if route = .create then .readMultisig false else .register false))
  | .readMultisig contract, .found =>
    some (if contract then .answer none else .wait (.register true))
  | .readMultisig contract, .absent =>
    some (.wait (if contract then .create else .register false))
  | .register existing, .confirmed => some (registered route existing)
  | .register existing, .failed error => some (.wait (.recoverContract existing error))
  | .recoverContract existing _, .found => some (registered route existing)
  | .create, .confirmed => some (.answer none)
  | .create, .failed error => some (.wait (.recoverMultisig error))
  | .recoverMultisig _, .found => some (.answer none)
  | .recoverContract _ error, .absent | .recoverContract _ error, .failed _
  | .recoverMultisig error, .absent | .recoverMultisig error, .failed _ => some (.answer error)
  | .verify, .confirmed => some (.answer none)
  | .build, .confirmed => some (.wait .verifyAndRecord)
  | .build, .failed _ => some (.answer (some ⟨500, "Relay request failed"⟩))
  | .verifyAndRecord, .confirmed => some (.wait .readStatus)
  -- the receipt is sent without the status
  | .readStatus, .found | .readStatus, .failed _ => some (.answer none)
  | _, .failed error | _, .invalid error => some (.answer error)
  | _, _ => none

/-- The handler waits for a transaction it has sent. -/
def Stage.sending : Stage → Bool
  | register _ | verify | create | verifyAndRecord => true
  | _ => false

/-- The handler waits for a transaction or may still send one. -/
def canSend (route : Route) : Stage → Bool
  | .recoverContract existing _ => !(route = .create && existing)
  | .recoverMultisig _ | .readStatus => false
  | _ => true

section CanSend

variable {route : Route} {stage next : Stage} {reply : Reply}

theorem canSend_of_sending (h : stage.sending = true) : canSend route stage = true := by
  cases stage <;> simp_all [Stage.sending, canSend]

/-- A handler that may send after a wait may send before it. -/
theorem canSend_of_proceed (h : proceed route stage reply = some (.wait next))
    (hnext : canSend route next = true) : canSend route stage = true := by
  by_contra hstage
  cases stage with
  | recoverContract existing error =>
    simp only [canSend, Bool.not_eq_true', Bool.and_eq_true, decide_eq_true_eq,
      Bool.not_eq_false] at hstage
    obtain ⟨rfl, rfl⟩ := hstage
    cases reply <;> simp [proceed, registered] at h
  | recoverMultisig error => cases reply <;> simp [proceed] at h
  | readStatus => cases reply <;> simp [proceed] at h
  | _ => exact hstage rfl

/-- The stage some replies lead to, if they end no answer. -/
def follow (route : Route) : Stage → List Reply → Option Stage
  | stage, [] => some stage
  | stage, reply :: replies => match proceed route stage reply with
    | some (.wait next) => follow route next replies
    | _ => none

theorem canSend_of_follow : ∀ {stage : Stage} (replies : List Reply),
    follow route stage replies = some next → next.sending = true → canSend route stage = true
  | stage, [], h, hsend => by
    cases h
    exact canSend_of_sending hsend
  | stage, reply :: replies, h, hsend => by
    unfold follow at h
    split at h
    · rename_i hproceed
      exact canSend_of_proceed hproceed (canSend_of_follow replies h hsend)
    · cases h

/-- A handler may send exactly if some replies lead to a send. -/
theorem canSend_iff : canSend route stage = true ↔
    ∃ replies next, follow route stage replies = some next ∧ next.sending = true := by
  refine ⟨fun h => ?_, fun ⟨replies, _, hfollow, hsend⟩ =>
    canSend_of_follow replies hfollow hsend⟩
  cases stage with
  | readContract =>
    by_cases hroute : route = .create
    · exact ⟨[.absent, .absent], .register false, by simp [follow, proceed, hroute], rfl⟩
    · exact ⟨[.absent], .register false, by simp [follow, proceed, hroute], rfl⟩
  | readMultisig contract =>
    cases contract
    · exact ⟨[.absent], _, rfl, rfl⟩
    · exact ⟨[.absent], _, rfl, rfl⟩
  | recoverContract existing error =>
    by_cases hroute : route = .create
    · have hnew : existing = false := by simpa [canSend, hroute] using h
      exact ⟨[.found], .create, by simp [follow, proceed, registered, hroute, hnew], rfl⟩
    · exact ⟨[.found], .verify, by simp [follow, proceed, registered, hroute], rfl⟩
  | build => exact ⟨[.confirmed], _, rfl, rfl⟩
  | recoverMultisig error => cases h
  | readStatus => cases h
  | _ => exact ⟨[], _, rfl, rfl⟩

end CanSend

/-- Where the code of a request is: in the middleware, in its handler, or nowhere any more. -/
inductive Phase
  | absent
  | acquiring (route : Route) (body : Option Json)
  | handling (route : Route) (stage : Stage)
  | done

/-- A request and its response: `listening` once the release function is attached, `ended` when the
connection has ended, `closed` when `close` has been emitted, `finishing` while `finish` is still
to be. -/
structure Exchange where
  phase : Phase
  listening : Bool
  ended : Bool
  closed : Bool
  finishing : Bool
  error : Option RelayError

def Exchange.unknown : Exchange := ⟨.absent, false, false, false, false, none⟩

/-- The code of the request ends with an answer, which finishes if the connection is open. -/
def Exchange.respond (x : Exchange) (error : Option RelayError) : Exchange :=
  { x with phase := .done, finishing := !x.ended, error := error }

structure Server where
  sponsor : Sponsor
  exchange : ℕ → Exchange

/-- What the middleware makes of a request: it is over its rate limit, the signer is misconfigured,
which the handler reports, or it goes to the budget. -/
inductive Admission
  | limited
  | misconfigured
  | budgeted

inductive ServerEvent
  | arrive (r : ℕ) (route : Route) (body : Option Json) (admission : Admission)
  | budget (e : Event)
  | resume (r : ℕ) (configured : Bool)
  | advance (r : ℕ) (reply : Reply)
  | spend (r amount : ℕ)
  | hangUp (r : ℕ)
  | close (r : ℕ)
  | finish (r : ℕ)

/-- The request an event is about. -/
def ServerEvent.request : ServerEvent → Option ℕ
  | arrive r _ _ _ | resume r _ | advance r _ | spend r _ | hangUp r | close r | finish r => some r
  | budget _ => none

/-- The events of the budget that no code of a request brings about. -/
def Event.isInternal : Event → Bool
  | .acquire _ | .release _ | .withdraw _ _ => false
  | _ => true

/-- The event of the budget that an event of the server brings about, if it does. -/
def ServerEvent.effect : ServerEvent → Option Event
  | arrive r _ _ _ => some (.acquire r)
  | budget e => some e
  | spend r x => some (.withdraw r x)
  | close r | finish r => some (.release r)
  | _ => none

/-- What the middleware answers when an acquire rejects. -/
def refusal : AcquireError → RelayError
  | .paused message => ⟨503, message⟩
  | .unreadable _ => ⟨502, "Sponsor balance is unavailable"⟩

namespace Server

def start (balance today : ℕ) : Server := ⟨.start balance today, fun _ => .unknown⟩

def set (m : Server) (r : ℕ) (x : Exchange) : Server :=
  { m with exchange := Function.update m.exchange r x }

def respond (m : Server) (r : ℕ) (error : Option RelayError) : Server :=
  m.set r ((m.exchange r).respond error)

/-- An event of the response calls the release function if it is attached. -/
def emit (m : Server) (r : ℕ) : Server :=
  if (m.exchange r).listening then { m with sponsor := m.sponsor.release r } else m

def arrive (m : Server) (r : ℕ) (route : Route) (body : Option Json) : Admission → Server
  | .limited => m.respond r (some ⟨429, "Sponsored signing limit reached; try again later."⟩)
  | .misconfigured => m.respond r (match validate route body false with
    | .error error => some error
    | .ok () => none)
  | .budgeted =>
    { m.set r { m.exchange r with phase := .acquiring route body } with
      sponsor := m.sponsor.acquire r }

/-- The middleware goes on with an admitted request: the listeners are attached, and the handler
runs up to its first wait. -/
def handle (m : Server) (r : ℕ) (route : Route) (body : Option Json) (configured : Bool) : Server :=
  let x := { m.exchange r with listening := true }
  m.set r (match validate route body configured with
    | .error error => x.respond (some error)
    | .ok () => { x with phase := .handling route (firstStage route) })

/-- A handler goes on to its next wait, or answers. -/
def advance (m : Server) (r : ℕ) (route : Route) : Outcome → Server
  | .wait stage => m.set r { m.exchange r with phase := .handling route stage }
  | .answer error => m.respond r error

/-- A step, if it can happen here. -/
def step (L : Limits) (m : Server) : ServerEvent → Except Unit Server
  | .arrive r route body admission => match (m.exchange r).phase with
    | .absent => .ok (m.arrive r route body admission)
    | _ => .error ()
  | .budget e =>
    if e.isInternal then (m.sponsor.step L e).map fun sponsor => { m with sponsor := sponsor }
    else .error ()
  | .resume r configured => match (m.exchange r).phase, m.sponsor.settled.lookup r with
    | .acquiring route body, some (.ok ()) => .ok (m.handle r route body configured)
    | .acquiring _ _, some (.error e) => .ok (m.respond r (some (refusal e)))
    | _, _ => .error ()
  | .advance r reply => match (m.exchange r).phase with
    | .handling route stage =>
      (proceed route stage reply).elim (.error ()) fun o => .ok (m.advance r route o)
    | _ => .error ()
  | .spend r x => match (m.exchange r).phase with
    | .handling _ stage =>
      if stage.sending then
        (m.sponsor.step L (.withdraw r x)).map fun sponsor => { m with sponsor := sponsor }
      else .error ()
    | _ => .error ()
  | .hangUp r =>
    if (m.exchange r).ended = false then .ok (m.set r { m.exchange r with ended := true })
    else .error ()
  | .close r =>
    if (m.exchange r).ended = true ∧ (m.exchange r).closed = false then
      .ok ((m.set r { m.exchange r with closed := true }).emit r)
    else .error ()
  | .finish r =>
    if (m.exchange r).finishing = true then
      .ok ((m.set r { m.exchange r with finishing := false }).emit r)
    else .error ()

/-- What a step does, and when it can happen. -/
inductive Step (L : Limits) (m : Server) : ServerEvent → Server → Prop
  | arrive {r : ℕ} {route : Route} {body : Option Json} {admission : Admission} :
      (m.exchange r).phase = .absent →
      Step L m (.arrive r route body admission) (m.arrive r route body admission)
  | budget {e : Event} {sponsor : Sponsor} : e.isInternal = true →
      m.sponsor.step L e = .ok sponsor → Step L m (.budget e) { m with sponsor := sponsor }
  | resume {r : ℕ} {route : Route} {body : Option Json} {configured : Bool} :
      (m.exchange r).phase = .acquiring route body → m.sponsor.settled.lookup r = some (.ok ()) →
      Step L m (.resume r configured) (m.handle r route body configured)
  | refuse {r : ℕ} {route : Route} {body : Option Json} {configured : Bool} {e : AcquireError} :
      (m.exchange r).phase = .acquiring route body → m.sponsor.settled.lookup r = some (.error e) →
      Step L m (.resume r configured) (m.respond r (some (refusal e)))
  | advance {r : ℕ} {route : Route} {stage : Stage} {reply : Reply} {o : Outcome} :
      (m.exchange r).phase = .handling route stage → proceed route stage reply = some o →
      Step L m (.advance r reply) (m.advance r route o)
  | spend {r x : ℕ} {route : Route} {stage : Stage} {sponsor : Sponsor} :
      (m.exchange r).phase = .handling route stage → stage.sending = true →
      m.sponsor.step L (.withdraw r x) = .ok sponsor →
      Step L m (.spend r x) { m with sponsor := sponsor }
  | hangUp {r : ℕ} : (m.exchange r).ended = false →
      Step L m (.hangUp r) (m.set r { m.exchange r with ended := true })
  | close {r : ℕ} : (m.exchange r).ended = true → (m.exchange r).closed = false →
      Step L m (.close r) ((m.set r { m.exchange r with closed := true }).emit r)
  | finish {r : ℕ} : (m.exchange r).finishing = true →
      Step L m (.finish r) ((m.set r { m.exchange r with finishing := false }).emit r)

theorem map_eq_ok {x : Except Unit Sponsor} {f : Sponsor → Server} {m : Server}
    (h : x.map f = .ok m) : ∃ s, x = .ok s ∧ f s = m := by
  cases x with
  | error => cases h
  | ok s => exact ⟨s, rfl, by simpa [Except.map] using h⟩

theorem step_cases {L : Limits} {m m' : Server} {e : ServerEvent} (h : step L m e = .ok m') :
    Step L m e m' := by
  unfold step at h
  split at h
  · split at h
    · rename_i hphase
      cases h
      exact .arrive hphase
    · cases h
  · split_ifs at h with he
    obtain ⟨s, hs, rfl⟩ := map_eq_ok h
    exact .budget he hs
  · split at h
    · rename_i hphase hsettled
      cases h
      exact .resume hphase hsettled
    · rename_i hphase hsettled
      cases h
      exact .refuse hphase hsettled
    · cases h
  · split at h
    · rename_i route stage hphase
      rcases ho : proceed route stage _ with _ | o
      · rw [ho] at h
        cases h
      · rw [ho] at h
        cases h
        exact .advance hphase ho
    · cases h
  · split at h
    · rename_i hphase
      split_ifs at h with hsend
      obtain ⟨s, hs, rfl⟩ := map_eq_ok h
      exact .spend hphase hsend hs
    · cases h
  · split_ifs at h with hended
    cases h
    exact .hangUp hended
  · split_ifs at h with hclosed
    cases h
    exact .close hclosed.1 hclosed.2
  · split_ifs at h with hfinish
    cases h
    exact .finish hfinish

@[simp]
theorem exchange_emit (m : Server) (r : ℕ) : (m.emit r).exchange = m.exchange := by
  unfold emit
  split_ifs <;> rfl

theorem exchange_set_of_ne {m : Server} {r i : ℕ} (x : Exchange) (hi : i ≠ r) :
    (m.set r x).exchange i = m.exchange i := Function.update_of_ne hi _ _

/-- The other requests are as they were. -/
theorem Step.frame {L : Limits} {m m' : Server} {e : ServerEvent} (hs : Step L m e m') {i : ℕ}
    (hi : e.request ≠ some i) : m'.exchange i = m.exchange i := by
  have hne : ∀ {r : ℕ}, some r ≠ some i → i ≠ r := fun h he => h (congrArg some he.symm)
  cases hs with
  | @arrive r route body admission =>
    cases admission <;> exact exchange_set_of_ne _ (hne hi)
  | budget => rfl
  | resume => exact exchange_set_of_ne _ (hne hi)
  | refuse => exact exchange_set_of_ne _ (hne hi)
  | @advance r route stage reply o => cases o <;> exact exchange_set_of_ne _ (hne hi)
  | spend => rfl
  | hangUp => exact exchange_set_of_ne _ (hne hi)
  | close => exact (congrFun (exchange_emit _ _) i).trans (exchange_set_of_ne _ (hne hi))
  | finish => exact (congrFun (exchange_emit _ _) i).trans (exchange_set_of_ne _ (hne hi))

theorem exec_frame {L : Limits} {i : ℕ} : ∀ {es : List ServerEvent} {m m' : Server},
    Batch.exec (step L) m es = .ok m' → (∀ e ∈ es, e.request ≠ some i) →
      m'.exchange i = m.exchange i
  | [], m, m', h, _ => by
    cases h
    rfl
  | e :: es, m, m', h, hi => by
    obtain ⟨t, hs, ht⟩ := Batch.exec_cons_ok.1 h
    have hrest := exec_frame ht fun e he => hi e (List.mem_cons_of_mem _ he)
    exact hrest.trans ((step_cases hs).frame (hi e List.mem_cons_self))

end Server

end Relay

end Oblivia

import Oblivia.Lib.FixedWindow
import Oblivia.Relay.Routes
/-!
# The rate limit of the sponsored routes

The middleware counts the requests of a client in windows: one opens with a request, and is over
when a request comes more than an hour later. Ten requests of a window pass. An hour that reaches
from one window into the next can see more, and never more than 19.
-/

namespace Oblivia

namespace Relay

open FixedWindow

/-- What the middleware reads of a request, and the reading of the clock. -/
structure SponsoredRequest where
  ip : Option Text
  remoteAddress : Option Text
  now : ℤ

/-- `req.ip || req.socket.remoteAddress || 'unknown'`. -/
def SponsoredRequest.key (req : SponsoredRequest) : Text :=
  (req.ip.filter (· ≠ [])).getD ((req.remoteAddress.filter (· ≠ [])).getD "unknown".toList)

/-- The windows of the clients: when each began, and the requests counted in it. -/
abbrev RelayWindows := Text → Option (Window ℤ)

def hour : ℤ := 60 * 60 * 1000

def limitReached : Response :=
  sendRelayError (.relay ⟨429, "Sponsored signing limit reached; try again later."⟩)

/-- The windows after a request, and the response to it unless it passes. -/
def limitSponsoredRequest (relayWindows : RelayWindows) (req : SponsoredRequest) :
    RelayWindows × Option Response :=
  let key := req.key
  let known := relayWindows key
  let state := known.getD ⟨req.now, 0⟩
  let state := if req.now - state.start > hour then ⟨req.now, 0⟩ else state
  let state := { state with count := state.count + 1 }
  -- a state that is in the map is changed there, whether or not the request passes
  let relayWindows :=
    if known.isSome then Function.update relayWindows key (some state) else relayWindows
  if state.count > 10 then (relayWindows, some limitReached)
  else (Function.update relayWindows key (some state), none)

/-- The responses to requests that come one after the other. -/
def decisions : RelayWindows → List SponsoredRequest → List (SponsoredRequest × Option Response)
  | _, [] => []
  | relayWindows, req :: reqs =>
    let (relayWindows, response) := limitSponsoredRequest relayWindows req
    (req, response) :: decisions relayWindows reqs

/-- The windows after requests. -/
def windowsAfter (relayWindows : RelayWindows) (reqs : List SponsoredRequest) : RelayWindows :=
  reqs.foldl (fun relayWindows req => (limitSponsoredRequest relayWindows req).1) relayWindows

/-- When the requests of a client that pass do so. -/
def passed (relayWindows : RelayWindows) (reqs : List SponsoredRequest) (key : Text) : List ℤ :=
  ((decisions relayWindows reqs).filter fun d => d.1.key = key ∧ d.2.isNone).map (·.1.now)

/-- The relay starts without windows. -/
def noWindows : RelayWindows := fun _ => none

/-- A request opens a window if its client has none, or one that is over. -/
def Opens (relayWindows : RelayWindows) (req : SponsoredRequest) : Prop :=
  ∀ w, relayWindows req.key = some w → req.now - w.start > hour

section Limit

variable {relayWindows relayWindows' : RelayWindows} {req : SponsoredRequest} {key : Text}

/-- The middleware hits the window of the client. -/
theorem limitSponsoredRequest_eq :
    limitSponsoredRequest relayWindows req =
      (Function.update relayWindows req.key (some (hit hour (relayWindows req.key) req.now)),
        if (hit hour (relayWindows req.key) req.now).count ≤ 10 then none
        else some limitReached) := by
  have hhour : ¬hour < 0 := by decide
  unfold limitSponsoredRequest hit
  rcases hw : relayWindows req.key with _ | w
  · simp [hw, hhour]
  · by_cases hover : hour < req.now - w.start
    · simp [hw, hover]
    · by_cases hcount : 10 ≤ w.count
      · have hlimit : ¬w.count + 1 ≤ 10 := by omega
        simp [hw, hover, hcount, hlimit]
      · have hlimit : w.count + 1 ≤ 10 := by omega
        simp [hw, hover, hcount, hlimit]

theorem hit_of_opens (h : Opens relayWindows req) :
    hit hour (relayWindows req.key) req.now = ⟨req.now, 1⟩ := by
  unfold hit
  rcases hw : relayWindows req.key with _ | w
  · rfl
  · exact if_pos (h w hw)

/-- The window of a client after a request of its own. -/
def afterOwn (relayWindows : RelayWindows) (req : SponsoredRequest) : RelayWindows :=
  Function.update relayWindows req.key (some (hit hour (relayWindows req.key) req.now))

theorem decisions_cons {reqs : List SponsoredRequest} :
    decisions relayWindows (req :: reqs)
      = (req, if (hit hour (relayWindows req.key) req.now).count ≤ 10 then none
          else some limitReached) :: decisions (afterOwn relayWindows req) reqs := by
  rw [decisions, limitSponsoredRequest_eq]
  rfl

theorem afterOwn_key : afterOwn relayWindows req req.key
    = some (hit hour (relayWindows req.key) req.now) := Function.update_self ..

theorem afterOwn_of_ne (h : req.key ≠ key) : afterOwn relayWindows req key = relayWindows key :=
  Function.update_of_ne (Ne.symm h) ..

/-- What passes of a client is what its window admits of its own requests. -/
theorem passed_eq : ∀ {reqs : List SponsoredRequest} {relayWindows : RelayWindows},
    passed relayWindows reqs key
      = admitted hour 10 (relayWindows key) ((reqs.filter (·.key = key)).map (·.now))
  | [], _ => rfl
  | req :: reqs, relayWindows => by
    have ih : passed (afterOwn relayWindows req) reqs key
        = admitted hour 10 (afterOwn relayWindows req key)
          ((reqs.filter (·.key = key)).map (·.now)) := passed_eq
    unfold passed at ih ⊢
    rw [decisions_cons]
    by_cases hkey : req.key = key
    · subst hkey
      rw [afterOwn_key] at ih
      by_cases hcount : (hit hour (relayWindows req.key) req.now).count ≤ 10
      · simp [admitted, hcount, ← ih]
      · simp [admitted, hcount, ← ih]
    · rw [afterOwn_of_ne hkey] at ih
      simp [hkey, ← ih]

/-- The requests of others do not matter. -/
theorem decisions_filter : ∀ {reqs : List SponsoredRequest}
    {relayWindows relayWindows' : RelayWindows}, relayWindows key = relayWindows' key →
    (decisions relayWindows reqs).filter (·.1.key = key)
      = decisions relayWindows' (reqs.filter (·.key = key))
  | [], _, _, _ => rfl
  | req :: reqs, relayWindows, relayWindows', h => by
    have ih {windows windows' : RelayWindows} (h : windows key = windows' key) :
        (decisions windows reqs).filter (·.1.key = key)
          = decisions windows' (reqs.filter (·.key = key)) := decisions_filter h
    rw [decisions_cons]
    by_cases hkey : req.key = key
    · subst hkey
      have hafter : afterOwn relayWindows req req.key = afterOwn relayWindows' req req.key := by
        rw [afterOwn_key, afterOwn_key, h]
      rw [List.filter_cons_of_pos (by simp), List.filter_cons_of_pos (by simp), decisions_cons, h,
        ih hafter]
    · have hafter : afterOwn relayWindows req key = relayWindows' key := by
        rw [afterOwn_of_ne hkey, h]
      rw [List.filter_cons_of_neg (by simpa using hkey),
        List.filter_cons_of_neg (by simpa using hkey), ih hafter]

theorem pairwise_times {reqs : List SponsoredRequest} (h : reqs.Pairwise (·.now ≤ ·.now)) :
    ((reqs.filter (·.key = key)).map (·.now)).Pairwise (· ≤ ·) :=
  List.pairwise_map.2 (h.sublist List.filter_sublist)

/-- Of the requests of a client in any hour at most 19 pass, and at most ten of those that come
within an hour from one that opens a window; which ones pass has nothing to do with the requests
of other clients. -/
theorem sponsored_rate {reqs : List SponsoredRequest} (hclock : reqs.Pairwise (·.now ≤ ·.now))
    (key : Text) :
    (∀ a, (passed noWindows reqs key).countP (fun t => a ≤ t ∧ t ≤ a + hour) ≤ 19)
    ∧ (∀ before req after, reqs = before ++ req :: after → req.key = key →
        Opens (windowsAfter noWindows before) req →
        (passed (windowsAfter noWindows before) (req :: after) key).countP
          (fun t => req.now ≤ t ∧ t ≤ req.now + hour) ≤ 10)
    ∧ (decisions noWindows reqs).filter (·.1.key = key)
      = decisions noWindows (reqs.filter (·.key = key)) := by
  refine ⟨fun a => ?_, fun before req after hreqs hkey hopens => ?_, decisions_filter rfl⟩
  · rw [passed_eq]
    exact countP_admitted_le (by norm_num) (pairwise_times hclock)
  · subst hkey
    have hclock' : (req :: after).Pairwise (·.now ≤ ·.now) := by
      rw [hreqs] at hclock
      exact hclock.sublist (List.sublist_append_right _ _)
    have htimes : (((req :: after).filter (·.key = req.key)).map (·.now)).Pairwise (· ≤ ·) :=
      pairwise_times hclock'
    rw [passed_eq]
    rw [List.filter_cons_of_pos (by simp), List.map_cons] at htimes ⊢
    exact countP_opened_le htimes (hit_of_opens hopens) le_rfl

end Limit

section Sample

/-- One request, then nine an hour later, and ten right after them. -/
def straddling : List SponsoredRequest :=
  [0] ++ List.replicate 9 3600000 ++ List.replicate 10 3600001
    |>.map fun now => ⟨some "203.0.113.7".toList, none, now⟩

theorem sponsored_rate_counterexample :
    ¬∀ reqs : List SponsoredRequest, reqs.Pairwise (·.now ≤ ·.now) → ∀ key a,
      (passed noWindows reqs key).countP (fun t => a ≤ t ∧ t < a + hour) ≤ 10 := by
  intro h
  have hclock : straddling.Pairwise (·.now ≤ ·.now) := by decide +kernel
  have hcount : (passed noWindows straddling "203.0.113.7".toList).countP
      (fun t => 3600000 ≤ t ∧ t < 3600000 + hour) = 19 := by decide +kernel
  have hle := h straddling hclock "203.0.113.7".toList 3600000
  rw [hcount] at hle
  omega

theorem sponsored_rate_sample :
    (passed noWindows straddling "203.0.113.7".toList).countP
      (fun t => 3600000 ≤ t ∧ t ≤ 3600000 + hour) ≤ 19 :=
  (sponsored_rate (show straddling.Pairwise (·.now ≤ ·.now) by decide +kernel) _).1 3600000

end Sample

end Relay

end Oblivia

import Oblivia.Client.CoSignPage
import Oblivia.Client.PasskeyDomain
import Oblivia.Client.SignPage
/-!
# Pages that ask for passkeys

Both pages check their domain before they create a passkey or ask for its secret. If the check
refuses it, then no handler ever makes such a request, whatever is clicked and answered
(`reachesWebAuthn_iff`); so a host that is not under the configured domain never gets to one
(`passkey_domain`).
-/

namespace Oblivia

open Async

namespace MultisigPage

/-- `navigator.credentials.create(…)` and `navigator.credentials.get(…)`. -/
def Wait.IsWebAuthn (q : Wait) : Prop := q = .createSignerPasskey ∨ q = .getPasskeySecret

abbrev Spares {ε α : Type} (x : Task ε α) : Prop :=
  AsksIn (fun q : Wait => ¬q.IsWebAuthn) (fun _ => True) x

variable {sha256 : List UInt8 → Bytes 32} {clock : ℕ → Text}

theorem spares_modify {ε : Type} {f : Page → Page} : Spares (modify f : Task ε Unit) :=
  asksIn_modify fun _ h => h

theorem spares_refreshStatus : Spares refreshStatus := by
  unfold refreshStatus
  refine spares_modify.bind fun _ => keeping_get.bind fun p => Keeping.catching ?_ fun _ => ?_
  · unfold tryStatus
    refine keeping_get.bind fun p => Keeping.ite keeping_throw ?_
    refine Keeping.bind (asksIn_receive (by simp [Wait.IsWebAuthn])) fun answer => ?_
    refine keeping_attempt.bind fun s => keeping_get.bind fun p => Keeping.ite keeping_pure ?_
    exact Keeping.ite keeping_throw (keeping_attempt.bind fun status => spares_modify)
  · unfold statusFailed
    exact keeping_get.bind fun p => Keeping.ite keeping_pure spares_modify

/-- Where the domain is refused, nothing of the unlocking is done. -/
theorem spares_unlockSigner {e : String} {create : Bool} :
    Spares (unlockSigner sha256 clock (.error e) create) := by
  unfold unlockSigner
  refine keeping_get.bind fun p => Keeping.ite keeping_pure (spares_modify.bind fun _ => ?_)
  refine Keeping.andFinally (Keeping.catching ?_ fun _ => spares_modify) spares_modify
  exact fun o s h => meets_attempt_bind.2 h

/-- There is a run in which a handler of the page waits for a passkey. -/
def ReachesWebAuthn (domain : Except String (Option Text)) : Prop :=
  ∃ (sha256 : List UInt8 → Bytes 32) (clock : ℕ → Text) (contract : List UInt8)
    (config : Option (ℕ × ℕ)) (ι : Type) (_ : DecidableEq ι) (events : ι → Event)
    (c : Crowd ι Wait Wait.Answer Page (Except Unit Unit)) (i : ι) (q : Wait),
    Crowd.Runs (session sha256 clock domain contract config events) c
      ∧ c.waits i = some q ∧ q.IsWebAuthn

theorem reachesWebAuthn_iff {domain : Except String (Option Text)} :
    ReachesWebAuthn domain ↔ ∃ rpId, domain = .ok rpId := by
  constructor
  · rintro ⟨sha256, clock, contract, config, ι, _, events, c, i, q, hruns, hq, hpasskey⟩
    rcases domain with e | rpId
    · refine absurd hpasskey ((Crowd.runs_of_asksIn (S := fun q : Wait => ¬q.IsWebAuthn)
        (I := fun _ => True) trivial (by simp [Wait.IsWebAuthn]) (fun i => ?_) hruns).2 i q hq)
      unfold handler
      cases events i with
      | refresh => exact spares_refreshStatus
      | click create => exact spares_unlockSigner
    · exact ⟨rpId, rfl⟩
  · rintro ⟨rpId, rfl⟩
    refine ⟨fun _ => .zero 32, fun _ => [], [], some (1, 1), Unit, inferInstance,
      fun _ => .click false, _, (), .getPasskeySecret,
      Crowd.runs_of_play (l := [((), ⟨.event, ()⟩)]) rfl, ?_, .inr rfl⟩
    rfl

end MultisigPage

namespace SignPage

/-- `navigator.credentials.create(…)` and `navigator.credentials.get(…)`. -/
def Wait.IsWebAuthn (q : Wait) : Prop := q = .createSignerPasskey ∨ q = .getPasskeySecret

abbrev Spares {ε α : Type} (x : Task ε α) : Prop :=
  AsksIn (fun q : Wait => ¬q.IsWebAuthn) (fun _ => True) x

variable {sha256 : List UInt8 → Bytes 32} {clock : ℕ → Text}

theorem spares_modify {ε : Type} {f : Page → Page} : Spares (modify f : Task ε Unit) :=
  asksIn_modify fun _ h => h

theorem spares_trySign {contract : Utf16} : Spares (trySign sha256 clock contract) := by
  unfold trySign
  refine keeping_get.bind fun p => keeping_attempt.bind fun p' => ?_
  refine (asksIn_set trivial).bind fun _ => ?_
  refine Keeping.bind (asksIn_receive (by simp [Wait.IsWebAuthn])) fun answer => ?_
  refine keeping_attempt.bind fun proof => keeping_attempt.bind fun payload => ?_
  refine spares_modify.bind fun _ => keeping_get.bind fun p => ?_
  split
  · exact spares_modify.bind fun _ => keeping_pure
  · refine Keeping.bind (asksIn_receive (by simp [Wait.IsWebAuthn])) fun answer => ?_
    exact keeping_attempt.bind fun transaction => spares_modify.bind fun _ => keeping_pure

theorem spares_signContract : Spares (signContract sha256 clock) := by
  unfold signContract
  refine keeping_get.bind fun p => Keeping.ite keeping_pure ?_
  split
  · exact spares_modify
  · refine spares_modify.bind fun _ => Keeping.bind (Keeping.catching spares_trySign ?_) ?_
    · exact fun l => spares_modify.bind fun _ => keeping_pure
    · exact fun l => spares_modify

theorem spares_unlockSigner {e : String} {create : Bool} :
    Spares (unlockSigner (.error e) create) := by
  unfold unlockSigner
  refine keeping_get.bind fun p => Keeping.ite keeping_pure (spares_modify.bind fun _ => ?_)
  refine Keeping.bind (Keeping.catching ?_ fun _ => spares_modify) fun _ =>
    spares_modify
  exact fun o s h => meets_attempt_bind.2 h

/-- There is a run in which a handler of the page waits for a passkey. -/
def ReachesWebAuthn (domain : Except String (Option Text)) : Prop :=
  ∃ (sha256 : List UInt8 → Bytes 32) (clock : ℕ → Text) (contract : Utf16)
    (ι : Type) (_ : DecidableEq ι) (events : ι → Event)
    (c : Crowd ι Wait Wait.Answer Page (Except Unit Unit)) (i : ι) (q : Wait),
    Crowd.Runs (session sha256 clock domain contract events) c
      ∧ c.waits i = some q ∧ q.IsWebAuthn

theorem reachesWebAuthn_iff {domain : Except String (Option Text)} :
    ReachesWebAuthn domain ↔ ∃ rpId, domain = .ok rpId := by
  constructor
  · rintro ⟨sha256, clock, contract, ι, _, events, c, i, q, hruns, hq, hpasskey⟩
    rcases domain with e | rpId
    · refine absurd hpasskey ((Crowd.runs_of_asksIn (S := fun q : Wait => ¬q.IsWebAuthn)
        (I := fun _ => True) trivial (by simp [Wait.IsWebAuthn]) (fun i => ?_) hruns).2 i q hq)
      unfold handler
      cases events i with
      | edit value => exact spares_modify
      | unlock create => exact spares_unlockSigner
      | sign => exact spares_signContract
    · exact ⟨rpId, rfl⟩
  · rintro ⟨rpId, rfl⟩
    refine ⟨fun _ => .zero 32, fun _ => [], [], Unit, inferInstance, fun _ => .unlock false, _,
      (), .getPasskeySecret, Crowd.runs_of_play (l := [((), ⟨.event, ()⟩)]) rfl, ?_, .inr rfl⟩
    rfl

end SignPage

namespace Passkey

/-- What the check of the domain comes to on a page that is served from this host. -/
def pageDomain (toLowerCase : Utf16 → Utf16) (config : Option PasskeyConfig) (hostname : Utf16) :
    Except String (Option Text) :=
  match checkPasskeyDomain toLowerCase config hostname with
  | .ok options => .ok (options.rpId.map Utf16.chars)
  | .error message => .error (String.ofList message.chars)

theorem pageDomain_ok {toLowerCase : Utf16 → Utf16} {config : Option PasskeyConfig}
    {hostname : Utf16} : (∃ rpId, pageDomain toLowerCase config hostname = .ok rpId)
      ↔ ∃ options, checkPasskeyDomain toLowerCase config hostname = .ok options := by
  unfold pageDomain
  rcases checkPasskeyDomain toLowerCase config hostname with message | options <;> simp

/-- With a domain, passkeys are for this domain, which has to be one, and for hosts under it;
without one, they are temporary, and for the hosts of the machine itself and for test builds. A
page gets to WebAuthn in some run exactly if the check passes, so only under the domain it is
configured with. -/
theorem passkey_domain (toLowerCase : Utf16 → Utf16) (config : Option PasskeyConfig)
    (hostname : Utf16) :
    let host := toLowerCase hostname
    let rpId := configured toLowerCase config
    let domain := pageDomain toLowerCase config hostname
    (rpId ≠ [] → (∀ options, checkPasskeyDomain toLowerCase config hostname = .ok options
        ↔ (IsDomain rpId ∧ rpId.splitOn dot <:+ host.splitOn dot) ∧ options = ⟨some rpId, false⟩)
      ∧ (SignPage.ReachesWebAuthn domain
        ↔ IsDomain rpId ∧ rpId.splitOn dot <:+ host.splitOn dot)
      ∧ (MultisigPage.ReachesWebAuthn domain
        ↔ IsDomain rpId ∧ rpId.splitOn dot <:+ host.splitOn dot))
    ∧ (rpId = [] → (∀ options, checkPasskeyDomain toLowerCase config hostname = .ok options
        ↔ (host ∈ localHosts ∨ config.map (·.testMode) = some (.flag true))
          ∧ options = ⟨none, true⟩)
      ∧ (SignPage.ReachesWebAuthn domain
        ↔ host ∈ localHosts ∨ config.map (·.testMode) = some (.flag true))
      ∧ (MultisigPage.ReachesWebAuthn domain
        ↔ host ∈ localHosts ∨ config.map (·.testMode) = some (.flag true))) := by
  simp only [SignPage.reachesWebAuthn_iff, MultisigPage.reachesWebAuthn_iff, pageDomain_ok]
  refine ⟨fun h => ?_, fun h => ?_⟩
  · have hcheck : ∀ options, checkPasskeyDomain toLowerCase config hostname = .ok options ↔ _ :=
      fun _ => checkPasskeyDomain_configured h
    refine ⟨hcheck, ?_, ?_⟩ <;> simp only [hcheck, exists_and_left, exists_eq, and_true]
  · have hcheck : ∀ options, checkPasskeyDomain toLowerCase config hostname = .ok options ↔ _ :=
      fun _ => checkPasskeyDomain_unconfigured h
    refine ⟨hcheck, ?_, ?_⟩ <;> simp only [hcheck, exists_and_left, exists_eq, and_true]

end Passkey

end Oblivia

import Oblivia.Chain.Events
import Oblivia.Chain.Totals
/-!
# Histories of the program

The counters of the accounts count what the ledger holds (`Counts`). So a run is a history of the
ledger and its store is the ledger's state, counters and all (`run_refines`); and where the
program can find its addresses, an event can come next exactly when the history allows it
(`next_event_iff`).
-/

namespace Oblivia

open Finmap

variable {D : Pda} {groth16 : Groth16Verifier} {s s' : Store} {call : Call}

section Cases

/-- A contract account of a later store: one that was there, new, or with one more signature. -/
theorem Effect.contract_cases (he : Effect D groth16 s call s') (hs : Reachable D groth16 s)
    {h : Bytes 32} {c' : Contract} (hc : StoredAt D s' (.contract h) (.contract c')) :
    (StoredAt D s (.contract h) (.contract c') ∧ ∀ k, call.event s ≠ some (.sign h k))
      ∨ (call.event s = some (.register h) ∧ c'.signatureCount = 0)
      ∨ ∃ c k, call.event s = some (.sign h k) ∧ StoredAt D s (.contract h) (.contract c)
        ∧ c'.signatureCount.toNat = c.signatureCount.toNat + 1 := by
  obtain ⟨a, b, hf, hx⟩ := hc
  by_cases hk : ∃ k, call.event s = some (.sign h k)
  · obtain ⟨k, hev⟩ := hk
    cases he with
    | @verifyGroth16V2 rt acc args r c sb rb g =>
      rw [g.event, Option.some.injEq, Ledger.Event.sign.injEq] at hev
      obtain ⟨rfl, rfl⟩ := hev
      cases hs.sound.placed _ _ g.contract with
      | contract hadr _ _ =>
        have heq := hadr
        rw [hf, Option.some.injEq, Prod.mk.injEq] at heq
        rw [heq.1, g.lookup_contract, Option.some.injEq, Account.contract.injEq] at hx
        refine .inr (.inr ⟨c, _, g.event, ⟨_, _, hadr, g.contract⟩, ?_⟩)
        rw [← hx]
        exact toNat_add_one_u64 g.contractCount
    | recordVerifiedMultisig g => rw [g.event] at hev; cases hev
    | _ => cases hev
  · push Not at hk
    rcases he.written hx with hold | hw
    · exact .inl ⟨⟨a, b, hf, hold⟩, hk⟩
    · cases hw with
      | contract g =>
        have hd := Pda.find_inj hf g.contract.address
        rw [Derivation.contract.injEq] at hd
        subst hd
        exact .inr (.inl ⟨rfl, rfl⟩)
      | contractSigned g =>
        refine absurd g.event ?_
        rw [hs.sound.fits hf g.contract]
        exact hk _

/-- The registry of a later store: as it was, new, or with one more contract or signature. -/
theorem Effect.registry_cases (he : Effect D groth16 s call s') (hs : Reachable D groth16 s)
    {r' : ContractRegistry} (hr : StoredAt D s' .registry (.registry r')) :
    (StoredAt D s .registry (.registry r') ∧ (∀ h, call.event s ≠ some (.register h))
        ∧ ∀ h k, call.event s ≠ some (.sign h k))
      ∨ (call.event s = none ∧ r'.totalContracts = 0 ∧ r'.totalSignatures = 0
        ∧ ∀ a, s.lookup a = none)
      ∨ (∃ r h, call.event s = some (.register h) ∧ StoredAt D s .registry (.registry r)
        ∧ r'.totalContracts.toNat = r.totalContracts.toNat + 1
        ∧ r'.totalSignatures = r.totalSignatures)
      ∨ ∃ r h k, call.event s = some (.sign h k) ∧ StoredAt D s .registry (.registry r)
        ∧ r'.totalContracts = r.totalContracts
        ∧ r'.totalSignatures.toNat = r.totalSignatures.toNat + 1 := by
  obtain ⟨a, b, hf, hx⟩ := hr
  have hw := he.written hx
  have hat {a' r} (hr : s.lookup a' = some (.registry r)) :
      a' = a ∧ StoredAt D s .registry (.registry r) := by
    cases hs.sound.placed _ _ hr with
    | registry hadr =>
      have heq := hadr
      rw [hf, Option.some.injEq, Prod.mk.injEq] at heq
      exact ⟨heq.1.symm, _, _, hadr, hr⟩
  cases he with
  | initializeRegistry g =>
    refine .inr (.inl ⟨rfl, ?_⟩)
    have heq := g.registry.address
    rw [hf, Option.some.injEq, Prod.mk.injEq] at heq
    rw [heq.1, initializeStore, lookup_insert, Option.some.injEq, Account.registry.injEq] at hx
    subst hx
    refine ⟨rfl, rfl, fun x => Option.eq_none_iff_forall_ne_some.2 fun y hy => ?_⟩
    obtain ⟨a', r, hr⟩ := hs.totalled.founded x y hy
    exact g.registry.not_storedAt (hat hr).2
  | @registerContract rt acc h r b g =>
    obtain ⟨rfl, hr⟩ := hat g.registry
    rw [registerStore, lookup_insert, Option.some.injEq, Account.registry.injEq] at hx
    subst hx
    exact .inr (.inr (.inl ⟨r, h, rfl, hr, toNat_add_one_u64 g.count, rfl⟩))
  | @verifyGroth16V2 rt acc args r c sb rb g =>
    obtain ⟨rfl, hr⟩ := hat g.registry
    rw [lookup_verifyStore_registry, Option.some.injEq, Account.registry.injEq] at hx
    subst hx
    exact .inr (.inr (.inr ⟨r, _, _, g.event, hr, rfl, toNat_add_one_u64 g.registryCount⟩))
  | recordVerifiedMultisig g =>
    refine .inl ⟨⟨a, b, hf, hw.resolve_right (by rintro ⟨⟩)⟩, ?_⟩
    simp [g.event]
  | verifySignature => exact .inl ⟨⟨a, b, hf, hx⟩, by simp [Call.event]⟩
  | createMultisig =>
    exact .inl ⟨⟨a, b, hf, hw.resolve_right (by rintro ⟨⟩)⟩, by simp [Call.event]⟩
  | finalizeMultisig =>
    exact .inl ⟨⟨a, b, hf, hw.resolve_right (by rintro ⟨⟩)⟩, by simp [Call.event]⟩

end Cases

/-- The counters of the accounts count what the ledger holds. -/
structure Counts (D : Pda) (s : Store) (L : Ledger rules (Bytes 32)) : Prop where
  contract : ∀ h c, StoredAt D s (.contract h) (.contract c) →
    c.signatureCount.toNat = (L.signed h).card
  contracts : ∀ r, StoredAt D s .registry (.registry r) →
    r.totalContracts.toNat = L.registered.card
  signatures : ∀ r, StoredAt D s .registry (.registry r) →
    r.totalSignatures.toNat = L.signatures

section Simulation

variable {L L' : Ledger rules (Bytes 32)} {e : Event}

theorem Counts.stutter (hc : Counts D s L) (hr : Refines D s L)
    (he : Effect D groth16 s call s') (hs : Reachable D groth16 s) (hev : call.event s = none) :
    Counts D s' L := by
  have hnone : (∀ a, s.lookup a = none) → L.registered = ∅ := fun hl =>
    Finset.eq_empty_of_forall_notMem fun h hh => by
      obtain ⟨c, a, b, -, hx⟩ := (hr.registered h).1 hh
      rw [hl a] at hx
      cases hx
  refine ⟨fun h c hx => ?_, fun r hx => ?_, fun r hx => ?_⟩
  · rcases he.contract_cases hs hx with ⟨hold, -⟩ | ⟨hn, -⟩ | ⟨_, _, hn, -⟩
    · exact hc.contract h c hold
    · rw [hev] at hn; cases hn
    · rw [hev] at hn; cases hn
  · rcases he.registry_cases hs hx with ⟨hold, -⟩ | ⟨-, h₁, -, hl⟩ | ⟨_, _, hn, -⟩
      | ⟨_, _, _, hn, -⟩
    · exact hc.contracts r hold
    · rw [h₁, hnone hl]; rfl
    · rw [hev] at hn; cases hn
    · rw [hev] at hn; cases hn
  · rcases he.registry_cases hs hx with ⟨hold, -⟩ | ⟨-, -, h₂, hl⟩ | ⟨_, _, hn, -⟩
      | ⟨_, _, _, hn, -⟩
    · exact hc.signatures r hold
    · rw [h₂, Ledger.signatures, hnone hl]; rfl
    · rw [hev] at hn; cases hn
    · rw [hev] at hn; cases hn

/-- A contract's counter moves with the keys that signed it. -/
theorem Counts.step_contract (hc : Counts D s L) (he : Effect D groth16 s call s')
    (hs : Reachable D groth16 s) (hev : call.event s = some e) (hstep : L.Step e L') {h : Bytes 32}
    {c' : Contract} (hx : StoredAt D s' (.contract h) (.contract c')) :
    c'.signatureCount.toNat = (L'.signed h).card := by
  have hcon := he.contract_cases hs hx
  rw [hev] at hcon
  cases hstep with
  | register ha hn =>
    rcases hcon with ⟨hold, -⟩ | ⟨he, h₀⟩ | ⟨_, _, he, -⟩
    · exact hc.contract h c' hold
    · cases he
      rw [h₀, Ledger.signed_register, Ledger.signed_eq_empty hn]
      rfl
    · cases he
  | @sign x k hr hn =>
    rcases hcon with ⟨hold, hne⟩ | ⟨he, -⟩ | ⟨c, _, he, hold, h₁⟩
    · have hne' : h ≠ x := fun hx => hne k (hx ▸ rfl)
      rw [Ledger.signed_sign, Function.update_of_ne hne', hc.contract h c' hold]
    · cases he
    · cases he
      rw [h₁, Ledger.signed_sign, Function.update_self, Finset.card_insert_of_notMem hn,
        hc.contract _ c hold]
  | _ =>
    rcases hcon with ⟨hold, -⟩ | ⟨he, -⟩ | ⟨_, _, he, -⟩
    · exact hc.contract h c' hold
    · cases he
    · cases he

/-- The registry's counters move with the contracts and with the signatures. -/
theorem Counts.step_registry (hc : Counts D s L) (he : Effect D groth16 s call s')
    (hs : Reachable D groth16 s) (hev : call.event s = some e) (hstep : L.Step e L')
    {r' : ContractRegistry} (hx : StoredAt D s' .registry (.registry r')) :
    r'.totalContracts.toNat = L'.registered.card ∧ r'.totalSignatures.toNat = L'.signatures := by
  have hreg := he.registry_cases hs hx
  rw [hev] at hreg
  cases hstep with
  | register ha hn =>
    rcases hreg with ⟨-, hne, -⟩ | ⟨he, -⟩ | ⟨r, _, he, hold, h₁, h₂⟩ | ⟨_, _, _, he, -⟩
    · exact absurd rfl (hne _)
    · cases he
    · refine ⟨?_, ?_⟩
      · rw [h₁, Ledger.registered_register, Finset.card_insert_of_notMem hn, hc.contracts r hold]
      · rw [h₂, Ledger.signatures_register hn, hc.signatures r hold]
    · cases he
  | sign hr hn =>
    rcases hreg with ⟨-, -, hne⟩ | ⟨he, -⟩ | ⟨_, _, he, -⟩ | ⟨r, _, _, he, hold, h₁, h₂⟩
    · exact absurd rfl (hne _ _)
    · cases he
    · cases he
    · refine ⟨?_, ?_⟩
      · rw [h₁, Ledger.registered_sign, hc.contracts r hold]
      · rw [h₂, Ledger.signatures_sign hn, hc.signatures r hold]
  | _ =>
    rcases hreg with ⟨hold, -⟩ | ⟨he, -⟩ | ⟨_, _, he, -⟩ | ⟨_, _, _, he, -⟩
    · exact ⟨hc.contracts r' hold, hc.signatures r' hold⟩
    · cases he
    · cases he
    · cases he

theorem Counts.step (hc : Counts D s L) (he : Effect D groth16 s call s')
    (hs : Reachable D groth16 s) (hev : call.event s = some e) (hstep : L.Step e L') :
    Counts D s' L' where
  contract _ _ hx := hc.step_contract he hs hev hstep hx
  contracts _ hx := (hc.step_registry he hs hev hstep hx).1
  signatures _ hx := (hc.step_registry he hs hev hstep hx).2

theorem refines_empty : Refines D ∅ Ledger.empty where
  registered h := by simp [Ledger.empty, Registered, StoredAt]
  signed h k := by simp [Ledger.empty, Signed, StoredAt]
  agreements a q := by simp [Ledger.empty, Agreed]

theorem counts_empty : Counts D ∅ Ledger.empty where
  contract h c hx := by simp [StoredAt] at hx
  contracts r hx := by simp [StoredAt] at hx
  signatures r hx := by simp [StoredAt] at hx

theorem history_append (js : List (Store × Call)) :
    history (js ++ [(s, call)]) = history js ++ (call.event s).toList := by
  rw [history, List.filterMap_append, List.filterMap_cons, List.filterMap_nil, ← history]
  rcases call.event s with _ | e <;> rfl

theorem Path.refines {js : List (Store × Call)} (hp : Path D groth16 ∅ js s) :
    ∃ L : Ledger rules (Bytes 32), Ledger.empty.Runs (history js) L ∧ Refines D s L
      ∧ Counts D s L := by
  refine (hp.invariant (fun js s => Reachable D groth16 s ∧ ∃ L : Ledger rules (Bytes 32),
    Ledger.empty.Runs (history js) L ∧ Refines D s L ∧ Counts D s L)
    ⟨⟨[], rfl⟩, _, .nil, refines_empty, counts_empty⟩ ?_).2
  rintro js s call s' ⟨hs, L, hruns, hr, hc⟩ hx
  have he := exec_eq_ok.1 hx
  refine ⟨hs.step hx, ?_⟩
  rw [history_append]
  rcases hev : call.event s with _ | e
  · rw [Option.toList_none, List.append_nil]
    exact ⟨L, hruns, hr.stutter he hs hev, hc.stutter hr he hs hev⟩
  · obtain ⟨L', hstep, hr'⟩ := hr.step he hs hev
    exact ⟨L', hruns.snoc hstep, hr', hc.step he hs hev hstep⟩

end Simulation

/-- What the program asks for beside what the ledger does: it finds the addresses, the registry is
there before the first contract, and a key signs with a proof that the verifier accepts. -/
def Feasible (D : Pda) (groth16 : Groth16Verifier) (s : Store) : Event → Prop
  | .register h => (∃ p, D.findProgramAddress (.contract h) = some p)
    ∧ ∃ r, StoredAt D s .registry (.registry r)
  | .create a => ∃ p, D.findProgramAddress a.derivation = some p
  | .sign h k => (∃ p, D.findProgramAddress (.signerRecord h k) = some p)
    ∧ ∃ args c p, args.keyCommitment = k ∧ verifyContractBoundProof groth16 h args = .ok ()
      ∧ D.findProgramAddress (.contract h) = some c
      ∧ D.findProgramAddress (.signature c.1 k args.signatureCommitment) = some p
  | .count a k => ∃ m p, D.findProgramAddress a.derivation = some m
    ∧ D.findProgramAddress (.member m.1 k) = some p

section Perform

variable {L L' : Ledger rules (Bytes 32)} {h k : Bytes 32}

/-- Some call succeeds with the event. -/
def Performs (D : Pda) (groth16 : Groth16Verifier) (s : Store) (e : Event) : Prop :=
  ∃ call s', exec D groth16 s call = .ok s' ∧ call.event s = some e

theorem Reachable.registry (hs : Reachable D groth16 s) {a : Pubkey} {x : Account}
    (hx : s.lookup a = some x) : ∃ r, StoredAt D s .registry (.registry r) := by
  obtain ⟨a', r, hr⟩ := hs.totalled.founded a x hx
  cases hs.sound.placed _ _ hr with
  | registry hadr => exact ⟨r, a', _, hadr, hr⟩

theorem Reachable.registry_derive (hs : Reachable D groth16 s) {r : ContractRegistry}
    {a : Pubkey} (hr : s.lookup a = some (.registry r)) :
    D.derive .registry r.bump = some a := by
  cases hs.sound.placed _ _ hr with
  | registry hadr => exact Pda.derive_of_find hadr

/-- An address of a contract that is not registered is free. -/
theorem free_of_not_registered (hs : Reachable D groth16 s) {p : Pubkey × UInt8}
    (hf : D.findProgramAddress (.contract h) = some p) (hn : ¬ Registered D s h) :
    s.lookup p.1 = none := by
  refine Option.eq_none_iff_forall_ne_some.2 fun x hx => ?_
  have hfits := hs.sound.fits (a := p.1) (b := p.2) hf hx
  cases x with
  | contract c => exact hn ⟨c, p.1, p.2, hf, hx⟩
  | _ => exact hfits.elim

theorem performs_register (hs : Reachable D groth16 s) (hz : h ≠ Bytes.zero 32)
    (hn : ¬ Registered D s h) (hf : Feasible D groth16 s (.register h))
    (hroom : ∀ r, StoredAt D s .registry (.registry r) →
      r.totalContracts ≠ 18446744073709551615) : Performs D groth16 s (.register h) := by
  obtain ⟨⟨p, hp⟩, r, a, b, hfr, hr⟩ := hf
  have g : RegisterGuard D ⟨0, true⟩ s (.of a p.1 systemProgramId) h r p.2 :=
    ⟨hr, hs.registry_derive hr, rfl, ⟨hp, free_of_not_registered hs hp hn, rfl, rfl⟩,
      ⟨rfl, rfl, rfl⟩, hz, hroom r ⟨a, b, hfr, hr⟩⟩
  exact ⟨_, _, exec_eq_ok.2 (.registerContract g), rfl⟩

theorem performs_create (hs : Reachable D groth16 s) {a : Settings} (hv : rules.valid a)
    (hr : Registered D s a.contractHash) (hn : ∀ q, ¬ Agreed D s a q)
    (hf : Feasible D groth16 s (.create a)) : Performs D groth16 s (.create a) := by
  obtain ⟨p, hp⟩ := hf
  obtain ⟨c, ca, cb, hc, hcx⟩ := hr
  have hfree : s.lookup p.1 = none := by
    refine Option.eq_none_iff_forall_ne_some.2 fun x hx => ?_
    have hfits := hs.sound.fits (a := p.1) (b := p.2) hp hx
    cases x with
    | multisig ms =>
      obtain ⟨q, hq⟩ := (hs.tallied p.1).agreement ms hx
      exact hn q ⟨p.1, p.2, ms, hp, hx, hq⟩
    | _ => exact hfits.elim
  have hh : c.contractHash = a.contractHash := hs.sound.fits hc hcx
  cases hs.sound.placed _ _ hcx with
  | contract hadr hact _ =>
    have g : CreateGuard D ⟨0, true⟩ s (.of ca p.1 systemProgramId) a.contractHash a.threshold
        a.maxSigners c p.2 :=
      ⟨hcx, hh ▸ Pda.derive_of_find hadr, ⟨hp, hfree, rfl, rfl⟩, ⟨rfl, rfl, rfl⟩, hv.1, hv.2, hact⟩
    exact ⟨_, _, exec_eq_ok.2 (.createMultisig g), rfl⟩

theorem performs_sign (hs : Reachable D groth16 s) (hr : Registered D s h)
    (hn : ¬ Signed D s h k) (hf : Feasible D groth16 s (.sign h k))
    (hroom : ∀ r, StoredAt D s .registry (.registry r) →
      r.totalSignatures ≠ 18446744073709551615)
    (hcroom : ∀ c, StoredAt D s (.contract h) (.contract c) →
      c.signatureCount ≠ 18446744073709551615) : Performs D groth16 s (.sign h k) := by
  obtain ⟨⟨p, hp⟩, args, ca, sa, rfl, hproof, hca, hsa⟩ := hf
  obtain ⟨c, ca', cb, hc, hcx⟩ := hr
  obtain ⟨r, ra, rb, hra, hrx⟩ := hs.registry hcx
  have heq := hc
  rw [hca, Option.some.injEq] at heq
  subst heq
  have hh : c.contractHash = h := hs.sound.fits hc hcx
  have hsig : s.lookup sa.1 = none := by
    refine Option.eq_none_iff_forall_ne_some.2 fun x hx => ?_
    obtain ⟨sg, rfl, hsc, hsk⟩ := hs.sound.signature_of_lookup (a := sa.1) (b := sa.2) hsa hx
    have hrec : ReceiptFor D s h args.keyCommitment sa.1 sg := ⟨hx, hsk, cb, by rw [hsc, hc]⟩
    obtain ⟨sr, hsr, -⟩ := hrec.record hs.sound
    exact hn ⟨sr, hsr⟩
  have hsr : s.lookup p.1 = none := by
    refine Option.eq_none_iff_forall_ne_some.2 fun x hx => ?_
    obtain ⟨sr, rfl⟩ := hs.sound.signerRecord_of_lookup (a := p.1) (b := p.2) hp hx
    exact hn ⟨sr, p.1, p.2, hp, hx⟩
  cases hs.sound.placed _ _ hcx with
  | contract hadr hact _ =>
    have g : VerifyGuard D groth16 ⟨0, true⟩ s (.of ra ca' sa.1 p.1 systemProgramId) args r c sa.2
        p.2 :=
      ⟨hrx, hs.registry_derive hrx, hcx, Pda.derive_of_find hadr, ⟨rfl, rfl⟩,
        ⟨hsa, hsig, rfl, rfl⟩, ⟨hh.symm ▸ hp, hsr, rfl, rfl⟩, ⟨rfl, rfl, rfl⟩, hh.symm ▸ hproof,
        hcroom c ⟨_, _, hc, hcx⟩, hroom r ⟨_, _, hra, hrx⟩⟩
    refine ⟨_, _, exec_eq_ok.2 (.verifyGroth16V2 g), ?_⟩
    rw [g.event, hh]

theorem performs_count (hs : Reachable D groth16 s) {a : Settings} {q q' : Quorum (Bytes 32)}
    (hq : Agreed D s a q) (hk : Signed D s a.contractHash k) (hsign : q.sign k = some q')
    (hf : Feasible D groth16 s (.count a k)) : Performs D groth16 s (.count a k) := by
  obtain ⟨m', p, hm', hp⟩ := hf
  obtain ⟨m, mb, ms, hm, hms, hrep⟩ := hq
  rw [hm, Option.some.injEq] at hm'
  subst hm'
  obtain ⟨hkn, hcn, -⟩ := Quorum.sign_eq_some.1 hsign
  obtain ⟨sr, sra, srb, hsr, hsrx⟩ := hk
  have hfree : s.lookup p.1 = none := by
    refine Option.eq_none_iff_forall_ne_some.2 fun x hx => ?_
    obtain ⟨mm, rfl, hmm, hmk⟩ := hs.sound.member_of_lookup (a := p.1) (b := p.2) hp hx
    exact hkn (hrep.mem_keys.2 ⟨_, _, hx, hmm, hmk⟩)
  have hpending : ms.finalized = false := by
    rw [← Bool.not_eq_true, hrep.finalized]
    exact hcn
  obtain ⟨hroom, hcol⟩ := (hs.tallied m).room hms hpending
  obtain ⟨ht, hn⟩ : ms.threshold = a.threshold ∧ ms.maxSigners = a.maxSigners :=
    hs.sound.fits hm hms
  have hskey : sr.keyCommitment = k := hs.sound.fits hsr hsrx
  obtain ⟨r, ra, rb, hra, hrx⟩ := hs.registry hms
  cases hs.sound.placed _ _ hms with
  | @multisig _ c hcx hmadr =>
    have hh : c.contractHash = a.contractHash :=
      (Derivation.multisig.inj (Pda.find_inj hmadr hm)).1
    cases hs.sound.placed _ _ hcx with
    | contract hcadr hact _ =>
      cases hs.sound.placed _ _ hsrx with
      | @signerRecord _ c' sg ga hcx' hsradr hgx hpair =>
        have hh' : c'.contractHash = a.contractHash :=
          (Derivation.signerRecord.inj (Pda.find_inj hsradr hsr)).1
        have hcon : sr.contract = ms.contract := by
          cases hs.sound.placed _ _ hcx' with
          | contract hcadr' _ _ =>
            rw [hh', ← hh, hcadr, Option.some.injEq, Prod.mk.injEq] at hcadr'
            exact hcadr'.1.symm
        cases hs.sound.placed _ _ hgx with
        | signature hgadr _ _ _ _ =>
          have hgc : sg.contract = ms.contract := hpair.contract.symm.trans hcon
          have hgk : sg.keyCommitment = k := hpair.keyCommitment.symm.trans hskey
          have g : RecordGuard D ⟨0, true⟩ s (.of ra ms.contract m sra ga p.1 systemProgramId)
              a.contractHash k r c ms sr sg p.2 := {
            registry := hrx
            registryAddress := hs.registry_derive hrx
            contract := hcx
            contractAddress := hh ▸ Pda.derive_of_find hcadr
            multisig := hms
            multisigAddress := hh ▸ Pda.derive_of_find hmadr
            multisigBound := rfl
            muts := ⟨rfl, rfl, rfl⟩
            signerRecord := hsrx
            signerRecordAddress := hh' ▸ hskey ▸ Pda.derive_of_find hsradr
            signerRecordBound := hcon
            signerRecordKey := hskey
            signature := hgx
            signatureAddress := hgc ▸ hgk ▸ Pda.derive_of_find hgadr
            signatureBound := hgc
            signatureKey := hgk
            member := ⟨hp, hfree, rfl, rfl⟩
            flags := ⟨rfl, rfl, rfl⟩
            active := hact
            pending := hpending
            room := hroom
            collected := hcol }
          exact ⟨_, _, exec_eq_ok.2 (.recordVerifiedMultisig g), g.event_of_find hm⟩

theorem Performs.step (hs : Reachable D groth16 s) (hr : Refines D s L) {e : Event}
    (h : Performs D groth16 s e) : ∃ L', L.Step e L' := by
  obtain ⟨call, s', hx, hev⟩ := h
  obtain ⟨L', hstep, -⟩ := hr.step (exec_eq_ok.1 hx) hs hev
  exact ⟨L', hstep⟩

/-- With room in the counters, what the ledger takes is performed by a call. -/
theorem Refines.performs (hs : Reachable D groth16 s) (hr : Refines D s L) (hc : Counts D s L)
    {es : List Event} (hruns : Ledger.empty.Runs es L) (hlen : es.length < 2 ^ 64 - 1) {e : Event}
    (hf : Feasible D groth16 s e) (h : L.Step e L') : Performs D groth16 s e := by
  have hmax {n : UInt64} (hn : n.toNat ≤ es.length) : n ≠ 18446744073709551615 := by
    rintro rfl
    simp only [UInt64.reduceToNat] at hn
    omega
  cases h with
  | register ha hn =>
    refine performs_register hs ha (fun h => hn ((hr.registered _).2 h)) hf fun r hx => hmax ?_
    rw [hc.contracts r hx]
    exact hruns.card_registered_le
  | create hv hreg hn =>
    refine performs_create hs hv ((hr.registered _).1 hreg) (fun q hq => ?_) hf
    rw [(hr.agreements _ q).2 hq] at hn
    cases hn
  | sign hreg hn =>
    refine performs_sign hs ((hr.registered _).1 hreg) (fun h => hn ((hr.signed _ _).2 h)) hf
      (fun r hx => hmax ?_) fun c hx => hmax ?_
    · rw [hc.signatures r hx]
      exact hruns.signatures_le
    · rw [hc.contract _ c hx]
      exact (Ledger.card_signed_le hreg).trans hruns.signatures_le
  | count hq hk hsign =>
    exact performs_count hs ((hr.agreements _ _).1 hq) ((hr.signed _ _).1 hk) hsign hf

end Perform

/-- Every run of transactions is a history of the ledger, and its store holds what the ledger does:
the contracts registered, the keys that signed them, each with its receipt, the agreements with
their members, and in every counter the number of these. -/
theorem run_refines (D : Pda) (groth16 : Groth16Verifier) (txs : List (List Call)) :
    ∃ L : Ledger rules (Bytes 32),
      Ledger.empty.Runs (history (journal D groth16 ∅ txs)) L
        ∧ Refines D (run D groth16 ∅ txs) L ∧ Counts D (run D groth16 ∅ txs) L
        ∧ ∀ h k, k ∈ L.signed h ↔ ∃ a sg, ReceiptFor D (run D groth16 ∅ txs) h k a sg := by
  have hs : Reachable D groth16 (run D groth16 ∅ txs) := ⟨txs, rfl⟩
  obtain ⟨L, hruns, hr, hc⟩ := Path.refines (Batch.path_run ∅ txs)
  refine ⟨L, hruns, hr, hc, fun h k => (hr.signed h k).trans ⟨?_, ?_⟩⟩
  · rintro ⟨sr, hsr⟩
    exact RecordFor.receipt hs.sound hsr
  · rintro ⟨a, sg, hsg⟩
    obtain ⟨sr, hsr, -⟩ := hsg.record hs.sound
    exact ⟨sr, hsr⟩

/-- After every run, an event can come next exactly when the history of the run allows it. -/
theorem next_event_iff (txs : List (List Call)) {e : Event}
    (hlen : (history (journal D groth16 ∅ txs)).length < 2 ^ 64 - 1)
    (hf : Feasible D groth16 (run D groth16 ∅ txs) e) :
    Performs D groth16 (run D groth16 ∅ txs) e
      ↔ Ledger.Allowed rules (history (journal D groth16 ∅ txs)) e := by
  have hs : Reachable D groth16 (run D groth16 ∅ txs) := ⟨txs, rfl⟩
  obtain ⟨L, hruns, hr, hc⟩ := Path.refines (Batch.path_run ∅ txs)
  rw [← hruns.step_iff]
  exact ⟨fun h => h.step hs hr, fun ⟨_, h⟩ => hr.performs hs hc hruns hlen hf h⟩

/-- In the sample, the first key can sign the contract, and nobody can register it again. -/
theorem next_event_iff_sample :
    Performs samplePda sampleVerifier (run samplePda sampleVerifier ∅ sampleSetup)
        (.sign sampleHash (sampleKey 1))
      ∧ ¬ Performs samplePda sampleVerifier (run samplePda sampleVerifier ∅ sampleSetup)
        (.register sampleHash) := by
  have hlen : (history (journal samplePda sampleVerifier ∅ sampleSetup)).length
      < 2 ^ 64 - 1 := by decide +kernel
  have hmem : .register sampleHash ∈ history (journal samplePda sampleVerifier ∅ sampleSetup) := by
    decide +kernel
  have hsign : Feasible samplePda sampleVerifier (run samplePda sampleVerifier ∅ sampleSetup)
      (.sign sampleHash (sampleKey 1)) := by
    obtain ⟨p, hp⟩ := Option.isSome_iff_exists.1 (show (samplePda.findProgramAddress
      (.signerRecord sampleHash (sampleKey 1))).isSome = true by decide +kernel)
    obtain ⟨g, hg⟩ := Option.isSome_iff_exists.1 (show (samplePda.findProgramAddress
      (.signature sampleContract (sampleKey 1) (sampleSig 1))).isSome = true by decide +kernel)
    exact ⟨⟨p, hp⟩, sampleProof 1, _, g, rfl, by decide +kernel, find_sampleContract, hg⟩
  have hreg : Feasible samplePda sampleVerifier (run samplePda sampleVerifier ∅ sampleSetup)
      (.register sampleHash) :=
    ⟨⟨_, find_sampleContract⟩, ⟨samplePayer, 1, 0, 250⟩, sampleRegistry, 250, by decide +kernel,
      by decide +kernel⟩
  refine ⟨(next_event_iff sampleSetup hlen hsign).2 ⟨hmem, by decide +kernel⟩, fun h => ?_⟩
  exact ((next_event_iff sampleSetup hlen hreg).1 h).2 hmem

end Oblivia

import Oblivia.Chain.Frame
/-!
# Runs of transactions

A transaction is a list of instructions that commits as a whole or not at all; a run is a list of
transactions. An account that a run brings into being was written by one of the instructions of
its journal (`Path.created`), and the ledger is append-only (`ledger_appendOnly`): receipts, signer
records and members stay as they are, counters only grow, and a finalized agreement is closed.
-/

namespace Oblivia

variable (D : Pda) (groth16 : Groth16Verifier)

/-- A transaction: it leaves the store as it was unless all its instructions succeed. -/
abbrev commit (s : Store) (tx : List Call) : Store := Batch.commit (exec D groth16) s tx

abbrev run (s : Store) (txs : List (List Call)) : Store := Batch.run (exec D groth16) s txs

/-- The committed instructions of a run, each with the store it was executed on. -/
abbrev journal (s : Store) (txs : List (List Call)) : List (Store × Call) :=
  Batch.journal (exec D groth16) s txs

abbrev Path (s₀ : Store) (js : List (Store × Call)) (s : Store) : Prop :=
  Batch.Path (exec D groth16) s₀ js s

/-- The stores that runs from the empty one lead to. -/
def Reachable (s : Store) : Prop := ∃ txs, run D groth16 ∅ txs = s

variable {D groth16}

theorem reachable_iff {s : Store} : Reachable D groth16 s ↔ ∃ js, Path D groth16 ∅ js s := by
  constructor
  · rintro ⟨txs, rfl⟩
    exact ⟨_, Batch.path_run ∅ txs⟩
  · rintro ⟨js, hp⟩
    obtain ⟨txs, hs, -⟩ := hp.exists_run
    exact ⟨txs, hs⟩

theorem Reachable.step {s s' : Store} {call : Call} (h : Reachable D groth16 s)
    (hs : exec D groth16 s call = .ok s') : Reachable D groth16 s' := by
  obtain ⟨js, hp⟩ := reachable_iff.1 h
  exact reachable_iff.2 ⟨_, hp.snoc hs⟩

theorem Reachable.run {s : Store} (h : Reachable D groth16 s) (txs : List (List Call)) :
    Reachable D groth16 (run D groth16 s txs) := by
  obtain ⟨txs₀, rfl⟩ := h
  exact ⟨txs₀ ++ txs, Batch.run_append _ _ _⟩

/-- What every step keeps holds of every reachable store. -/
theorem Reachable.invariant {s : Store} (h : Reachable D groth16 s) (P : Store → Prop)
    (h₀ : P ∅) (hstep : ∀ s call s', P s → Effect D groth16 s call s' → P s') : P s := by
  obtain ⟨js, hp⟩ := reachable_iff.1 h
  exact hp.invariant (fun _ => P) h₀ fun _ s call s' hs hc => hstep s call s' hs (exec_eq_ok.1 hc)

/-- The same, with what is known of reachable stores at hand. -/
theorem Reachable.induction {s : Store} (h : Reachable D groth16 s) (P : Store → Prop)
    (h₀ : P ∅) (hstep : ∀ s call s', Reachable D groth16 s → P s → Effect D groth16 s call s' →
      P s') : P s := by
  refine (h.invariant (fun s => Reachable D groth16 s ∧ P s) ⟨⟨[], rfl⟩, h₀⟩ ?_).2
  exact fun s call s' hs he => ⟨hs.1.step (exec_eq_ok.2 he), hstep s call s' hs.1 hs.2 he⟩

theorem Path.extends {s₀ s : Store} {js : List (Store × Call)} (hp : Path D groth16 s₀ js s) :
    Extends s₀ s :=
  hp.invariant (fun _ => Extends s₀) (.refl s₀) fun _ _ _ _ h hc =>
    h.trans (exec_eq_ok.1 hc).extends

/-- An account that was not there at the start was written by a step of the path, into an address
that held none, and has only grown since. -/
theorem Path.created {s₀ s : Store} {js : List (Store × Call)} {a : Pubkey} {x : Account}
    (hp : Path D groth16 s₀ js s) (h₀ : s₀.lookup a = none) (hx : s.lookup a = some x) :
    ∃ pre t call post y, js = pre ++ (t, call) :: post ∧ Path D groth16 s₀ pre t
      ∧ t.lookup a = none ∧ Writes D groth16 t call a y ∧ y.Grows x := by
  obtain ⟨pre, t, call, post, t', rfl, hpre, hc, ht, ht', hpost⟩ :=
    hp.exists_cause (fun s => s.lookup a ≠ none) (by simp [h₀]) (by simp [hx])
  rw [not_not] at ht
  obtain ⟨y, hy⟩ := Option.ne_none_iff_exists'.1 ht'
  have hw := (exec_eq_ok.1 hc).written hy
  rw [ht] at hw
  obtain ⟨x', hx', hg⟩ := Path.extends hpost a y hy
  rw [hx, Option.some.injEq] at hx'
  exact ⟨pre, t, call, post, y, rfl, hpre, ht, hw.resolve_left (by simp), hx' ▸ hg⟩

/-- The ledger only grows from `s` to `s'`. -/
structure AppendOnly (s s' : Store) : Prop where
  signature : ∀ a sg, s.lookup a = some (.signature sg) → s'.lookup a = some (.signature sg)
  signerRecord : ∀ a sr, s.lookup a = some (.signerRecord sr) →
    s'.lookup a = some (.signerRecord sr)
  member : ∀ a mm, s.lookup a = some (.member mm) → s'.lookup a = some (.member mm)
  contract : ∀ a c, s.lookup a = some (.contract c) → ∃ c', s'.lookup a = some (.contract c')
    ∧ c'.contractHash = c.contractHash ∧ c'.timestamp = c.timestamp ∧ c'.active = c.active
    ∧ c'.bump = c.bump ∧ c.signatureCount ≤ c'.signatureCount
  multisig : ∀ a ms, s.lookup a = some (.multisig ms) → ∃ ms', s'.lookup a = some (.multisig ms')
    ∧ ms'.contract = ms.contract ∧ ms'.threshold = ms.threshold
    ∧ ms'.maxSigners = ms.maxSigners ∧ ms'.bump = ms.bump
    ∧ ms.signaturesCollected ≤ ms'.signaturesCollected
  finalized : ∀ a ms, s.lookup a = some (.multisig ms) → ms.finalized = true →
    s'.lookup a = some (.multisig ms)
  /-- No member is added to a finalized agreement. -/
  closed : ∀ a ms, s.lookup a = some (.multisig ms) → ms.finalized = true →
    ∀ b mm, s'.lookup b = some (.member mm) → mm.multisig = a → s.lookup b = some (.member mm)

theorem AppendOnly.of_extends {s s' : Store} (h : Extends s s')
    (hc : ∀ a ms, s.lookup a = some (.multisig ms) → ms.finalized = true →
      ∀ b mm, s'.lookup b = some (.member mm) → mm.multisig = a →
        s.lookup b = some (.member mm)) : AppendOnly s s' where
  signature _ _ := h.signature
  signerRecord _ _ := h.signerRecord
  member _ _ := h.member
  contract _ _ := h.contract
  multisig a ms hs := by
    obtain ⟨ms', hms', h₁, h₂, h₃, h₄, h₅, -⟩ := h.multisig hs
    exact ⟨ms', hms', h₁, h₂, h₃, h₄, h₅⟩
  finalized a ms hs hf := by
    obtain ⟨ms', hms', hg⟩ := h.multisig hs
    rwa [hg.2.2.2.2.2 hf] at hms'
  closed := hc

theorem AppendOnly.refl (s : Store) : AppendOnly s s :=
  .of_extends (.refl s) fun _ _ _ _ _ _ h _ => h

theorem AppendOnly.trans {s₁ s₂ s₃ : Store} (h₁ : AppendOnly s₁ s₂) (h₂ : AppendOnly s₂ s₃) :
    AppendOnly s₁ s₃ where
  signature a sg h := h₂.signature a sg (h₁.signature a sg h)
  signerRecord a sr h := h₂.signerRecord a sr (h₁.signerRecord a sr h)
  member a mm h := h₂.member a mm (h₁.member a mm h)
  contract a c h := by
    obtain ⟨c₂, hc₂, a₁, a₂, a₃, a₄, a₅⟩ := h₁.contract a c h
    obtain ⟨c₃, hc₃, b₁, b₂, b₃, b₄, b₅⟩ := h₂.contract a c₂ hc₂
    exact ⟨c₃, hc₃, b₁.trans a₁, b₂.trans a₂, b₃.trans a₃, b₄.trans a₄, UInt64.le_trans a₅ b₅⟩
  multisig a ms h := by
    obtain ⟨ms₂, hms₂, a₁, a₂, a₃, a₄, a₅⟩ := h₁.multisig a ms h
    obtain ⟨ms₃, hms₃, b₁, b₂, b₃, b₄, b₅⟩ := h₂.multisig a ms₂ hms₂
    exact ⟨ms₃, hms₃, b₁.trans a₁, b₂.trans a₂, b₃.trans a₃, b₄.trans a₄, UInt8.le_trans a₅ b₅⟩
  finalized a ms h hf := h₂.finalized a ms (h₁.finalized a ms h hf) hf
  closed a ms h hf b mm hb hm :=
    h₁.closed a ms h hf b mm (h₂.closed a ms (h₁.finalized a ms h hf) hf b mm hb hm) hm

/-- A step adds a member to an agreement that is not finalized only. -/
theorem Effect.appendOnly {s s' : Store} {call : Call} (h : Effect D groth16 s call s') :
    AppendOnly s s' := by
  refine .of_extends h.extends fun a ms ha hf b mm hb hm => (h.written hb).resolve_right ?_
  intro hw
  cases hw with
  | @member rt acc h k r c ms' sr sg b g =>
    have hms : s.lookup a = some (.multisig ms') := hm ▸ g.multisig
    rw [ha, Option.some.injEq, Account.multisig.injEq] at hms
    rw [hms, g.pending] at hf
    exact absurd hf (by simp)

theorem Path.appendOnly {s₀ s : Store} {js : List (Store × Call)}
    (hp : Path D groth16 s₀ js s) : AppendOnly s₀ s :=
  hp.invariant (fun _ => AppendOnly s₀) (.refl s₀) fun _ _ _ _ h hc =>
    h.trans (exec_eq_ok.1 hc).appendOnly

/-- Receipts, signer records and members are for good, a contract and an agreement keep what they
are about while their counters grow, and a finalized agreement is closed: over an instruction, and
over the rest of the run. -/
theorem ledger_appendOnly (D : Pda) (groth16 : Groth16Verifier) (txs : List (List Call)) :
    (∀ call, AppendOnly (run D groth16 ∅ txs) (commit D groth16 (run D groth16 ∅ txs) [call]))
      ∧ ∀ txs', AppendOnly (run D groth16 ∅ txs) (run D groth16 (run D groth16 ∅ txs) txs') :=
  ⟨fun call => Path.appendOnly (Batch.path_run _ [[call]]),
    fun txs' => Path.appendOnly (Batch.path_run _ txs')⟩

end Oblivia

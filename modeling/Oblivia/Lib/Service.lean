import Oblivia.Lib.Async
/-!
# Requests that are served

Asynchronous functions whose requests are answered by programs, which ask a world in their turn
while others move it (`Servers`). A request may be lost, and is answered then as its transport
says, though the program goes on. What the answers vouch for is proved program by program; if it
stays true while the world moves, every section finds it true of its answer, and what such sections
keep holds in every run (`Vouch.runs`).
-/

open Dialogue Async

/-- How requests are served: what the world answers, how others move it, the programs that work on
a request, and the answers to a request that is lost. -/
structure Servers (Q : Type) (A : Q → Type) (Q' : Type) (A' : Q' → Type) (W : Type) where
  serve : W → (q : Q') → A' q → W → Prop
  drift : W → W → Prop
  offers : (q : Q) → Dialogue Q' A' (A q) → Prop
  lost : (q : Q) → A q → Prop

/-- Functions, the programs that work on their requests, the world, and the answers so far. -/
structure Service (ι Q : Type) (A : Q → Type) (σ β Q' : Type) (A' : Q' → Type) (W : Type) where
  crowd : Crowd ι Q A σ β
  work : ι → Option ((q : Q) × Dialogue Q' A' (A q))
  world : W
  log : List (ι × Turn Q A)

namespace Service

variable {ι Q : Type} {A : Q → Type} {σ β Q' : Type} {A' : Q' → Type} {W : Type}

/-- Nothing has been asked yet. -/
def start (c : Crowd ι Q A σ β) (w : W) : Service ι Q A σ β Q' A' W := ⟨c, fun _ => none, w, []⟩

variable [DecidableEq ι] (S : Servers Q A Q' A' W)

/-- A program takes a request or asks the world, the world moves, or a function goes on: with the
answer of its program, or without it. -/
inductive Step (s : Service ι Q A σ β Q' A' W) : Service ι Q A σ β Q' A' W → Prop
  | take {i : ι} {q : Q} {d : Dialogue Q' A' (A q)} : s.crowd.waits i = some q → s.work i = none →
      S.offers q d → Step s { s with work := Function.update s.work i (some ⟨q, d⟩) }
  | ask {i : ι} {q : Q} {q' : Q'} {next : A' q' → Dialogue Q' A' (A q)} {r : A' q'} {w : W} :
      s.work i = some ⟨q, .ask q' next⟩ → S.serve s.world q' r w →
      Step s { s with work := Function.update s.work i (some ⟨q, next r⟩), world := w }
  | drift {w : W} : S.drift s.world w → Step s { s with world := w }
  | answer {i : ι} {q : Q} {a : A q} {c : Crowd ι Q A σ β} : s.work i = some ⟨q, .done a⟩ →
      s.crowd.Step i ⟨q, a⟩ c →
      Step s ⟨c, Function.update s.work i none, s.world, s.log ++ [(i, ⟨q, a⟩)]⟩
  | lose {i : ι} {e : Turn Q A} {c : Crowd ι Q A σ β} : S.lost e.1 e.2 → s.crowd.Step i e c →
      Step s ⟨c, Function.update s.work i none, s.world, s.log ++ [(i, e)]⟩

abbrev Runs : Service ι Q A σ β Q' A' W → Service ι Q A σ β Q' A' W → Prop :=
  Relation.ReflTransGen (Step S)

variable {S} {s s' : Service ι Q A σ β Q' A' W}

/-- A program goes on, and the world as its questions move it. -/
theorem runs_of_follows {i : ι} {q : Q} {d d' : Dialogue Q' A' (A q)} {t : List (Turn Q' A')}
    {w : W} (hf : Follows d t d') (hi : s.work i = some ⟨q, d⟩)
    (ht : Pool.Serves S.serve s.world t w) :
    Runs S s { s with work := Function.update s.work i (some ⟨q, d'⟩), world := w } := by
  induction hf generalizing s with
  | refl d =>
    cases ht
    rw [← hi, Function.update_eq_self]
  | @ask q' next r t d' _ ih =>
    cases ht with
    | @cons _ w₁ _ _ _ _ hserve ht =>
      have hask : Step S s
          { s with work := Function.update s.work i (some ⟨q, next r⟩), world := w₁ } :=
        .ask hi hserve
      refine .head hask ?_
      have hrest := ih
        (s := { s with work := Function.update s.work i (some ⟨q, next r⟩), world := w₁ })
        (Function.update_self ..) ht
      simpa only [Function.update_idem] using hrest

/-- A request that is answered by its program, with nothing between its questions. -/
theorem runs_of_answered {i : ι} {q : Q} {d : Dialogue Q' A' (A q)} {t : List (Turn Q' A')}
    {a : A q} {c : Crowd ι Q A σ β} {w : W} (hidle : s.work i = none) (hd : S.offers q d)
    (hf : Follows d t (.done a)) (ht : Pool.Serves S.serve s.world t w)
    (hstep : s.crowd.Step i ⟨q, a⟩ c) :
    Runs S s ⟨c, s.work, w, s.log ++ [(i, ⟨q, a⟩)]⟩ := by
  have htake : Step S s { s with work := Function.update s.work i (some ⟨q, d⟩) } :=
    .take hstep.waits.1 hidle hd
  have hwork := runs_of_follows (s := { s with work := Function.update s.work i (some ⟨q, d⟩) })
    hf (Function.update_self ..) ht
  have hanswer := Step.answer (S := S)
    (s := { s with work := Function.update s.work i (some ⟨q, .done a⟩), world := w })
    (Function.update_self ..) hstep
  simp only [Function.update_idem] at hwork hanswer
  rw [← hidle, Function.update_eq_self] at hanswer
  exact .head htake (.tail hwork hanswer)

/-- Requests that are lost before any program takes them. -/
theorem runs_of_lost [DecidableEq Q] {l : List (ι × Turn Q A)} {c : Crowd ι Q A σ β}
    (hidle : ∀ i, s.work i = none) (hlost : ∀ x ∈ l, S.lost x.2.1 x.2.2)
    (hplay : s.crowd.play l = some c) : Runs S s ⟨c, s.work, s.world, s.log ++ l⟩ := by
  induction l generalizing s with
  | nil =>
    obtain rfl := Option.some.inj hplay
    rw [List.append_nil]
  | cons x l ih =>
    obtain ⟨c₁, hstep, hrest⟩ := Crowd.exists_step_of_play hplay
    have hlose := Step.lose (hlost x List.mem_cons_self) hstep
    rw [← hidle x.1, Function.update_eq_self] at hlose
    have hruns := ih (s := ⟨c₁, s.work, s.world, s.log ++ [x]⟩) hidle
      (fun y hy => hlost y (List.mem_cons_of_mem _ hy)) hrest
    rw [List.append_assoc] at hruns
    exact .head hlose hruns

end Service

namespace Servers

variable {Q : Type} {A : Q → Type} {Q' : Type} {A' : Q' → Type} {W : Type}

/-- What answers vouch for: `right q a w` if the answer `a` to `q` is right in `w`. Programs give
right answers in a world that meets `I`, which stay right; lost requests have right answers. -/
structure Vouch (S : Servers Q A Q' A' W) (I : W → Prop) (right : (q : Q) → A q → W → Prop) :
    Prop where
  refl : ∀ w, S.drift w w
  trans : ∀ {w w' w''}, S.drift w w' → S.drift w' w'' → S.drift w w''
  served : ∀ {w q r w'}, S.serve w q r w' → S.drift w w'
  kept : ∀ {w w'}, S.drift w w' → I w → I w'
  stays : ∀ {w w' q a}, S.drift w w' → right q a w → right q a w'
  offered : ∀ {w q d}, I w → S.offers q d → Ensures S.serve S.drift d (right q) w
  lost : ∀ {w q a}, S.lost q a → right q a w

variable {ι σ β : Type} {S : Servers Q A Q' A' W} {I : W → Prop}
  {right : (q : Q) → A q → W → Prop}

/-- Every program is on its way to a right answer, and every answer was right. -/
structure Sound (S : Servers Q A Q' A' W) (I : W → Prop) (right : (q : Q) → A q → W → Prop)
    (s : Service ι Q A σ β Q' A' W) : Prop where
  world : I s.world
  work : ∀ i q d, s.work i = some ⟨q, d⟩ →
    ∃ w, S.drift w s.world ∧ Ensures S.serve S.drift d (right q) w
  log : ∀ x ∈ s.log, right x.2.1 x.2.2 s.world

theorem sound_start {c : Crowd ι Q A σ β} {w : W} (hw : I w) :
    Sound S I right (.start c w : Service ι Q A σ β Q' A' W) :=
  ⟨hw, fun _ _ _ h => (nomatch h), fun _ h => (nomatch h)⟩

variable {s s' : Service ι Q A σ β Q' A' W}

/-- The world moves on. -/
theorem Vouch.drift (hS : S.Vouch I right) (h : Sound S I right s) {w : W}
    (hw : S.drift s.world w) : Sound S I right { s with world := w } := by
  refine ⟨hS.kept hw h.world, fun i q d hd => ?_, fun x hx => hS.stays hw (h.log x hx)⟩
  obtain ⟨w₀, hw₀, hens⟩ := h.work i q d hd
  exact ⟨w₀, hS.trans hw₀ hw, hens⟩

variable [DecidableEq ι]

/-- The work on one request changes. -/
theorem Sound.update (h : Sound S I right s) {i : ι}
    {x : Option ((q : Q) × Dialogue Q' A' (A q))}
    (hx : ∀ q d, x = some ⟨q, d⟩ →
      ∃ w, S.drift w s.world ∧ Ensures S.serve S.drift d (right q) w) :
    Sound S I right { s with work := Function.update s.work i x } := by
  refine ⟨h.world, (Function.forall_update_iff s.work fun _ y => ∀ q d, y = some ⟨q, d⟩ →
    ∃ w, S.drift w s.world ∧ Ensures S.serve S.drift d (right q) w).2
      ⟨hx, fun j _ q d hd => h.work j q d hd⟩, h.log⟩

/-- A function goes on with a right answer. -/
theorem Sound.resume (h : Sound S I right s) {i : ι} {e : Turn Q A} {c : Crowd ι Q A σ β}
    (he : right e.1 e.2 s.world) : Sound S I right
      (⟨c, Function.update s.work i none, s.world, s.log ++ [(i, e)]⟩ :
        Service ι Q A σ β Q' A' W) := by
  have hwork : Sound S I right { s with work := Function.update s.work i none } :=
    h.update fun _ _ hx => (nomatch hx)
  refine ⟨h.world, hwork.work, fun x hx => ?_⟩
  rcases List.mem_append.1 hx with hx | hx
  · exact h.log x hx
  · rw [List.mem_singleton.1 hx]
    exact he

omit [DecidableEq ι] in
theorem Vouch.answered (hS : S.Vouch I right) (h : Sound S I right s) {i : ι} {q : Q} {a : A q}
    (hi : s.work i = some ⟨q, .done a⟩) : right q a s.world := by
  obtain ⟨w, hw, hens⟩ := h.work i q _ hi
  exact hS.stays hw hens

theorem Vouch.step (hS : S.Vouch I right) (h : Sound S I right s) (hstep : Service.Step S s s') :
    Sound S I right s' := by
  cases hstep with
  | take _ _ hd =>
    refine h.update fun q' d' hx => ?_
    cases hx
    exact ⟨s.world, hS.refl _, hS.offered h.world hd⟩
  | @ask i q q' next r w hi hserve =>
    obtain ⟨w₀, hw₀, hens⟩ := h.work i q _ hi
    refine (hS.drift h (hS.served hserve)).update fun q₁ d hx => ?_
    cases hx
    exact ⟨w, hS.refl _, hens s.world hw₀ r w hserve⟩
  | drift hw => exact hS.drift h hw
  | answer hi _ => exact h.resume (hS.answered h hi)
  | lose hlost _ => exact h.resume (hS.lost hlost)

/-- What the world's movement keeps, and every section that goes on with a right answer, holds in
every run. -/
theorem Vouch.runs (hS : S.Vouch I right) {J : W → List (ι × Turn Q A) → Crowd ι Q A σ β → Prop}
    (hdrift : ∀ {w w' l c}, S.drift w w' → J w l c → J w' l c)
    (hresume : ∀ {w l c i e c'}, I w → J w l c → right e.1 e.2 w → Crowd.Step c i e c' →
      J w (l ++ [(i, e)]) c')
    {c : Crowd ι Q A σ β} {w : W} (hw : I w) (h₀ : J w [] c)
    (h : Service.Runs S (.start c w) s) :
    Sound S I right s ∧ J s.world s.log s.crowd := by
  induction h with
  | refl => exact ⟨sound_start hw, h₀⟩
  | @tail s s' _ hstep ih =>
    obtain ⟨hsound, hJ⟩ := ih
    refine ⟨hS.step hsound hstep, ?_⟩
    cases hstep with
    | take => exact hJ
    | ask _ hserve => exact hdrift (hS.served hserve) hJ
    | drift hw => exact hdrift hw hJ
    | answer hi hcrowd => exact hresume hsound.world hJ (hS.answered hsound hi) hcrowd
    | lose hlost hcrowd => exact hresume hsound.world hJ (hS.lost hlost) hcrowd

end Servers

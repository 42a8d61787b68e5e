import Mathlib.Algebra.BigOperators.Group.List.Basic
import Mathlib.Algebra.Order.Monoid.Canonical.Defs
import Mathlib.Logic.Function.Basic
import Mathlib.Logic.Relation
import Mathlib.Tactic.Common
/-!
# Programs that ask

A program that asks questions of its surroundings and goes on with the answers: asynchronous code
that awaits requests, say. `Ensures` is what holds when it ends, if its questions are answered out
of a state that others change meanwhile, with a rule for each construct, for exceptions too;
`Spends` bounds what its questions cost. Several such programs share a state as a `Pool`, asking in
any order; each of them ends as it would alone (`Pool.ensures`), and its part of the log is a run
of its own (`Pool.follows`).
-/

inductive Dialogue (Q : Type) (A : Q → Type) (α : Type) : Type
  | done (a : α)
  | ask (q : Q) (next : A q → Dialogue Q A α)

namespace Dialogue

variable {Q : Type} {A : Q → Type} {α β ε σ : Type}

def bind : Dialogue Q A α → (α → Dialogue Q A β) → Dialogue Q A β
  | done a, f => f a
  | ask q next, f => ask q fun r => (next r).bind f

instance : Monad (Dialogue Q A) where
  pure := done
  bind := bind

/-- One question. -/
def request (q : Q) : Dialogue Q A (A q) := ask q done

section Ensures

variable (serve : σ → (q : Q) → A q → σ → Prop) (drift : σ → σ → Prop)

/-- However its questions are answered, and however the state drifts before each of them, the
program ends with a result and a state that meet `P`. -/
def Ensures : Dialogue Q A α → (α → σ → Prop) → σ → Prop
  | done a, P, s => P a s
  | ask q next, P, s =>
    ∀ s₁, drift s s₁ → ∀ r s₂, serve s₁ q r s₂ → Ensures (next r) P s₂

variable {serve drift} {P P' : α → σ → Prop} {s : σ}

theorem Ensures.mono : ∀ {d : Dialogue Q A α} {s : σ}, Ensures serve drift d P s →
    (∀ a s, P a s → P' a s) → Ensures serve drift d P' s
  | done a, s, h, hP => hP a s h
  | ask _ _, _, h, hP => fun s₁ h₁ r s₂ h₂ => (h s₁ h₁ r s₂ h₂).mono hP

theorem Ensures.and : ∀ {d : Dialogue Q A α} {s : σ}, Ensures serve drift d P s →
    Ensures serve drift d P' s → Ensures serve drift d (fun a s => P a s ∧ P' a s) s
  | done _, _, h, h' => ⟨h, h'⟩
  | ask _ _, _, h, h' => fun s₁ h₁ r s₂ h₂ => (h s₁ h₁ r s₂ h₂).and (h' s₁ h₁ r s₂ h₂)

/-- What every question and every drift of the state keeps. -/
theorem ensures_invariant {I : σ → Prop} (hdrift : ∀ s s', drift s s' → I s → I s')
    (hserve : ∀ s q r s', serve s q r s' → I s → I s') : ∀ (d : Dialogue Q A α) {s : σ}, I s →
      Ensures serve drift d (fun _ s => I s) s
  | done _, _, h => h
  | ask _ next, _, h => fun _ h₁ r _ h₂ =>
    ensures_invariant hdrift hserve (next r) (hserve _ _ _ _ h₂ (hdrift _ _ h₁ h))

@[simp]
theorem ensures_bind {f : α → Dialogue Q A β} {P : β → σ → Prop} :
    ∀ {d : Dialogue Q A α} {s : σ}, Ensures serve drift (d >>= f) P s ↔
      Ensures serve drift d (fun a s => Ensures serve drift (f a) P s) s
  | done _, _ => Iff.rfl
  | ask _ _, _ => forall_congr' fun _ => forall_congr' fun _ => forall_congr' fun _ =>
    forall_congr' fun _ => forall_congr' fun _ => ensures_bind

end Ensures

section Except

variable {serve : σ → (q : Q) → A q → σ → Prop} {drift : σ → σ → Prop} {s : σ}
  {x : ExceptT ε (Dialogue Q A) α}

/-- What follows a computation that may throw. -/
theorem ensures_except_bind {f : α → ExceptT ε (Dialogue Q A) β} {P : Except ε β → σ → Prop} :
    Ensures serve drift (x >>= f).run P s ↔
      Ensures serve drift x.run (fun r s => match r with
        | .ok a => Ensures serve drift (f a).run P s
        | .error e => P (.error e) s) s := by
  refine ensures_bind.trans ?_
  constructor <;> intro h <;> refine h.mono fun r s hr => ?_ <;> cases r <;> exact hr

/-- The rule for what follows: it starts from the results of what goes before, whose exceptions
are those of the whole. -/
theorem Ensures.andThen {f : α → ExceptT ε (Dialogue Q A) β} {P : Except ε α → σ → Prop}
    {R : Except ε β → σ → Prop} (hx : Ensures serve drift x.run P s)
    (hf : ∀ a s, P (.ok a) s → Ensures serve drift (f a).run R s)
    (he : ∀ e s, P (.error e) s → R (.error e) s) : Ensures serve drift (x >>= f).run R s := by
  refine ensures_except_bind.2 (hx.mono fun r s hr => ?_)
  cases r with
  | ok a => exact hf a s hr
  | error e => exact he e s hr

theorem ensures_tryCatch {f : ε → ExceptT ε (Dialogue Q A) α} {P : Except ε α → σ → Prop} :
    Ensures serve drift (tryCatch x f).run P s ↔
      Ensures serve drift x.run (fun r s => match r with
        | .ok a => P (.ok a) s
        | .error e => Ensures serve drift (f e).run P s) s := by
  refine ensures_bind.trans ?_
  constructor <;> intro h <;> refine h.mono fun r s hr => ?_ <;> cases r <;> exact hr

/-- Whatever is answered, what the program returns is as `P` says, if it returns. -/
def Yields (serve : σ → (q : Q) → A q → σ → Prop) (drift : σ → σ → Prop)
    (x : ExceptT ε (Dialogue Q A) α) (P : α → σ → Prop) (s : σ) : Prop :=
  Ensures serve drift x.run (fun r s => ∀ a, r = .ok a → P a s) s

section Yields

variable {P P' : α → σ → Prop} {R : β → σ → Prop} {f : α → ExceptT ε (Dialogue Q A) β}

theorem yields_pure {a : α} :
    Yields serve drift (pure a : ExceptT ε (Dialogue Q A) α) P s ↔ P a s :=
  ⟨fun h => h a rfl, fun h _ ha => Except.ok.inj ha ▸ h⟩

theorem Yields.mono (hx : Yields serve drift x P s) (hP : ∀ a s, P a s → P' a s) :
    Yields serve drift x P' s :=
  Ensures.mono hx fun _ s hr a ha => hP a s (hr a ha)

theorem Yields.bind (hx : Yields serve drift x P s)
    (hf : ∀ a s, P a s → Yields serve drift (f a) R s) : Yields serve drift (x >>= f) R s :=
  Ensures.andThen hx (fun a s ha => hf a s (ha a rfl)) fun _ _ _ _ hb => (nomatch hb)

/-- What every question and every drift of the state keeps. -/
theorem yields_invariant {I : σ → Prop} (hdrift : ∀ s s', drift s s' → I s → I s')
    (hserve : ∀ s q r s', serve s q r s' → I s → I s') (x : ExceptT ε (Dialogue Q A) α) {s : σ}
    (hs : I s) : Yields serve drift x (fun _ s => I s) s :=
  (ensures_invariant hdrift hserve x.run hs).mono fun _ _ h _ _ => h

end Yields

end Except

/-- A question with its answer. -/
abbrev Turn (Q : Type) (A : Q → Type) := (q : Q) × A q

/-- The program goes through these turns, up to what is left of it. -/
inductive Follows : Dialogue Q A α → List (Turn Q A) → Dialogue Q A α → Prop
  | refl (d : Dialogue Q A α) : Follows d [] d
  | ask {q : Q} {next : A q → Dialogue Q A α} {r : A q} {t : List (Turn Q A)}
      {d' : Dialogue Q A α} : Follows (next r) t d' → Follows (ask q next) (⟨q, r⟩ :: t) d'

section Follows

variable {d d' d'' : Dialogue Q A α} {t t' : List (Turn Q A)}

theorem Follows.eq_of_nil (h : Follows d [] d') : d = d' := by
  cases h
  rfl

theorem Follows.trans (h : Follows d t d') (h' : Follows d' t' d'') :
    Follows d (t ++ t') d'' := by
  induction h with
  | refl => exact h'
  | ask _ ih => exact .ask (ih h')

theorem Follows.map {β : Type} (f : α → β) (h : Follows d t d') :
    Follows (f <$> d) t (f <$> d') := by
  induction h with
  | refl => exact .refl _
  | ask _ ih => exact .ask ih

/-- Where every question has a good answer, a program can go on to an end with good answers. -/
theorem exists_follows_good {good : Turn Q A → Prop} (hgood : ∀ q, ∃ r, good ⟨q, r⟩) :
    ∀ d : Dialogue Q A α, ∃ t a, Follows d t (done a) ∧ ∀ e ∈ t, good e
  | done a => ⟨[], a, .refl _, by simp⟩
  | ask q next => by
    obtain ⟨r, hr⟩ := hgood q
    obtain ⟨t, a, h, ht⟩ := exists_follows_good hgood (next r)
    exact ⟨_, a, .ask h, List.forall_mem_cons.2 ⟨hr, ht⟩⟩

/-- Every program that has come so far can go on to an end. -/
theorem exists_follows [∀ q, Nonempty (A q)] (d : Dialogue Q A α) :
    ∃ t a, Follows d t (done a) := by
  have hany : ∃ t a, Follows d t (done a) ∧ ∀ e ∈ t, True :=
    exists_follows_good (fun q => ⟨Classical.arbitrary (A q), trivial⟩) d
  obtain ⟨t, a, h, -⟩ := hany
  exact ⟨t, a, h⟩

/-- The questions asked so far, the last one perhaps without an answer. -/
def asked (t : List (Turn Q A)) : Dialogue Q A α → List Q
  | done _ => t.map Sigma.fst
  | ask q _ => t.map Sigma.fst ++ [q]

/-- What has been asked so far is a first part of what is asked in some complete run. -/
theorem Follows.exists_complete [∀ q, Nonempty (A q)] (h : Follows d t d') :
    ∃ u a, Follows d (t ++ u) (done a) ∧ asked t d' <+: (t ++ u).map Sigma.fst := by
  cases d' with
  | done a => exact ⟨[], a, by simpa using h, by simp [asked]⟩
  | ask q next =>
    obtain ⟨u, a, hu⟩ := exists_follows (next (Classical.arbitrary (A q)))
    refine ⟨⟨q, Classical.arbitrary (A q)⟩ :: u, a, h.trans (.ask hu), ⟨u.map Sigma.fst, ?_⟩⟩
    simp [asked]

/-- The result, if the program goes through these turns to its end. -/
def play [DecidableEq Q] : Dialogue Q A α → List (Turn Q A) → Option α
  | done a, [] => some a
  | ask q next, ⟨q', r⟩ :: t => if h : q' = q then play (next (h ▸ r)) t else none
  | _, _ => none

theorem follows_of_play [DecidableEq Q] : ∀ {d : Dialogue Q A α} {t : List (Turn Q A)} {a : α},
    play d t = some a → Follows d t (done a)
  | done a, [], b, h => by
    cases h
    exact .refl _
  | ask q next, ⟨q', r⟩ :: t, a, h => by
    unfold play at h
    split_ifs at h with hq
    subst hq
    exact .ask (follows_of_play h)

/-- The state is the turns so far. -/
def noted (h : List (Turn Q A)) (q : Q) (r : A q) (h' : List (Turn Q A)) : Prop :=
  h' = h ++ [⟨q, r⟩]

/-- Of the runs whose answers are all good, one that has had another is none. -/
theorem ensures_of_bad {good : Turn Q A → Prop} {P : α → List (Turn Q A) → Prop}
    {h : List (Turn Q A)} (hbad : ∃ e ∈ h, ¬good e) :
    Ensures noted Eq d (fun a h => (∀ e ∈ h, good e) → P a h) h := by
  have hkept : Ensures noted Eq d (fun _ h => ∃ e ∈ h, ¬good e) h := by
    refine ensures_invariant (fun _ _ heq hbad => heq ▸ hbad) ?_ d hbad
    rintro h q r h' hnoted ⟨e, he, hbad⟩
    rw [noted] at hnoted
    rw [hnoted]
    exact ⟨e, List.mem_append_left _ he, hbad⟩
  exact hkept.mono fun a h ⟨e, he, hbad⟩ hgood => absurd (hgood e he) hbad

theorem Ensures.of_follows {P : α → List (Turn Q A) → Prop} {a : α} (hf : Follows d t (done a)) :
    ∀ {h}, Ensures noted Eq d P h → P a (h ++ t) := by
  generalize hd : done a = e at hf
  induction hf with
  | refl =>
    subst hd
    intro h he
    rw [List.append_nil]
    exact he
  | @ask q next r t d' hf ih =>
    intro h he
    have := ih hd (he h rfl r _ rfl)
    simpa using this

end Follows

section Asked

variable {d : Dialogue Q A α} {t : List (Turn Q A)} {q : Q} {next : A q → Dialogue Q A α}

/-- A question that is asked is one of those of a complete run. -/
theorem Follows.asks [∀ q, Nonempty (A q)] {asks : Q → Prop}
    (hd : Ensures noted Eq d (fun _ h => ∀ e ∈ h, asks e.1) []) (hf : Follows d t (.ask q next)) :
    asks q := by
  obtain ⟨u, a, hdone, hpre⟩ := hf.exists_complete
  have hq : q ∈ (t ++ u).map Sigma.fst := hpre.subset (by simp [asked])
  obtain ⟨e, he, rfl⟩ := List.mem_map.1 hq
  exact hd.of_follows hdone e (by simpa using he)

end Asked

section Spends

variable {M : Type} [AddCommMonoid M] [PartialOrder M]

/-- However its questions are answered, the program asks these questions only, and together they
cost no more than `m`. -/
def Spends (asks : Q → Prop) (cost : Q → M) : M → Dialogue Q A α → Prop
  | _, done _ => True
  | m, ask q next => asks q ∧ ∃ m', cost q + m' ≤ m ∧ ∀ r, Spends asks cost m' (next r)

variable {asks : Q → Prop} {cost : Q → M} {m k : M}

theorem spends_pure {a : α} : Spends asks cost m (pure a : Dialogue Q A α) := trivial

theorem Spends.mono : ∀ {d : Dialogue Q A α}, Spends asks cost m d → m ≤ k →
    Spends asks cost k d
  | done _, _, _ => trivial
  | ask _ _, ⟨hq, m₁, hle, hnext⟩, h => ⟨hq, m₁, hle.trans h, hnext⟩

variable [IsOrderedAddMonoid M] [CanonicallyOrderedAdd M]

theorem Spends.bind {f : α → Dialogue Q A β} (hf : ∀ a, Spends asks cost k (f a)) :
    ∀ {d : Dialogue Q A α} {m : M}, Spends asks cost m d → Spends asks cost (m + k) (d >>= f)
  | done a, _, _ => (hf a).mono le_add_self
  | ask q next, m, ⟨hq, m₁, hle, hnext⟩ => by
    refine ⟨hq, m₁ + k, ?_, fun r => (hnext r).bind hf⟩
    rw [← add_assoc]
    gcongr

/-- What an exception skips costs nothing. -/
theorem Spends.andThen {x : ExceptT ε (Dialogue Q A) α} {f : α → ExceptT ε (Dialogue Q A) β}
    (hx : Spends asks cost m x.run) (hf : ∀ a, Spends asks cost k (f a).run) :
    Spends asks cost (m + k) (x >>= f).run := by
  refine Spends.bind (fun r => ?_) hx
  cases r with
  | ok a => exact hf a
  | error e => exact spends_pure

theorem Spends.orElse {x : ExceptT ε (Dialogue Q A) α} {f : ε → ExceptT ε (Dialogue Q A) α}
    (hx : Spends asks cost m x.run) (hf : ∀ e, Spends asks cost k (f e).run) :
    Spends asks cost (m + k) (tryCatch x f).run := by
  refine Spends.bind (fun r => ?_) hx
  cases r with
  | ok a => exact spends_pure
  | error e => exact hf e

/-- So at any moment the questions asked so far cost no more. -/
theorem Spends.asked {d d' : Dialogue Q A α} {t : List (Turn Q A)} (hf : Follows d t d') :
    ∀ {m : M}, Spends asks cost m d →
      (∀ q ∈ asked t d', asks q) ∧ ((Dialogue.asked t d').map cost).sum ≤ m := by
  induction hf with
  | refl d =>
    intro m hd
    cases d with
    | done a => simp [Dialogue.asked]
    | ask q next =>
      obtain ⟨hq, m₁, hle, -⟩ := hd
      simpa [Dialogue.asked, hq] using le_self_add.trans hle
  | @ask q next r t d' hf ih =>
    rintro m ⟨hq, m₁, hle, hnext⟩
    obtain ⟨hasks, hcost⟩ := ih (hnext r)
    have hcons : Dialogue.asked (⟨q, r⟩ :: t) d' = q :: Dialogue.asked t d' := by
      cases d' <;> rfl
    rw [hcons, List.map_cons, List.sum_cons]
    refine ⟨fun q' hq' => ?_, le_trans (by gcongr) hle⟩
    rcases List.mem_cons.1 hq' with rfl | hq'
    · exact hq
    · exact hasks q' hq'

end Spends

section Recorded

variable (serve : σ → (q : Q) → A q → σ → Prop) (drift : σ → σ → Prop)

/-- The turns so far are kept beside the state. -/
def recorded (w : σ × List (Turn Q A)) (q : Q) (r : A q) (w' : σ × List (Turn Q A)) : Prop :=
  serve w.1 q r w'.1 ∧ w'.2 = w.2 ++ [⟨q, r⟩]

/-- The state drifts beside the turns so far. -/
def aside (w w' : σ × List (Turn Q A)) : Prop := drift w.1 w'.1 ∧ w'.2 = w.2

end Recorded

/-- Programs that share a state, and what they have asked so far. -/
structure Pool (ι Q : Type) (A : Q → Type) (α σ : Type) where
  world : σ
  talks : ι → Dialogue Q A α
  log : List (ι × Turn Q A)

namespace Pool

variable {ι : Type} [DecidableEq ι] (serve : σ → (q : Q) → A q → σ → Prop)

/-- One of the programs asks, and goes on with the answer. -/
inductive Step (p : Pool ι Q A α σ) : Pool ι Q A α σ → Prop
  | ask {i : ι} {q : Q} {next : A q → Dialogue Q A α} {r : A q} {s : σ} :
      p.talks i = .ask q next → serve p.world q r s →
      Step p ⟨s, Function.update p.talks i (next r), p.log ++ [(i, ⟨q, r⟩)]⟩

def start (s : σ) (talks : ι → Dialogue Q A α) : Pool ι Q A α σ := ⟨s, talks, []⟩

abbrev Runs (p p' : Pool ι Q A α σ) : Prop := Relation.ReflTransGen (Step serve) p p'

/-- The turns of one of the programs. -/
def turns (log : List (ι × Turn Q A)) (i : ι) : List (Turn Q A) :=
  (log.filter fun e => e.1 = i).map Prod.snd

/-- The answers come out of the state one after the other. -/
inductive Serves : σ → List (Turn Q A) → σ → Prop
  | nil (s : σ) : Serves s [] s
  | cons {s s' s'' : σ} {q : Q} {r : A q} {t : List (Turn Q A)} :
      serve s q r s' → Serves s' t s'' → Serves s (⟨q, r⟩ :: t) s''

variable {serve} {s : σ} {talks : ι → Dialogue Q A α} {p : Pool ι Q A α σ}

theorem mem_turns {log : List (ι × Turn Q A)} {i : ι} {e : Turn Q A} :
    e ∈ turns log i ↔ (i, e) ∈ log := by
  simp [turns]

/-- A program that is served alone ends as it ensures. -/
theorem Serves.ensures {drift : σ → σ → Prop} (hrefl : ∀ s, drift s s) {d : Dialogue Q A α}
    {t : List (Turn Q A)} {a : α} {P : α → σ → Prop} (hf : Follows d t (done a)) {s s' : σ}
    (ht : Serves serve s t s') (hd : Ensures serve drift d P s) : P a s' := by
  induction t generalizing d s with
  | nil =>
    cases ht
    obtain rfl := hf.eq_of_nil
    exact hd
  | cons e t ih =>
    cases ht with
    | cons hserve ht =>
      cases hf with
      | ask hf => exact ih hf ht (hd _ (hrefl _) _ _ hserve)

/-- Each program has followed its own part of the log. -/
theorem follows (h : Runs serve (start s talks) p) (i : ι) :
    Follows (talks i) (turns p.log i) (p.talks i) := by
  induction h with
  | refl => exact .refl _
  | tail _ hstep ih =>
    cases hstep with
    | @ask j q next r s' hj hserve =>
      by_cases hij : j = i
      · subst hij
        rw [hj] at ih
        simpa [turns] using ih.trans (.ask (.refl (next r)))
      · simpa [turns, hij, Function.update_of_ne (Ne.symm hij)] using ih

/-- And programs that follow their own parts of a log run together, if its answers come out of the
state in this order. -/
theorem runs_of_follows : ∀ (log : List (ι × Turn Q A)) {p : Pool ι Q A α σ} {s' : σ}
    {talks' : ι → Dialogue Q A α}, Serves serve p.world (log.map Prod.snd) s' →
    (∀ i, Follows (p.talks i) (turns log i) (talks' i)) →
    Runs serve p ⟨s', talks', p.log ++ log⟩
  | [], p, s', talks', hs, hf => by
    cases hs
    have htalks : p.talks = talks' := funext fun i => (hf i).eq_of_nil
    rw [List.append_nil, ← htalks]
  | (i, ⟨q, r⟩) :: log, p, s', talks', hs, hf => by
    cases hs with
    | @cons _ s₁ _ _ _ _ hserve hs =>
      have hi := hf i
      simp only [turns, List.filter_cons, decide_true, if_true, List.map_cons] at hi
      generalize hd : p.talks i = d at hi
      cases hi with
      | @ask q next r t d' hi =>
        have hrest : Runs serve ⟨s₁, Function.update p.talks i (next r), p.log ++ [(i, ⟨q, r⟩)]⟩
            ⟨s', talks', p.log ++ [(i, ⟨q, r⟩)] ++ log⟩ :=
          runs_of_follows log hs fun j => ?_
        · rw [List.append_assoc] at hrest
          exact Relation.ReflTransGen.head (.ask hd hserve) hrest
        · by_cases hij : i = j
          · subst hij
            simpa [turns] using hi
          · simpa [turns, hij, Function.update_of_ne (Ne.symm hij)] using hf j

/-- Among the others, a program is served as it would be alone, by a state that the others move
on. What it ensures then, of the state and of its own turns, it ensures here; only the questions
that are asked need to keep to the drift. -/
theorem ensures {drift : σ → σ → Prop} {asks : Q → Prop} (hrefl : ∀ s, drift s s)
    (htrans : ∀ s₁ s₂ s₃, drift s₁ s₂ → drift s₂ s₃ → drift s₁ s₃)
    (hserve : ∀ s q r s', asks q → serve s q r s' → drift s s')
    (hasks : ∀ i t q next, Follows (talks i) t (.ask q next) → asks q) {i : ι}
    {P : α → σ × List (Turn Q A) → Prop}
    (hi : Ensures (recorded serve) (aside drift) (talks i) P (s, []))
    (h : Runs serve (start s talks) p) : ∃ s', drift s' p.world
      ∧ Ensures (recorded serve) (aside drift) (p.talks i) P (s', turns p.log i) := by
  induction h with
  | refl => exact ⟨s, hrefl s, hi⟩
  | @tail p p' hruns hstep ih =>
    obtain ⟨s', hdrift, hens⟩ := ih
    cases hstep with
    | @ask j q next r s₂ hj hs =>
      by_cases hij : j = i
      · subst hij
        rw [hj] at hens
        refine ⟨s₂, hrefl s₂, ?_⟩
        simpa [turns] using hens (p.world, _) ⟨hdrift, rfl⟩ r (s₂, _) ⟨hs, rfl⟩
      · have hq : asks q := hasks j _ q next (hj ▸ follows hruns j)
        refine ⟨s', htrans _ _ _ hdrift (hserve _ _ _ _ hq hs), ?_⟩
        simpa [turns, hij, Function.update_of_ne (Ne.symm hij)] using hens

/-- What questions that keep to a property keep, a run keeps. -/
theorem invariant {asks : Q → Prop} (I : σ → List (ι × Turn Q A) → Prop) (h₀ : I s [])
    (hasks : ∀ i t q next, Follows (talks i) t (.ask q next) → asks q)
    (hserve : ∀ s log i q r s', I s log → asks q → serve s q r s' → I s' (log ++ [(i, ⟨q, r⟩)]))
    (h : Runs serve (start s talks) p) : I p.world p.log := by
  induction h with
  | refl => exact h₀
  | @tail p p' hruns hstep ih =>
    cases hstep with
    | @ask j q next r s₂ hj hs =>
      exact hserve _ _ _ _ _ _ ih (hasks j _ q next (hj ▸ follows hruns j)) hs

end Pool

end Dialogue

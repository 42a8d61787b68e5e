import Oblivia.Lib.Quorum
import Mathlib.Algebra.Order.BigOperators.Group.Finset
/-!
# Ledgers

A ledger registers items, takes the keys that sign them, and opens agreements, each a quorum of
keys that signed the item it is about. What it holds is a function of the events so far
(`Runs.mem_registered` and its siblings), and which event may come next is one too
(`Runs.step_iff`).
-/

namespace Ledger

/-- What a ledger admits, and the terms of the agreements it opens. -/
structure Rules (H A : Type*) where
  admits : H → Prop
  about : A → H
  threshold : A → ℕ
  valid : A → Prop
  positive : ∀ a, valid a → 0 < threshold a

inductive Event (H A K : Type*)
  | register (h : H)
  | create (a : A)
  | sign (h : H) (k : K)
  | count (a : A) (k : K)
  deriving DecidableEq

end Ledger

/-- Only registered items are signed or agreed about, and only keys that signed the item of an
agreement are counted for it. -/
structure Ledger {H A : Type*} (R : Ledger.Rules H A) (K : Type*) where
  registered : Finset H
  signed : H → Finset K
  agreements : A → Option (Quorum K)
  signed_registered : ∀ h k, k ∈ signed h → h ∈ registered
  about_registered : ∀ a q, agreements a = some q → R.about a ∈ registered
  threshold_eq : ∀ a q, agreements a = some q → q.threshold = R.threshold a
  counted_signed : ∀ a q, agreements a = some q → ∀ k ∈ q.keys, k ∈ signed (R.about a)

namespace Ledger

variable {H A K : Type*} {R : Rules H A}

def empty : Ledger R K where
  registered := ∅
  signed _ := ∅
  agreements _ := none
  signed_registered _ _ h := absurd h (Finset.notMem_empty _)
  about_registered _ _ h := by cases h
  threshold_eq _ _ h := by cases h
  counted_signed _ _ h := by cases h

def register [DecidableEq H] (L : Ledger R K) (h : H) : Ledger R K where
  registered := insert h L.registered
  signed := L.signed
  agreements := L.agreements
  signed_registered x k hk := Finset.mem_insert_of_mem (L.signed_registered x k hk)
  about_registered a q hq := Finset.mem_insert_of_mem (L.about_registered a q hq)
  threshold_eq := L.threshold_eq
  counted_signed := L.counted_signed

def create [DecidableEq A] (L : Ledger R K) (a : A) (hv : R.valid a)
    (hr : R.about a ∈ L.registered) : Ledger R K where
  registered := L.registered
  signed := L.signed
  agreements := Function.update L.agreements a (some (.opened (R.threshold a) (R.positive a hv)))
  signed_registered := L.signed_registered
  about_registered b q hq := by
    by_cases hb : b = a
    · rwa [hb]
    · rw [Function.update_of_ne hb] at hq
      exact L.about_registered b q hq
  threshold_eq b q hq := by
    by_cases hb : b = a
    · subst hb
      rw [Function.update_self, Option.some.injEq] at hq
      rw [← hq, Quorum.opened]
    · rw [Function.update_of_ne hb] at hq
      exact L.threshold_eq b q hq
  counted_signed b q hq k hk := by
    by_cases hb : b = a
    · subst hb
      rw [Function.update_self, Option.some.injEq] at hq
      rw [← hq, Quorum.opened] at hk
      exact absurd hk (Finset.notMem_empty k)
    · rw [Function.update_of_ne hb] at hq
      exact L.counted_signed b q hq k hk

def sign [DecidableEq H] [DecidableEq K] (L : Ledger R K) (h : H) (k : K)
    (hr : h ∈ L.registered) : Ledger R K where
  registered := L.registered
  signed := Function.update L.signed h (insert k (L.signed h))
  agreements := L.agreements
  signed_registered x k' hk := by
    by_cases hx : x = h
    · rwa [hx]
    · rw [Function.update_of_ne hx] at hk
      exact L.signed_registered x k' hk
  about_registered := L.about_registered
  threshold_eq := L.threshold_eq
  counted_signed a q hq k' hk := by
    have hs := L.counted_signed a q hq k' hk
    by_cases ha : R.about a = h
    · rw [ha, Function.update_self]
      exact Finset.mem_insert_of_mem (ha ▸ hs)
    · rwa [Function.update_of_ne ha]

def count [DecidableEq A] [DecidableEq K] (L : Ledger R K) (a : A) (k : K) {q q' : Quorum K}
    (hq : L.agreements a = some q) (hk : k ∈ L.signed (R.about a)) (hs : q.sign k = some q') :
    Ledger R K where
  registered := L.registered
  signed := L.signed
  agreements := Function.update L.agreements a (some q')
  signed_registered := L.signed_registered
  about_registered b p hp := by
    by_cases hb : b = a
    · rw [hb]
      exact L.about_registered a q hq
    · rw [Function.update_of_ne hb] at hp
      exact L.about_registered b p hp
  threshold_eq b p hp := by
    by_cases hb : b = a
    · subst hb
      rw [Function.update_self, Option.some.injEq] at hp
      rw [← hp, (Quorum.sign_eq_some.1 hs).2.2.1]
      exact L.threshold_eq b q hq
    · rw [Function.update_of_ne hb] at hp
      exact L.threshold_eq b p hp
  counted_signed b p hp k' hk' := by
    by_cases hb : b = a
    · subst hb
      rw [Function.update_self, Option.some.injEq] at hp
      rw [← hp, (Quorum.sign_eq_some.1 hs).2.2.2, Finset.mem_insert] at hk'
      rcases hk' with rfl | hk'
      · exact hk
      · exact L.counted_signed b q hq k' hk'
    · rw [Function.update_of_ne hb] at hp
      exact L.counted_signed b p hp k' hk'

/-- The number of signatures, of all items. -/
def signatures (L : Ledger R K) : ℕ := ∑ h ∈ L.registered, (L.signed h).card

section Fields

variable {L : Ledger R K} {h : H} {a : A} {k : K}

theorem signed_eq_empty (hn : h ∉ L.registered) : L.signed h = ∅ :=
  Finset.eq_empty_of_forall_notMem fun k hk => hn (L.signed_registered h k hk)

theorem card_signed_le (hh : h ∈ L.registered) : (L.signed h).card ≤ L.signatures :=
  Finset.single_le_sum (fun x _ => Nat.zero_le (L.signed x).card) hh

section Register

variable [DecidableEq H]

@[simp] theorem registered_register : (L.register h).registered = insert h L.registered := rfl

@[simp] theorem signed_register : (L.register h).signed = L.signed := rfl

@[simp] theorem agreements_register : (L.register h).agreements = L.agreements := rfl

theorem signatures_register (hn : h ∉ L.registered) :
    (L.register h).signatures = L.signatures := by
  rw [signatures, registered_register, Finset.sum_insert hn, signed_register, signed_eq_empty hn,
    Finset.card_empty, zero_add, signatures]

end Register

section Sign

variable [DecidableEq H] [DecidableEq K] {hr : h ∈ L.registered}

@[simp] theorem registered_sign : (L.sign h k hr).registered = L.registered := rfl

@[simp] theorem signed_sign :
    (L.sign h k hr).signed = Function.update L.signed h (insert k (L.signed h)) := rfl

@[simp] theorem agreements_sign : (L.sign h k hr).agreements = L.agreements := rfl

theorem signatures_sign (hn : k ∉ L.signed h) :
    (L.sign h k hr).signatures = L.signatures + 1 := by
  have hrest : ∑ x ∈ L.registered.erase h, ((L.sign h k hr).signed x).card
      = ∑ x ∈ L.registered.erase h, (L.signed x).card :=
    Finset.sum_congr rfl fun x hx => by
      rw [signed_sign, Function.update_of_ne (Finset.ne_of_mem_erase hx)]
  rw [signatures, signatures, registered_sign, ← Finset.add_sum_erase _ _ hr, hrest,
    ← Finset.add_sum_erase _ (fun x => (L.signed x).card) hr, signed_sign, Function.update_self,
    Finset.card_insert_of_notMem hn, Nat.add_right_comm]

end Sign

section Create

variable [DecidableEq A] {hv : R.valid a} {ha : R.about a ∈ L.registered}

@[simp] theorem registered_create : (L.create a hv ha).registered = L.registered := rfl

@[simp] theorem signed_create : (L.create a hv ha).signed = L.signed := rfl

@[simp] theorem agreements_create : (L.create a hv ha).agreements =
    Function.update L.agreements a (some (.opened (R.threshold a) (R.positive a hv))) := rfl

end Create

section Count

variable [DecidableEq A] [DecidableEq K] {q q' : Quorum K} {hq : L.agreements a = some q}
  {hk : k ∈ L.signed (R.about a)} {hs : q.sign k = some q'}

@[simp] theorem registered_count : (L.count a k hq hk hs).registered = L.registered := rfl

@[simp] theorem signed_count : (L.count a k hq hk hs).signed = L.signed := rfl

@[simp] theorem agreements_count :
    (L.count a k hq hk hs).agreements = Function.update L.agreements a (some q') := rfl

end Count

end Fields

variable [DecidableEq H] [DecidableEq A] [DecidableEq K]

/-- The events a ledger takes. -/
inductive Step (L : Ledger R K) : Event H A K → Ledger R K → Prop
  | register {h : H} (ha : R.admits h) (hn : h ∉ L.registered) : Step L (.register h) (L.register h)
  | create {a : A} (hv : R.valid a) (hr : R.about a ∈ L.registered) (hn : L.agreements a = none) :
      Step L (.create a) (L.create a hv hr)
  | sign {h : H} {k : K} (hr : h ∈ L.registered) (hn : k ∉ L.signed h) :
      Step L (.sign h k) (L.sign h k hr)
  | count {a : A} {k : K} {q q' : Quorum K} (hq : L.agreements a = some q)
      (hk : k ∈ L.signed (R.about a)) (hs : q.sign k = some q') :
      Step L (.count a k) (L.count a k hq hk hs)

inductive Runs (L : Ledger R K) : List (Event H A K) → Ledger R K → Prop
  | nil : Runs L [] L
  | snoc {es : List (Event H A K)} {e : Event H A K} {L' L'' : Ledger R K} (h : Runs L es L')
      (hs : Step L' e L'') : Runs L (es ++ [e]) L''

/-- How many keys were counted for the agreement. -/
def counted (a : A) (es : List (Event H A K)) : ℕ :=
  es.countP fun e => match e with
    | .count b _ => decide (b = a)
    | _ => false

variable (R) in
/-- What the events so far ask of the next one. -/
def Allowed (es : List (Event H A K)) : Event H A K → Prop
  | .register h => R.admits h ∧ .register h ∉ es
  | .create a => R.valid a ∧ .register (R.about a) ∈ es ∧ .create a ∉ es
  | .sign h k => .register h ∈ es ∧ .sign h k ∉ es
  | .count a k => .create a ∈ es ∧ .sign (R.about a) k ∈ es ∧ .count a k ∉ es
      ∧ counted a es < R.threshold a

variable {L L' : Ledger R K} {es : List (Event H A K)} {e : Event H A K}

section History

variable (hr : Runs empty es L)
include hr

theorem Runs.mem_registered {h : H} : h ∈ L.registered ↔ .register h ∈ es := by
  induction hr with
  | nil => simp [empty]
  | snoc _ hs ih => cases hs <;> simp [ih, or_comm]

theorem Runs.mem_signed {h : H} {k : K} : k ∈ L.signed h ↔ .sign h k ∈ es := by
  induction hr with
  | nil => simp [empty]
  | snoc _ hs ih =>
    cases hs with
    | @sign h' k' _ _ =>
      by_cases hh : h = h'
      · subst hh
        simp [ih, or_comm]
      · simp [ih, hh]
    | _ => simp [ih]

theorem Runs.agreements_eq_none {a : A} : L.agreements a = none ↔ .create a ∉ es := by
  induction hr with
  | nil => simp [empty]
  | snoc _ hs ih =>
    cases hs with
    | @create b _ _ _ =>
      by_cases hb : a = b
      · subst hb
        simp
      · simp [ih, hb]
    | @count b _ q _ hq _ _ =>
      by_cases hb : a = b
      · subst hb
        rw [hq] at ih
        simpa using ih
      · simp [ih, hb]
    | _ => simp [ih]

theorem Runs.mem_keys {a : A} {k : K} :
    (∃ q, L.agreements a = some q ∧ k ∈ q.keys) ↔ .count a k ∈ es := by
  induction hr with
  | nil => simp [empty]
  | snoc _ hs ih =>
    cases hs with
    | @create b _ _ hn =>
      by_cases hb : a = b
      · subst hb
        simp [Quorum.opened, ← ih, hn]
      · simp [← ih, hb]
    | @count b k' q q' hq _ hs =>
      by_cases hb : a = b
      · subst hb
        simp [← ih, hq, (Quorum.sign_eq_some.1 hs).2.2.2, or_comm]
      · simp [← ih, hb]
    | _ => simp [← ih]

theorem Runs.card_keys {a : A} {q : Quorum K} (hq : L.agreements a = some q) :
    q.keys.card = counted a es := by
  induction hr generalizing q with
  | nil => cases hq
  | @snoc es _ _ _ hr' hs ih =>
    cases hs with
    | @create b _ _ hn =>
      by_cases hb : a = b
      · subst hb
        rw [agreements_create, Function.update_self, Option.some.injEq] at hq
        subst hq
        have hz : counted a es = 0 := by
          rw [counted, List.countP_eq_zero]
          rintro (_ | _ | _ | ⟨c, k⟩) he
          all_goals simp only [Bool.false_eq_true, not_false_eq_true, decide_eq_true_eq]
          rintro rfl
          obtain ⟨q, hq, -⟩ := hr'.mem_keys.2 he
          rw [hn] at hq
          cases hq
        simp only [counted] at hz ⊢
        simp [Quorum.opened, hz]
      · rw [agreements_create, Function.update_of_ne hb] at hq
        rw [ih hq]
        simp [counted]
    | @count b k' p p' hp _ hs =>
      by_cases hb : a = b
      · subst hb
        rw [agreements_count, Function.update_self, Option.some.injEq] at hq
        subst hq
        obtain ⟨hk, -, -, hkeys⟩ := Quorum.sign_eq_some.1 hs
        rw [hkeys, Finset.card_insert_of_notMem hk, ih hp]
        simp [counted]
      · rw [agreements_count, Function.update_of_ne hb] at hq
        rw [ih hq]
        simp [counted, Ne.symm hb]
    | register =>
      rw [ih (q := q) hq]
      simp [counted]
    | sign =>
      rw [ih (q := q) hq]
      simp [counted]

theorem Runs.card_registered_le : L.registered.card ≤ es.length := by
  induction hr with
  | nil => simp [empty]
  | snoc _ hs ih =>
    rw [List.length_append, List.length_singleton]
    cases hs with
    | register _ hn =>
      rw [registered_register, Finset.card_insert_of_notMem hn]
      exact Nat.succ_le_succ ih
    | _ => exact Nat.le_succ_of_le ih

theorem Runs.signatures_le : L.signatures ≤ es.length := by
  induction hr with
  | nil => simp [empty, signatures]
  | snoc _ hs ih =>
    rw [List.length_append, List.length_singleton]
    cases hs with
    | register _ hn =>
      rw [signatures_register hn]
      exact Nat.le_succ_of_le ih
    | sign _ hn =>
      rw [signatures_sign hn]
      exact Nat.succ_le_succ ih
    | _ => exact Nat.le_succ_of_le ih

/-- What may come next depends on the events so far alone. -/
theorem Runs.step_iff : (∃ L', Step L e L') ↔ Allowed R es e := by
  cases e with
  | register h =>
    rw [Allowed, ← hr.mem_registered]
    exact ⟨fun ⟨_, hs⟩ => by cases hs with | register ha hn => exact ⟨ha, hn⟩,
      fun ⟨ha, hn⟩ => ⟨_, .register ha hn⟩⟩
  | create a =>
    rw [Allowed, ← hr.mem_registered, ← hr.agreements_eq_none]
    exact ⟨fun ⟨_, hs⟩ => by cases hs with | create hv hr hn => exact ⟨hv, hr, hn⟩,
      fun ⟨hv, hr, hn⟩ => ⟨_, .create hv hr hn⟩⟩
  | sign h k =>
    rw [Allowed, ← hr.mem_registered, ← hr.mem_signed]
    exact ⟨fun ⟨_, hs⟩ => by cases hs with | sign hr hn => exact ⟨hr, hn⟩,
      fun ⟨hr, hn⟩ => ⟨_, .sign hr hn⟩⟩
  | count a k =>
    rw [Allowed, ← hr.mem_signed, ← hr.mem_keys, ← not_not (a := _ ∈ es), ← hr.agreements_eq_none]
    constructor
    · rintro ⟨_, hs⟩
      cases hs with
      | @count _ _ q q' hq hk hs =>
        obtain ⟨hn, hc, -⟩ := Quorum.sign_eq_some.1 hs
        refine ⟨by simp [hq], hk, fun ⟨p, hp, hkp⟩ => ?_, ?_⟩
        · rw [hq, Option.some.injEq] at hp
          exact hn (hp ▸ hkp)
        · rw [← hr.card_keys hq, ← L.threshold_eq a q hq]
          exact lt_of_le_of_ne q.bounded hc
    · rintro ⟨hne, hk, hn, hlt⟩
      obtain ⟨q, hq⟩ := Option.ne_none_iff_exists'.1 hne
      rw [← hr.card_keys hq, ← L.threshold_eq a q hq] at hlt
      rcases hs : q.sign k with _ | q'
      · rcases Quorum.sign_eq_none.1 hs with h | h
        · exact absurd ⟨q, hq, h⟩ hn
        · exact absurd h hlt.ne
      · exact ⟨_, .count hq hk hs⟩

end History

end Ledger

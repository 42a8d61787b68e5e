import Mathlib.Computability.Language
import Mathlib.Tactic.Common
/-!
# Regular expressions

Expressions with character classes, bounded repetition, anchors and a lookahead, and what a matcher
may leave of a text behind each of them. An expression without anchors and lookaheads reads the
words of a language (`Reads`), with one rule for each construct; an expression between both anchors
then matches the words of its language, and nothing else.
-/

inductive Regex (α : Type*)
  /-- `^` -/
  | start
  /-- `$` -/
  | finish
  /-- A character of a class. -/
  | one (p : α → Bool)
  | seq (r s : Regex α)
  /-- `(?=r)` -/
  | lookahead (r : Regex α)
  /-- `r{lo,hi}` -/
  | times (r : Regex α) (lo hi : ℕ)
  /-- `r{lo,}` -/
  | atLeast (r : Regex α) (lo : ℕ)

namespace Regex

variable {α : Type*}

/-- What is left of a text by up to `k` readers in a row. -/
def upTo (f : List α → List (List α)) : ℕ → List α → List (List α)
  | 0, l => [l]
  | k + 1, l => l :: (f l).flatMap (upTo f k)

/-- What is left by `lo` readers in a row, and up to `extra` more. -/
def repeated (f : List α → List (List α)) (extra : ℕ) : ℕ → List α → List (List α)
  | 0, l => upTo f extra l
  | lo + 1, l => (f l).flatMap (repeated f extra lo)

/-- What a match may leave of the end `l` of a text of length `n`. -/
def rests (n : ℕ) : Regex α → List α → List (List α)
  | start, l => if l.length = n then [l] else []
  | finish, l => if l.isEmpty then [l] else []
  | one p, l => match l with
    | a :: l => if p a then [l] else []
    | [] => []
  | seq r s, l => (rests n r l).flatMap (rests n s)
  | lookahead r, l => if (rests n r l).isEmpty then [] else [l]
  | times r lo hi, l => repeated (rests n r) (hi - lo) lo l
  -- what reads nothing more often changes nothing
  | atLeast r lo, l => repeated (rests n r) l.length lo l

/-- `r.test(s)`: there is a match somewhere. -/
def test (r : Regex α) (s : List α) : Bool :=
  s.tails.any fun l => !(rests s.length r l).isEmpty

/-- Reads the words of a language, and leaves what comes behind. -/
def Reads (f : List α → List (List α)) (L : Language α) : Prop :=
  ∀ l l', l' ∈ f l ↔ ∃ w ∈ L, l = w ++ l'

/-- The words of one character of a class. -/
def oneOf (p : α → Bool) : Language α := {w | ∃ a, p a = true ∧ w = [a]}

/-- Between `lo` and `hi` words in a row. -/
def between (L : Language α) (lo hi : ℕ) : Language α := {w | ∃ k, lo ≤ k ∧ k ≤ hi ∧ w ∈ L ^ k}

/-- At least `lo` words in a row. -/
def fromOn (L : Language α) (lo : ℕ) : Language α := {w | ∃ k, lo ≤ k ∧ w ∈ L ^ k}

section Reads

variable {n k lo hi extra : ℕ} {r s : Regex α} {L M : Language α} {f : List α → List (List α)}
  {p : α → Bool} {w : List α}

theorem mem_oneOf : w ∈ oneOf p ↔ ∃ a, p a = true ∧ w = [a] := Iff.rfl

theorem mem_between : w ∈ between L lo hi ↔ ∃ k, lo ≤ k ∧ k ≤ hi ∧ w ∈ L ^ k := Iff.rfl

/-- A repeated class: so many characters of it. -/
theorem mem_oneOf_pow : ∀ {k : ℕ} {w : List α},
    w ∈ oneOf p ^ k ↔ w.length = k ∧ ∀ a ∈ w, p a = true
  | 0, w => by
    rw [pow_zero, Language.mem_one, List.length_eq_zero_iff]
    refine ⟨?_, And.left⟩
    rintro rfl
    simp
  | k + 1, w => by
    rw [pow_succ', Language.mem_mul]
    constructor
    · rintro ⟨_, ⟨a, ha, rfl⟩, w', hw', rfl⟩
      obtain ⟨hlength, hall⟩ := mem_oneOf_pow.1 hw'
      simpa [ha, hlength] using hall
    · rintro ⟨hlength, hall⟩
      rcases w with _ | ⟨a, w⟩
      · simp at hlength
      · refine ⟨[a], ⟨a, hall a (by simp), rfl⟩, w, mem_oneOf_pow.2 ⟨?_, ?_⟩, rfl⟩
        · simpa using hlength
        · exact fun b hb => hall b (by simp [hb])

theorem reads_one : Reads (rests n (one p)) (oneOf p) := by
  intro l l'
  rcases l with _ | ⟨a, l⟩
  · simp [rests, mem_oneOf]
  · by_cases ha : p a = true
    · simp only [rests, ha, if_true, List.mem_singleton, mem_oneOf]
      constructor
      · rintro rfl
        exact ⟨[a], ⟨a, ha, rfl⟩, rfl⟩
      · rintro ⟨_, ⟨b, -, rfl⟩, heq⟩
        exact (List.cons.inj heq).2.symm
    · rw [rests, if_neg ha, List.mem_nil_iff, false_iff]
      rintro ⟨_, ⟨b, hb, rfl⟩, heq⟩
      rw [(List.cons.inj heq).1] at ha
      exact ha hb

theorem reads_flatMap {g : List α → List (List α)} (hf : Reads f L) (hg : Reads g M) :
    Reads (fun l => (f l).flatMap g) (L * M) := by
  intro l l'
  simp only [List.mem_flatMap, hf l, hg _ l', Language.mem_mul]
  constructor
  · rintro ⟨m, ⟨v, hv, rfl⟩, w, hw, rfl⟩
    exact ⟨v ++ w, ⟨v, hv, w, hw, rfl⟩, by simp⟩
  · rintro ⟨_, ⟨v, hv, w, hw, rfl⟩, rfl⟩
    exact ⟨w ++ l', ⟨v, hv, by simp⟩, w, hw, rfl⟩

theorem Reads.seq (hr : Reads (rests n r) L) (hs : Reads (rests n s) M) :
    Reads (rests n (r.seq s)) (L * M) := reads_flatMap hr hs

theorem mem_between_succ :
    w ∈ between L (lo + 1) (hi + 1) ↔ w ∈ L * between L lo hi := by
  rw [Language.mem_mul]
  constructor
  · rintro ⟨k, hlo, hhi, hw⟩
    obtain ⟨k, rfl⟩ : ∃ j, k = j + 1 := ⟨k - 1, by omega⟩
    rw [pow_succ', Language.mem_mul] at hw
    obtain ⟨a, ha, b, hb, rfl⟩ := hw
    exact ⟨a, ha, b, ⟨k, by omega, by omega, hb⟩, rfl⟩
  · rintro ⟨a, ha, b, ⟨k, hlo, hhi, hb⟩, rfl⟩
    exact ⟨k + 1, by omega, by omega, by
      rw [pow_succ']
      exact Language.append_mem_mul ha hb⟩

theorem mem_between_zero :
    w ∈ between L 0 (hi + 1) ↔ w = [] ∨ w ∈ L * between L 0 hi := by
  rw [← mem_between_succ]
  constructor
  · rintro ⟨k, hlo, hhi, hw⟩
    rcases k with _ | k
    · exact .inl (by simpa using hw)
    · exact .inr ⟨k + 1, by omega, hhi, hw⟩
  · rintro (rfl | ⟨k, hlo, hhi, hw⟩)
    · exact ⟨0, le_rfl, by omega, by simp⟩
    · exact ⟨k, by omega, hhi, hw⟩

theorem reads_upTo (hf : Reads f L) : ∀ {k : ℕ}, Reads (upTo f k) (between L 0 k)
  | 0 => fun l l' => by
    simp [upTo, mem_between, eq_comm]
  | k + 1 => fun l l' => by
    rw [upTo, List.mem_cons, reads_flatMap hf (reads_upTo hf) l l']
    simp only [mem_between_zero, or_and_right, exists_or, exists_eq_left, List.nil_append]
    exact or_congr eq_comm Iff.rfl

theorem reads_repeated (hf : Reads f L) : ∀ {lo : ℕ},
    Reads (repeated f extra lo) (between L lo (lo + extra))
  | 0 => fun l l' => by
    rw [repeated, reads_upTo hf l l', Nat.zero_add]
  | lo + 1 => fun l l' => by
    rw [repeated, reads_flatMap hf (reads_repeated hf) l l', Nat.add_right_comm]
    simp only [mem_between_succ]

theorem Reads.times (hr : Reads (rests n r) L) (h : lo ≤ hi) :
    Reads (rests n (r.times lo hi)) (between L lo hi) := by
  have hrepeated : Reads (repeated (rests n r) (hi - lo) lo) (between L lo (lo + (hi - lo))) :=
    reads_repeated hr
  rwa [Nat.add_sub_cancel' h] at hrepeated

/-- Words that are not empty are as many as their characters, at most. -/
theorem length_ge_of_mem_pow (hL : [] ∉ L) : ∀ {k : ℕ} {w : List α}, w ∈ L ^ k → k ≤ w.length
  | 0, _, _ => Nat.zero_le _
  | k + 1, w, hw => by
    rw [pow_succ', Language.mem_mul] at hw
    obtain ⟨a, ha, b, hb, rfl⟩ := hw
    have hpos : 0 < a.length := List.length_pos_of_ne_nil fun hnil => hL (hnil ▸ ha)
    have hle := length_ge_of_mem_pow hL hb
    rw [List.length_append]
    omega

theorem Reads.atLeast (hr : Reads (rests n r) L) (hL : [] ∉ L) :
    Reads (rests n (r.atLeast lo)) (fromOn L lo) := by
  intro l l'
  rw [rests, reads_repeated hr l l']
  constructor
  · rintro ⟨w, ⟨k, hlo, -, hw⟩, rfl⟩
    exact ⟨w, ⟨k, hlo, hw⟩, rfl⟩
  · rintro ⟨w, ⟨k, hlo, hw⟩, rfl⟩
    have hle := length_ge_of_mem_pow hL hw
    exact ⟨w, ⟨k, hlo, by rw [List.length_append]; omega, hw⟩, rfl⟩

end Reads

section Test

variable {n : ℕ} {r t : Regex α} {L : Language α} {s l : List α}

/-- An expression in front of the end matches the words of its language. -/
theorem rests_finish (h : Reads (rests n r) L) :
    rests n (r.seq finish) l ≠ [] ↔ l ∈ L := by
  constructor
  · intro hne
    obtain ⟨l', hl'⟩ := List.exists_mem_of_ne_nil _ hne
    simp only [rests, List.mem_flatMap, h l] at hl'
    obtain ⟨m, ⟨w, hw, rfl⟩, hm⟩ := hl'
    have hnil : m = [] := by
      by_contra hne
      simp [hne] at hm
    rw [hnil, List.append_nil]
    exact hw
  · intro hl
    refine List.ne_nil_of_mem (a := []) ?_
    simp only [rests, List.mem_flatMap, h l]
    exact ⟨[], ⟨l, hl, (List.append_nil l).symm⟩, by simp⟩

theorem rests_lookahead :
    rests n ((lookahead r).seq t) l ≠ [] ↔ rests n r l ≠ [] ∧ rests n t l ≠ [] := by
  by_cases hr : rests n r l = []
  · simp [rests, hr]
  · simp [rests, hr]

/-- An expression behind the start matches the whole text. -/
theorem test_start : (start.seq r).test s = true ↔ rests s.length r s ≠ [] := by
  have hrests (l : List α) : rests s.length (start.seq r) l
      = if l.length = s.length then rests s.length r l else [] := by
    by_cases hl : l.length = s.length
    · simp [rests, hl]
    · simp [rests, hl]
  simp only [test, List.any_eq_true, List.mem_tails, hrests]
  constructor
  · rintro ⟨l, hsuffix, hl⟩
    by_cases hlength : l.length = s.length
    · rw [hsuffix.eq_of_length hlength] at hl
      simpa using hl
    · simp [hlength] at hl
  · intro hs
    exact ⟨s, List.suffix_rfl, by simpa using hs⟩

end Test

end Regex

import Mathlib.Data.List.DropRight
import Oblivia.Lib.Regex
import Oblivia.Lib.Utf16
/-!
# The domain of passkeys

A passkey is asked for only on a page of the configured domain: its labels are the last labels of
the host. The configured domain is checked with a regular expression, and the host with a test of
its end; both say what they are meant to say, for every text (`test_domain`, `endsWith_iff`). So
the check that a page makes is described without them (`checkPasskeyDomain_configured`,
`checkPasskeyDomain_unconfigured`).
-/

namespace Oblivia

/-- What a field of the configuration may hold: nothing, a flag, a text, or anything else, which
counts as true or not and is some text when it is made one. -/
inductive ConfigValue
  | absent
  | flag (b : Bool)
  | text (s : Utf16)
  | other (truthy : Bool) (s : Utf16)

structure PasskeyConfig where
  rpId : ConfigValue
  testMode : ConfigValue

structure PasskeyOptions where
  rpId : Option Utf16
  temporary : Bool
  deriving DecidableEq

namespace Passkey

def ofText (s : String) : Utf16 := Utf16.ofChars s.toList

/-- `String(value || '')`. -/
def textOr : ConfigValue → Utf16
  | .flag true => ofText "true"
  | .text s => s
  | .other true s => s
  | _ => []

/-- White space and line terminators. -/
def isSpace (u : UInt16) : Bool :=
  0x09 ≤ u && u ≤ 0x0D || u == 0x20 || u == 0xA0 || u == 0x1680 || 0x2000 ≤ u && u ≤ 0x200A
    || u == 0x2028 || u == 0x2029 || u == 0x202F || u == 0x205F || u == 0x3000 || u == 0xFEFF

def trim (s : Utf16) : Utf16 := (s.dropWhile isSpace).rdropWhile isSpace

def localHosts : List Utf16 := ["localhost", "127.0.0.1", "[::1]", "::1"].map ofText

def dot : UInt16 := 0x2E
def hyphen : UInt16 := 0x2D

def isLetter (u : UInt16) : Bool := 0x61 ≤ u && u ≤ 0x7A
def isDigit (u : UInt16) : Bool := 0x30 ≤ u && u ≤ 0x39

/-- `.`: anything but a line terminator. -/
def isAny (u : UInt16) : Bool := !(u == 0x0A || u == 0x0D || u == 0x2028 || u == 0x2029)

/-- `[a-z0-9]`. -/
def isAlnum (u : UInt16) : Bool := isLetter u || isDigit u

/-- `[a-z0-9-]`. -/
def isInner (u : UInt16) : Bool := isAlnum u || u == hyphen

section Pattern

open Regex

/-- `[a-z0-9](?:[a-z0-9-]{0,61}[a-z0-9])?`. -/
def labelPattern : Regex UInt16 :=
  (one isAlnum).seq ((((one isInner).times 0 61).seq (one isAlnum)).times 0 1)

/-- `/^(?=.{1,253}$)([a-z0-9](?:[a-z0-9-]{0,61}[a-z0-9])?\.)+[a-z]{2,63}$/`. -/
def domainPattern : Regex UInt16 :=
  start.seq ((lookahead (((one isAny).times 1 253).seq finish)).seq
    ((((labelPattern.seq (one (· == dot))).atLeast 1).seq ((one isLetter).times 2 63)).seq finish))

end Pattern

variable (toLowerCase : Utf16 → Utf16)

/-- Whether the page on this host may ask for passkeys, and with which domain. -/
def checkPasskeyDomain (config : Option PasskeyConfig) (hostname : Utf16) :
    Except Utf16 PasskeyOptions :=
  let host := toLowerCase hostname
  let rpId := toLowerCase (trim (textOr ((config.map (·.rpId)).getD .absent)))
  if rpId ≠ [] then
    if domainPattern.test rpId = false then
      .error (ofText "Configured passkey domain \"" ++ rpId
        ++ ofText "\" is not a valid domain name")
    else if host ≠ rpId ∧ ¬(dot :: rpId).isSuffixOf host then
      .error (ofText "This page is served from "
        ++ (if host = [] then ofText "an unknown host" else host)
        ++ ofText ", not the passkey domain " ++ rpId
        ++ ofText ". Passkey signing is disabled here.")
    else .ok ⟨some rpId, false⟩
  else if host ∈ localHosts then .ok ⟨none, true⟩
  else match (config.map (·.testMode)).getD .absent with
    | .flag true => .ok ⟨none, true⟩
    | _ => .error (ofText ("No permanent passkey domain is configured for this build. Signers "
        ++ "created here would be tied to a temporary address, so passkey signing is disabled."))

section Labels

variable {α : Type} [DecidableEq α] {a : α} {s t top : List α} {labels : List (List α)}

theorem splitOn_cons_self : (a :: s).splitOn a = [] :: s.splitOn a := by
  simp [List.splitOn_cons_eq_if_modifyHead]

theorem splitOn_cons_of_ne {b : α} (h : b ≠ a) {l : List α} {ls : List (List α)}
    (hs : s.splitOn a = l :: ls) : (b :: s).splitOn a = (b :: l) :: ls := by
  simp [List.splitOn_cons_eq_if_modifyHead, h, hs]

theorem not_mem_of_mem_splitOn : ∀ {s : List α}, ∀ l ∈ s.splitOn a, a ∉ l
  | [], l, hl => by
    rw [List.splitOn_nil, List.mem_singleton] at hl
    simp [hl]
  | b :: s, l, hl => by
    obtain ⟨m, ms, hs⟩ := List.exists_cons_of_ne_nil (List.splitOn_ne_nil a s)
    have ih : ∀ l ∈ m :: ms, a ∉ l := hs ▸ not_mem_of_mem_splitOn
    by_cases hb : b = a
    · subst hb
      rw [splitOn_cons_self, hs] at hl
      rcases List.mem_cons.1 hl with rfl | hl
      · simp
      · exact ih l hl
    · rw [splitOn_cons_of_ne hb hs] at hl
      rcases List.mem_cons.1 hl with rfl | hl
      · simpa [Ne.symm hb] using ih m (by simp)
      · exact ih l (by simp [hl])

theorem splitOn_inj (h : s.splitOn a = t.splitOn a) : s = t := by
  have hs : [a].intercalate (s.splitOn a) = s := List.intercalate_splitOn a
  rw [← hs, h, List.intercalate_splitOn]

/-- The parts of a text are the last parts of another if the texts are the same, or one is the end
of the other behind a separator. -/
theorem splitOn_suffix_iff :
    s.splitOn a <:+ t.splitOn a ↔ s = t ∨ (a :: s) <:+ t := by
  constructor
  · rintro ⟨front, hfront⟩
    by_cases hnil : front = []
    · rw [hnil] at hfront
      exact .inl (splitOn_inj hfront)
    · have hmem : ∀ l ∈ front, a ∉ l := fun l hl =>
        not_mem_of_mem_splitOn l (hfront ▸ List.mem_append_left _ hl)
      refine .inr ⟨[a].intercalate front, splitOn_inj (a := a) ?_⟩
      rw [List.splitOn_append_cons_self, List.splitOn_intercalate a hmem hnil, hfront]
  · rintro (rfl | ⟨front, rfl⟩)
    · exact List.suffix_rfl
    · rw [List.splitOn_append_cons_self]
      exact List.suffix_append _ _

theorem splitOn_flatten : ∀ {labels : List (List α)}, (∀ l ∈ labels, a ∉ l) → a ∉ top →
    ((labels.map (· ++ [a])).flatten ++ top).splitOn a = labels ++ [top]
  | [], _, htop => List.splitOn_eq_singleton htop
  | l :: labels, hlabels, htop => by
    have hrest : ((labels.map (· ++ [a])).flatten ++ top).splitOn a = labels ++ [top] :=
      splitOn_flatten (fun l hl => hlabels l (by simp [hl])) htop
    have hshape : ((l :: labels).map (· ++ [a])).flatten ++ top
        = l ++ a :: ((labels.map (· ++ [a])).flatten ++ top) := by simp
    rw [hshape, List.splitOn_append_cons_self_of_not_mem (hlabels l (by simp)), hrest]
    rfl

/-- What the parts of a text are, from what stands between its separators. -/
theorem splitOn_eq_append :
    s.splitOn a = labels ++ [top] ↔ s = (labels.map (· ++ [a])).flatten ++ top
      ∧ (∀ l ∈ labels, a ∉ l) ∧ a ∉ top := by
  constructor
  · intro h
    have hmem : ∀ l ∈ labels ++ [top], a ∉ l := h ▸ not_mem_of_mem_splitOn
    have hlabels : ∀ l ∈ labels, a ∉ l := fun l hl => hmem l (by simp [hl])
    have htop : a ∉ top := hmem top (by simp)
    exact ⟨splitOn_inj (h.trans (splitOn_flatten hlabels htop).symm), hlabels, htop⟩
  · rintro ⟨rfl, hlabels, htop⟩
    exact splitOn_flatten hlabels htop

end Labels

/-- One to 63 letters, digits or hyphens, with no hyphen at either end. -/
structure IsLabel (l : Utf16) : Prop where
  length : 1 ≤ l.length ∧ l.length ≤ 63
  inner : ∀ u ∈ l, isInner u = true
  head : l.head? ≠ some hyphen
  last : l.getLast? ≠ some hyphen

/-- Two to 63 letters. -/
structure IsTop (l : Utf16) : Prop where
  length : 2 ≤ l.length ∧ l.length ≤ 63
  letters : ∀ u ∈ l, isLetter u = true

/-- At least two labels, the last of them a top one, in at most 253 characters. -/
structure IsDomain (s : Utf16) : Prop where
  length : s.length ≤ 253
  labels : ∃ labels top, s.splitOn dot = labels ++ [top] ∧ labels ≠ []
    ∧ (∀ l ∈ labels, IsLabel l) ∧ IsTop top

section Grammar

open Regex

variable {n k : ℕ} {l w s : Utf16} {u : UInt16}

theorem isAlnum_iff : isAlnum u = true ↔ isInner u = true ∧ u ≠ hyphen := by
  constructor
  · intro h
    refine ⟨by simp [isInner, h], ?_⟩
    rintro rfl
    exact absurd h (by decide)
  · rintro ⟨hinner, hne⟩
    simpa [isInner, hne] using hinner

theorem isAny_of_isInner (h : isInner u = true ∨ u = dot) : isAny u = true := by
  by_contra hany
  have hcases : u = 0x0A ∨ u = 0x0D ∨ u = 0x2028 ∨ u = 0x2029 := by
    simpa [isAny, or_iff_not_imp_left] using hany
  rcases hcases with rfl | rfl | rfl | rfl <;> exact absurd h (by decide)

/-- The words of the pattern of a label. -/
def labelWords : Language UInt16 :=
  oneOf isAlnum * between (between (oneOf isInner) 0 61 * oneOf isAlnum) 0 1

theorem reads_labelPattern : Reads (rests n labelPattern) labelWords :=
  reads_one.seq (((reads_one.times (Nat.zero_le _)).seq reads_one).times (Nat.zero_le _))

theorem mem_labelWords : w ∈ labelWords ↔ IsLabel w := by
  rw [labelWords, Language.mem_mul]
  constructor
  · rintro ⟨_, ⟨c, hc, rfl⟩, v, ⟨k, -, hk, hv⟩, rfl⟩
    have hc' := isAlnum_iff.1 hc
    rcases Nat.le_one_iff_eq_zero_or_eq_one.1 hk with rfl | rfl
    · obtain rfl : v = [] := by simpa using hv
      exact ⟨by simp, by simpa using hc'.1, by simpa using hc'.2, by simpa using hc'.2⟩
    · rw [pow_one, Language.mem_mul] at hv
      obtain ⟨m, ⟨j, -, hj, hm⟩, _, ⟨d, hd, rfl⟩, rfl⟩ := hv
      obtain ⟨hlength, hinner⟩ := mem_oneOf_pow.1 hm
      have hd' := isAlnum_iff.1 hd
      refine ⟨by simp; omega, fun u hu => ?_, by simpa using hc'.2, ?_⟩
      · simp only [List.mem_append, List.mem_singleton] at hu
        rcases hu with rfl | hu | rfl
        · exact hc'.1
        · exact hinner u hu
        · exact hd'.1
      · rw [← List.append_assoc, List.getLast?_concat]
        simpa using hd'.2
  · rintro ⟨⟨hpos, hlength⟩, hinner, hhead, hlast⟩
    rcases w with _ | ⟨c, v⟩
    · simp at hpos
    · have hc : isAlnum c = true := isAlnum_iff.2 ⟨hinner c (by simp), by simpa using hhead⟩
      refine ⟨[c], ⟨c, hc, rfl⟩, v, ?_, rfl⟩
      rcases v.eq_nil_or_concat' with rfl | ⟨m, d, rfl⟩
      · exact ⟨0, le_rfl, by omega, by simp⟩
      · rw [← List.cons_append, List.getLast?_concat] at hlast
        have hd : isAlnum d = true := isAlnum_iff.2 ⟨hinner d (by simp), by simpa using hlast⟩
        have hm : m ∈ between (oneOf isInner) 0 61 := by
          refine ⟨m.length, Nat.zero_le _, ?_, mem_oneOf_pow.2 ⟨rfl, fun u hu => ?_⟩⟩
          · simp only [List.length_cons, List.length_append, List.length_nil] at hlength
            omega
          · exact hinner u (by simp [hu])
        refine ⟨1, Nat.zero_le _, le_rfl, ?_⟩
        rw [pow_one]
        exact Language.append_mem_mul hm ⟨d, hd, rfl⟩

/-- The words of the pattern of a domain. -/
def domainWords : Language UInt16 :=
  fromOn (labelWords * oneOf (· == dot)) 1 * between (oneOf isLetter) 2 63

theorem mem_dotted_pow : ∀ {k : ℕ} {w : Utf16}, w ∈ (labelWords * oneOf (· == dot)) ^ k ↔
    ∃ labels : List Utf16, labels.length = k ∧ (∀ l ∈ labels, IsLabel l)
      ∧ w = (labels.map (· ++ [dot])).flatten
  | 0, w => by
    rw [pow_zero, Language.mem_one]
    constructor
    · rintro rfl
      exact ⟨[], rfl, by simp, rfl⟩
    · rintro ⟨labels, hlength, -, rfl⟩
      simp [List.length_eq_zero_iff.1 hlength]
  | k + 1, w => by
    rw [pow_succ', Language.mem_mul]
    constructor
    · rintro ⟨_, ⟨l, hl, _, ⟨d, hd, rfl⟩, rfl⟩, v, hv, rfl⟩
      obtain ⟨labels, hlength, hlabels, rfl⟩ := mem_dotted_pow.1 hv
      obtain rfl : d = dot := by simpa using hd
      refine ⟨l :: labels, by simp [hlength], ?_, by simp⟩
      exact List.forall_mem_cons.2 ⟨mem_labelWords.1 hl, hlabels⟩
    · rintro ⟨_ | ⟨l, labels⟩, hlength, hlabels, rfl⟩
      · simp at hlength
      · obtain ⟨hl, hlabels⟩ := List.forall_mem_cons.1 hlabels
        refine ⟨l ++ [dot], Language.append_mem_mul (mem_labelWords.2 hl) ⟨dot, by simp, rfl⟩, _,
          mem_dotted_pow.2 ⟨labels, ?_, hlabels, rfl⟩, by simp⟩
        simpa using hlength

theorem mem_topWords : w ∈ between (oneOf isLetter) 2 63 ↔ IsTop w := by
  constructor
  · rintro ⟨k, hlo, hhi, hw⟩
    obtain ⟨rfl, hletters⟩ := mem_oneOf_pow.1 hw
    exact ⟨⟨hlo, hhi⟩, hletters⟩
  · rintro ⟨⟨hlo, hhi⟩, hletters⟩
    exact ⟨w.length, hlo, hhi, mem_oneOf_pow.2 ⟨rfl, hletters⟩⟩

theorem dot_not_mem_label (h : IsLabel l) : dot ∉ l := fun hdot =>
  absurd (h.inner dot hdot) (by decide)

theorem dot_not_mem_top (h : IsTop l) : dot ∉ l := fun hdot =>
  absurd (h.letters dot hdot) (by decide)

theorem mem_domainWords : s ∈ domainWords ↔ ∃ labels top, s.splitOn dot = labels ++ [top]
    ∧ labels ≠ [] ∧ (∀ l ∈ labels, IsLabel l) ∧ IsTop top := by
  rw [domainWords, Language.mem_mul]
  constructor
  · rintro ⟨v, ⟨k, hk, hv⟩, top, htop, rfl⟩
    obtain ⟨labels, rfl, hlabels, rfl⟩ := mem_dotted_pow.1 hv
    rw [mem_topWords] at htop
    refine ⟨labels, top, splitOn_eq_append.2 ⟨rfl, fun l hl => dot_not_mem_label (hlabels l hl),
      dot_not_mem_top htop⟩, List.ne_nil_of_length_pos hk, hlabels, htop⟩
  · rintro ⟨labels, top, hsplit, hne, hlabels, htop⟩
    obtain ⟨rfl, -, -⟩ := splitOn_eq_append.1 hsplit
    exact ⟨_, ⟨labels.length, List.length_pos_of_ne_nil hne,
      mem_dotted_pow.2 ⟨labels, rfl, hlabels, rfl⟩⟩, top, mem_topWords.2 htop, rfl⟩

/-- No round of the repetition reads nothing. -/
theorem not_nil_mem_dotted : [] ∉ labelWords * oneOf (· == dot) := by
  rintro ⟨v, -, _, ⟨d, -, rfl⟩, heq⟩
  simp at heq

theorem isAny_of_mem_domain {labels : List Utf16} {top : Utf16}
    (hsplit : s.splitOn dot = labels ++ [top]) (hlabels : ∀ l ∈ labels, IsLabel l)
    (htop : IsTop top) (hu : u ∈ s) : isAny u = true := by
  obtain ⟨rfl, -, -⟩ := splitOn_eq_append.1 hsplit
  refine isAny_of_isInner ?_
  simp only [List.mem_append, List.mem_flatten, List.mem_map] at hu
  rcases hu with ⟨_, ⟨l, hl, rfl⟩, hu⟩ | hu
  · rcases List.mem_append.1 hu with hu | hu
    · exact .inl ((hlabels l hl).inner u hu)
    · exact .inr (List.mem_singleton.1 hu)
  · exact .inl (by simp [isInner, isAlnum, htop.letters u hu])

theorem test_domain : domainPattern.test s = true ↔ IsDomain s := by
  have hany : Reads (rests s.length ((one isAny).times 1 253)) (between (oneOf isAny) 1 253) :=
    reads_one.times (by decide)
  have hwords : Reads (rests s.length (((labelPattern.seq (one (· == dot))).atLeast 1).seq
      ((one isLetter).times 2 63))) domainWords :=
    ((reads_labelPattern.seq reads_one).atLeast not_nil_mem_dotted).seq
      (reads_one.times (by decide))
  rw [domainPattern, test_start, rests_lookahead, rests_finish hany, rests_finish hwords,
    mem_domainWords]
  constructor
  · rintro ⟨⟨k, -, hk, hs⟩, hlabels⟩
    exact ⟨(mem_oneOf_pow.1 hs).1 ▸ hk, hlabels⟩
  · rintro ⟨hlength, labels, top, hsplit, hne, hlabels, htop⟩
    have hpos : 1 ≤ s.length := by
      by_contra hzero
      obtain rfl : s = [] := List.eq_nil_of_length_eq_zero (by omega)
      have hle := congrArg List.length hsplit
      have hlabel := List.length_pos_of_ne_nil hne
      rw [List.splitOn_nil, List.length_append, List.length_singleton, List.length_singleton] at hle
      omega
    refine ⟨⟨s.length, hpos, hlength, mem_oneOf_pow.2 ⟨rfl, fun u hu => ?_⟩⟩,
      labels, top, hsplit, hne, hlabels, htop⟩
    exact isAny_of_mem_domain hsplit hlabels htop hu

example : domainPattern.test (ofText "a-1.example") = true
    ∧ domainPattern.test (ofText "-a.example") = false
    ∧ domainPattern.test (ofText "localhost") = false
    ∧ domainPattern.test (ofText "a.example\n") = false := by
  decide +kernel

end Grammar

section Policy

variable {toLowerCase : Utf16 → Utf16} {config : Option PasskeyConfig}
  {hostname host rpId : Utf16} {options : PasskeyOptions}

/-- The domain ends the host behind a dot, or is the host, if its labels end those of the host. -/
theorem endsWith_iff : (host ≠ rpId ∧ ¬(dot :: rpId).isSuffixOf host = true)
    ↔ ¬rpId.splitOn dot <:+ host.splitOn dot := by
  rw [splitOn_suffix_iff, List.isSuffixOf_iff_suffix, not_or, ne_comm]

/-- The domain that is configured, if any. -/
def configured (toLowerCase : Utf16 → Utf16) (config : Option PasskeyConfig) : Utf16 :=
  toLowerCase (trim (textOr ((config.map (·.rpId)).getD .absent)))

theorem configured_eq : toLowerCase (trim (textOr ((config.map (·.rpId)).getD .absent)))
    = configured toLowerCase config := rfl

theorem checkPasskeyDomain_configured (h : configured toLowerCase config ≠ []) :
    checkPasskeyDomain toLowerCase config hostname = .ok options
      ↔ (IsDomain (configured toLowerCase config)
          ∧ (configured toLowerCase config).splitOn dot <:+ (toLowerCase hostname).splitOn dot)
        ∧ options = ⟨some (configured toLowerCase config), false⟩ := by
  unfold checkPasskeyDomain
  simp only [configured_eq, if_pos h, endsWith_iff]
  split_ifs with htest hhost
  · have hno : ¬IsDomain (configured toLowerCase config) := by
      rw [← test_domain, htest]
      simp
    simp [hno]
  · have hdomain : IsDomain (configured toLowerCase config) :=
      test_domain.1 (by simpa using htest)
    simp [hdomain, hhost, eq_comm]
  · simp [hhost]

theorem checkPasskeyDomain_unconfigured (h : configured toLowerCase config = []) :
    checkPasskeyDomain toLowerCase config hostname = .ok options
      ↔ (toLowerCase hostname ∈ localHosts ∨ config.map (·.testMode) = some (.flag true))
        ∧ options = ⟨none, true⟩ := by
  unfold checkPasskeyDomain
  simp only [configured_eq, h, ne_eq, not_true_eq_false, if_false]
  split_ifs with hlocal
  · simp [hlocal, eq_comm]
  · rcases config with _ | ⟨_, _ | (_ | _) | _ | _⟩ <;> simp [hlocal, eq_comm]

end Policy

end Passkey

end Oblivia

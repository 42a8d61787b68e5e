import Mathlib.Algebra.Order.Field.Rat
import Mathlib.Data.List.TakeWhile
import Oblivia.Lib.Numerals
import Oblivia.Lib.Rounding
import Oblivia.Lib.Utf16
/-!
# JSON texts

JSON values, the text a value is written as, and the value a text is read as. Numbers are kept as
the literals they are written as, and have the value of the nearest double. A written value reads
back as itself (`parse_stringify`).
-/

namespace Json

section Literal

def numberChar (c : Char) : Bool :=
  c.isDigit || c == '-' || c == '+' || c == '.' || c == 'e' || c == 'E'

def dropSign : List Char → List Char
  | '-' :: l => l
  | l => l

/-- A sign and digits behind the letter, or nothing. -/
def isExponent : List Char → Bool
  | [] => true
  | c :: l =>
    let digits := match l with
      | '+' :: l => l
      | '-' :: l => l
      | l => l
    (c == 'e' || c == 'E') && !digits.isEmpty && digits.all Char.isDigit

/-- The part of a number behind its integer digits. -/
def isFraction : List Char → Bool
  | '.' :: l => !(l.takeWhile Char.isDigit).isEmpty && isExponent (l.dropWhile Char.isDigit)
  | l => isExponent l

/-- The grammar of numbers: no digit 0 in front of others, digits on both sides of the point. -/
def isNumber (l : List Char) : Bool :=
  let int := (dropSign l).takeWhile Char.isDigit
  l.all numberChar && (int == ['0'] || (!int.isEmpty && int.head? != some '0'))
    && isFraction ((dropSign l).dropWhile Char.isDigit)

structure Literal where
  text : List Char
  valid : isNumber text = true
  deriving DecidableEq

def exponent : List Char → ℤ
  | _ :: '-' :: l => -(Numeral.value 10 l : ℤ)
  | _ :: '+' :: l => Numeral.value 10 l
  | _ :: l => Numeral.value 10 l
  | [] => 0

/-- The number without its sign: the digits on both sides of the point, shifted by the exponent. -/
def magnitude (l : List Char) : ℚ :=
  let int := l.takeWhile Char.isDigit
  match l.dropWhile Char.isDigit with
  | '.' :: l =>
    let frac := l.takeWhile Char.isDigit
    Numeral.value 10 (int ++ frac) * 10 ^ (exponent (l.dropWhile Char.isDigit) - frac.length)
  | l => Numeral.value 10 int * 10 ^ exponent l

/-- The double a literal is read as, if it is finite. -/
def Literal.value (x : Literal) : Option ℚ :=
  match Double.ofRat .binary64 (magnitude (dropSign x.text)) with
  | .finite y => some (if x.text.head? = some '-' then -y else y)
  | .infinite => none

/-- The characters of a number up to the first that is none. -/
def Literal.read (l : List Char) : Option (Literal × List Char) :=
  if h : isNumber (l.takeWhile numberChar) = true then
    some (⟨l.takeWhile numberChar, h⟩, l.dropWhile numberChar)
  else none

theorem isDigit_toDigits {n : ℕ} : ∀ c ∈ Nat.toDigits 10 n, c.isDigit = true :=
  fun _ h => Nat.isDigit_of_mem_toDigits (by decide) (by decide) h

theorem head_toDigits {n : ℕ} (hn : 0 < n) : (Nat.toDigits 10 n).head? ≠ some '0' := by
  induction n using Nat.strong_induction_on with
  | _ n ih =>
    rw [Nat.toDigits_eq_if (by decide)]
    split_ifs with h
    · intro he
      have hd : Numeral.digitVal (Nat.digitChar n) = Numeral.digitVal '0' := by
        rw [Option.some.inj he]
      rw [Numeral.digitVal_digitChar (by omega), show Numeral.digitVal '0' = 0 from rfl] at hd
      omega
    · rw [List.head?_append_of_ne_nil _ Nat.toDigits_ne_nil]
      exact ih _ (by omega) (by omega)

theorem dropSign_of_digits {l : List Char} (h : ∀ c ∈ l, c.isDigit = true) : dropSign l = l := by
  unfold dropSign
  split
  · exact absurd (h '-' (by simp)) (by decide)
  · rfl

theorem numberChar_of_digits {l : List Char} (h : ∀ c ∈ l, c.isDigit = true) :
    l.all numberChar = true :=
  List.all_eq_true.2 fun c hc => by simp [numberChar, h c hc]

theorem takeWhile_digits {l : List Char} (h : ∀ c ∈ l, c.isDigit = true) :
    l.takeWhile Char.isDigit = l ∧ l.dropWhile Char.isDigit = [] :=
  ⟨List.takeWhile_eq_self_iff.2 h, List.dropWhile_eq_nil_iff.2 h⟩

def Literal.ofNat (n : ℕ) : Literal where
  text := Nat.toDigits 10 n
  valid := by
    obtain ⟨htake, hdrop⟩ := takeWhile_digits (isDigit_toDigits (n := n))
    rw [isNumber, dropSign_of_digits isDigit_toDigits, htake, hdrop,
      numberChar_of_digits isDigit_toDigits]
    rcases Nat.eq_zero_or_pos n with rfl | hn
    · rfl
    · simp [head_toDigits hn, isFraction, isExponent]

/-- A natural number that doubles hold is read as itself. -/
theorem Literal.value_ofNat {n : ℕ} (hn : n < 2 ^ 53) : (Literal.ofNat n).value = some (n : ℚ) := by
  have hsign : (Nat.toDigits 10 n).head? ≠ some '-' := by
    intro h
    exact absurd (isDigit_toDigits _ (List.mem_of_mem_head? h)) (by decide)
  obtain ⟨htake, hdrop⟩ := takeWhile_digits (isDigit_toDigits (n := n))
  have hmagnitude : magnitude (Nat.toDigits 10 n) = n := by
    simp [magnitude, htake, hdrop, exponent, Numeral.value_toDigits]
  have hread : Double.ofRat .binary64 (magnitude (dropSign (ofNat n).text)) = .finite n := by
    rw [ofNat, dropSign_of_digits isDigit_toDigits, hmagnitude, Double.ofRat_natCast hn]
  rw [value, hread]
  exact congrArg some (if_neg hsign)

theorem Literal.numberChar_of_mem (x : Literal) : ∀ c ∈ x.text, numberChar c = true := by
  have h := x.valid
  simp only [isNumber, Bool.and_eq_true] at h
  exact List.all_eq_true.1 h.1.1

theorem Literal.text_ne_nil (x : Literal) : x.text ≠ [] := by
  intro h
  have hv := x.valid
  rw [h] at hv
  exact absurd hv (by decide)

end Literal

section Strings

/-- The characters written as a backslash and a letter. -/
def shortEscape : Char → Option Char
  | '"' => some '"'
  | '\\' => some '\\'
  | '\x08' => some 'b'
  | '\t' => some 't'
  | '\n' => some 'n'
  | '\x0c' => some 'f'
  | '\r' => some 'r'
  | _ => none

def shortUnescape : Char → Option Char
  | '"' => some '"'
  | '\\' => some '\\'
  | '/' => some '/'
  | 'b' => some '\x08'
  | 't' => some '\t'
  | 'n' => some '\n'
  | 'f' => some '\x0c'
  | 'r' => some '\r'
  | _ => none

def escapeChar (c : Char) : List Char :=
  match shortEscape c with
  | some e => ['\\', e]
  | none =>
    if c.toNat < 32 then ['\\', 'u', '0', '0', Nat.digitChar (c.toNat / 16),
      Nat.digitChar (c.toNat % 16)]
    else [c]

def quote (s : List Char) : List Char := '"' :: s.flatMap escapeChar ++ ['"']

/-- The code unit four hexadecimal digits are. -/
def codeUnit (l : List Char) : Option UInt16 :=
  if Numeral.IsNumeral 16 l then some (UInt16.ofNat (Numeral.value 16 l)) else none

/-- The contents of a string in code units, up to its closing quote. -/
def stringUnits : List Char → Option (Utf16 × List Char)
  | '"' :: l => some ([], l)
  | '\\' :: 'u' :: a :: b :: c :: d :: l => do
    let u ← codeUnit [a, b, c, d]
    let (s, l) ← stringUnits l
    return (u :: s, l)
  | '\\' :: e :: l => do
    let x ← shortUnescape e
    let (s, l) ← stringUnits l
    return (Utf16.ofChar x ++ s, l)
  | c :: l =>
    if c.toNat < 32 ∨ c = '\\' then none
    else do
      let (s, l) ← stringUnits l
      return (Utf16.ofChar c ++ s, l)
  | [] => none

/-- The contents of a string. A text has no place for half of a pair of code units, and takes
U+FFFD for it. -/
def stringBody (l : List Char) : Option (List Char × List Char) :=
  (stringUnits l).map fun (s, l) => (Utf16.chars s, l)

/-- A pair, a half of one, and a letter. -/
example : stringBody "\\ud83d\\ude00\\ud83d\\u0061\"".toList
    = some ([Char.ofNat 0x1F600, Char.ofNat 0xFFFD, 'a'], []) := by decide +kernel

theorem codeUnit_control : ∀ {n : ℕ}, n < 32 →
    codeUnit ['0', '0', Nat.digitChar (n / 16), Nat.digitChar (n % 16)]
      = some (UInt16.ofNat n) := by decide

theorem stringUnits_escapeChar (c : Char) (l : List Char) :
    stringUnits (escapeChar c ++ l)
      = (stringUnits l).map fun p => (Utf16.ofChar c ++ p.1, p.2) := by
  unfold escapeChar
  split
  · rename_i e he
    unfold shortEscape at he
    split at he <;> cases he <;> rcases hl : stringUnits l with _ | ⟨s, l'⟩ <;>
      simp [stringUnits, shortUnescape, hl]
  · rename_i he
    have hquote : c ≠ '"' := fun h => by simp [h, shortEscape] at he
    have hback : c ≠ '\\' := fun h => by simp [h, shortEscape] at he
    split_ifs with hc
    · have hu := codeUnit_control hc
      have hunits : Utf16.ofChar c = [UInt16.ofNat c.toNat] := if_pos (by omega)
      rcases hl : stringUnits l with _ | ⟨s, l'⟩ <;> simp [stringUnits, hu, hunits, hl]
    · rcases hl : stringUnits l with _ | ⟨s, l'⟩ <;> simp [stringUnits, hback, hc, hl]

theorem stringUnits_quote (s l : List Char) :
    stringUnits (s.flatMap escapeChar ++ '"' :: l) = some (Utf16.ofChars s, l) := by
  induction s with
  | nil => simp [stringUnits, Utf16.ofChars]
  | cons c s ih =>
    rw [List.flatMap_cons, List.append_assoc, stringUnits_escapeChar, ih]
    rfl

theorem stringBody_quote (s l : List Char) :
    stringBody (s.flatMap escapeChar ++ '"' :: l) = some (s, l) := by
  rw [stringBody, stringUnits_quote]
  show some (Utf16.chars (Utf16.ofChars s), l) = _
  rw [Utf16.chars_ofChars]

end Strings

end Json

inductive Json
  | null
  | bool (b : Bool)
  | number (x : Json.Literal)
  | string (s : List Char)
  | array (items : List Json)
  | object (fields : List (List Char × Json))

namespace Json

/-- The texts with commas between them and brackets around them. -/
def bracket (opening closing : Char) (texts : List (List Char)) : List Char :=
  opening :: [','].intercalate texts ++ [closing]

mutual

def stringify : Json → List Char
  | null => "null".toList
  | bool true => "true".toList
  | bool false => "false".toList
  | number x => x.text
  | string s => quote s
  | array items => bracket '[' ']' (stringifyItems items)
  | object fields => bracket '{' '}' (stringifyFields fields)

def stringifyItems : List Json → List (List Char)
  | [] => []
  | x :: items => stringify x :: stringifyItems items

def stringifyFields : List (List Char × Json) → List (List Char)
  | [] => []
  | (k, x) :: fields => (quote k ++ ':' :: stringify x) :: stringifyFields fields

end

section Parse

variable {α : Type} (item : List Char → Option (α × List Char)) (closing : Char)

def isWhite (c : Char) : Bool := c == ' ' || c == '\t' || c == '\n' || c == '\r'

def skipWhite (l : List Char) : List Char := l.dropWhile isWhite

/-- At most `n` items with commas between them, up to the closing bracket. -/
def items : ℕ → List Char → Option (List α × List Char)
  | 0, _ => none
  | n + 1, l => do
    let (x, l) ← item l
    match skipWhite l with
    | ',' :: l => do
      let (xs, l) ← items n l
      return (x :: xs, l)
    | c :: l => if c = closing then some ([x], l) else none
    | [] => none

/-- The items behind an opening bracket. -/
def bracketed (l : List Char) : Option (List α × List Char) :=
  match skipWhite l with
  | c :: l' => if c = closing then some ([], l') else items item closing l.length l
  | [] => none

def member (item : List Char → Option (Json × List Char)) (l : List Char) :
    Option ((List Char × Json) × List Char) :=
  match skipWhite l with
  | '"' :: l => do
    let (k, l) ← stringBody l
    match skipWhite l with
    | ':' :: l => do
      let (x, l) ← item l
      return ((k, x), l)
    | _ => none
  | _ => none

/-- A value and the text behind it, brackets nested less than `n` deep. -/
def value : ℕ → List Char → Option (Json × List Char)
  | 0 => fun _ => none
  | n + 1 => fun l => match skipWhite l with
    | '{' :: l => (bracketed (member (value n)) '}' l).map fun (fields, l) => (object fields, l)
    | '[' :: l => (bracketed (value n) ']' l).map fun (xs, l) => (array xs, l)
    | '"' :: l => (stringBody l).map fun (s, l) => (string s, l)
    | 'n' :: 'u' :: 'l' :: 'l' :: l => some (null, l)
    | 't' :: 'r' :: 'u' :: 'e' :: l => some (bool true, l)
    | 'f' :: 'a' :: 'l' :: 's' :: 'e' :: l => some (bool false, l)
    | l => (Literal.read l).map fun (x, l) => (number x, l)

def parse (l : List Char) : Option Json :=
  match value l.length l with
  | some (x, rest) => if skipWhite rest = [] then some x else none
  | none => none

end Parse

/-- The last value an object holds under a name. -/
def field (name : String) : Json → Option Json
  | object fields => fields.reverse.lookup name.toList
  | _ => none

section RoundTrip

/-- What may stand behind a value. -/
def Ends (l : List Char) : Prop := ∀ c ∈ l.head?, c = ',' ∨ c = ']' ∨ c = '}'

/-- What a value may start with. -/
def Starts (l : List Char) : Prop :=
  ∃ c l', l = c :: l' ∧ isWhite c = false ∧ c ≠ ',' ∧ c ≠ ']' ∧ c ≠ '}'

theorem stringifyItems_eq : ∀ l, stringifyItems l = l.map stringify
  | [] => rfl
  | x :: l => by rw [stringifyItems, stringifyItems_eq l, List.map_cons]

theorem stringifyFields_eq : ∀ l,
    stringifyFields l = l.map fun p => quote p.1 ++ ':' :: stringify p.2
  | [] => rfl
  | (k, x) :: l => by rw [stringifyFields, stringifyFields_eq l, List.map_cons]

theorem skipWhite_of_starts {l : List Char} (h : Starts l) : skipWhite l = l := by
  obtain ⟨c, l', rfl, hc, -⟩ := h
  simp [skipWhite, hc]

theorem Starts.append {l : List Char} (h : Starts l) (l' : List Char) : Starts (l ++ l') := by
  obtain ⟨c, m, rfl, hc⟩ := h
  exact ⟨c, m ++ l', rfl, hc⟩

theorem Literal.starts (x : Literal) : Starts x.text := by
  rcases hx : x.text with _ | ⟨c, l⟩
  · exact absurd hx x.text_ne_nil
  · have hc := x.numberChar_of_mem c (by simp [hx])
    refine ⟨c, l, rfl, ?_, ?_, ?_, ?_⟩
    · rcases hw : isWhite c with _ | _
      · rfl
      · simp only [isWhite, Bool.or_eq_true, beq_iff_eq] at hw
        rcases hw with ((rfl | rfl) | rfl) | rfl <;> exact absurd hc (by decide)
    all_goals
      rintro rfl
      exact absurd hc (by decide)

theorem stringify_starts (x : Json) : Starts (stringify x) := by
  cases x with
  | number x =>
    rw [stringify]
    exact x.starts
  | bool b => cases b <;> exact ⟨_, _, rfl, by decide⟩
  | _ => exact ⟨_, _, rfl, by decide⟩

section Items

variable {α : Type} {item : List Char → Option (α × List Char)} {closing : Char}
  {f : α → List Char} {rest : List Char}

theorem items_intercalate (hclosing : closing = ']' ∨ closing = '}') :
    ∀ (xs : List α) (x : α) (n : ℕ), xs.length < n →
      (∀ y ∈ x :: xs, ∀ l, Ends l → item (f y ++ l) = some (y, l)) →
      items item closing n ([','].intercalate ((x :: xs).map f) ++ closing :: rest)
        = some (x :: xs, rest)
  | [], x, n + 1, _, h => by
    have hne : isWhite closing = false ∧ closing ≠ ',' := by
      rcases hclosing with rfl | rfl <;> decide
    have hx := h x (by simp) (closing :: rest) (fun c hc => by
      obtain rfl : closing = c := by simpa using hc
      exact .inr hclosing)
    simp [items, hx, skipWhite, hne]
  | y :: xs, x, n + 1, hn, h => by
    have hx := h x (by simp) (',' :: ([','].intercalate ((y :: xs).map f) ++ closing :: rest))
      (fun c hc => .inl (by simpa using hc.symm))
    have ih := items_intercalate hclosing xs y n (by simpa using hn)
      (fun z hz => h z (List.mem_cons_of_mem x hz))
    have hsplit : [','].intercalate ((x :: y :: xs).map f) ++ closing :: rest
        = f x ++ ',' :: ([','].intercalate ((y :: xs).map f) ++ closing :: rest) := by
      simp [List.intercalate]
    rw [hsplit, items, hx]
    show ((items item closing n _).bind fun p => some (x :: p.1, p.2)) = _
    rw [ih]
    rfl

theorem length_le_intercalate : ∀ {texts : List (List Char)}, (∀ t ∈ texts, t ≠ []) →
    texts.length ≤ ([','].intercalate texts).length
  | [], _ => Nat.zero_le _
  | [t], h => by
    have ht : 0 < t.length := List.length_pos_iff.2 (h t (by simp))
    simpa [Nat.succ_le_iff] using ht
  | t :: t' :: texts, h => by
    have ih : (t' :: texts).length ≤ _ :=
      length_le_intercalate fun u hu => h u (List.mem_cons_of_mem t hu)
    rw [List.intercalate_cons_cons]
    simp only [List.length_append, List.length_cons, List.length_nil] at ih ⊢
    omega

theorem length_le_of_mem_intercalate {t : List Char} : ∀ {texts : List (List Char)}, t ∈ texts →
    t.length ≤ ([','].intercalate texts).length
  | [u], h => by simp_all
  | u :: u' :: texts, h => by
    rw [List.intercalate_cons_cons]
    simp only [List.length_append]
    rcases List.mem_cons.1 h with rfl | h
    · omega
    · have ih : t.length ≤ _ := length_le_of_mem_intercalate h
      omega

/-- Items written in brackets are read back. -/
theorem bracketed_intercalate (hclosing : closing = ']' ∨ closing = '}') {xs : List α}
    (hstart : ∀ x ∈ xs, Starts (f x))
    (h : ∀ x ∈ xs, ∀ l, Ends l → item (f x ++ l) = some (x, l)) :
    bracketed item closing ([','].intercalate (xs.map f) ++ closing :: rest) = some (xs, rest) := by
  rcases xs with _ | ⟨x, xs⟩
  · have hwhite : isWhite closing = false := by rcases hclosing with rfl | rfl <;> rfl
    simp [bracketed, skipWhite, hwhite]
  · have htexts : ∀ t ∈ (x :: xs).map f, t ≠ [] := by
      intro t ht
      obtain ⟨y, hy, rfl⟩ := List.mem_map.1 ht
      obtain ⟨c, l, hl, -⟩ := hstart y hy
      simp [hl]
    have hlen : xs.length < ([','].intercalate ((x :: xs).map f) ++ closing :: rest).length := by
      have hle := length_le_intercalate htexts
      simp only [List.length_map, List.length_cons, List.length_append] at hle ⊢
      omega
    have hitems : items item closing _ (_ ++ closing :: rest) = _ :=
      items_intercalate hclosing xs x _ hlen h
    have hhead : Starts ([','].intercalate ((x :: xs).map f) ++ closing :: rest) := by
      have hx : Starts (f x) := hstart x (by simp)
      rcases xs with _ | ⟨y, xs⟩
      · simpa using hx.append _
      · rw [List.map_cons, List.map_cons, List.intercalate_cons_cons, List.append_assoc,
          List.append_assoc]
        exact hx.append _
    rw [bracketed, skipWhite_of_starts hhead]
    obtain ⟨c, l, hl, -, hne⟩ := hhead
    rw [hl] at hitems ⊢
    have hc : c ≠ closing := by
      rcases hclosing with rfl | rfl
      · exact hne.2.1
      · exact hne.2.2
    show (if c = closing then _ else _) = _
    rw [if_neg hc, hitems]

end Items

theorem member_quote {item : List Char → Option (Json × List Char)} {k l : List Char} {x : Json}
    (h : item (stringify x ++ l) = some (x, l)) :
    member item (quote k ++ ':' :: stringify x ++ l) = some ((k, x), l) := by
  have hk := stringBody_quote k (':' :: (stringify x ++ l))
  simp only [quote, List.cons_append, List.append_assoc, List.nil_append]
  show (stringBody _).bind _ = _
  rw [hk]
  show (item _).bind _ = _
  rw [h]
  rfl

theorem Literal.read_text (x : Literal) {rest : List Char} (h : Ends rest) :
    Literal.read (x.text ++ rest) = some (x, rest) := by
  have hrest : rest.takeWhile numberChar = [] ∧ rest.dropWhile numberChar = rest := by
    rcases rest with _ | ⟨c, l⟩
    · exact ⟨rfl, rfl⟩
    · have hc : numberChar c = false := by
        rcases h c rfl with rfl | rfl | rfl <;> rfl
      simp [hc]
  have htake : (x.text ++ rest).takeWhile numberChar = x.text := by
    rw [List.takeWhile_append_of_pos x.numberChar_of_mem, hrest.1, List.append_nil]
  have hdrop : (x.text ++ rest).dropWhile numberChar = rest := by
    rw [List.dropWhile_append_of_pos x.numberChar_of_mem, hrest.2]
  simp only [Literal.read, htake, hdrop, x.valid, dite_true]

/-- A number is read at its literal. -/
theorem value_number (x : Literal) {rest : List Char} (h : Ends rest) (n : ℕ) :
    value (n + 1) (x.text ++ rest) = some (number x, rest) := by
  have hread := x.read_text h
  have hwhite := skipWhite_of_starts (x.starts.append rest)
  rcases hx : x.text with _ | ⟨c, l⟩
  · exact absurd hx x.text_ne_nil
  · have hc : numberChar c = true := x.numberChar_of_mem c (by simp [hx])
    rw [hx] at hread hwhite
    simp only [value, hwhite]
    split
    all_goals first
      | rename_i heq
        simp only [List.cons_append, List.cons.injEq] at heq
        rw [heq.1] at hc
        exact absurd hc (by decide)
      | rw [hread]
        rfl

/-- A written value is read back, whatever stands behind it. -/
theorem value_stringify : ∀ (n : ℕ) (x : Json) (rest : List Char), (stringify x).length ≤ n →
    Ends rest → value n (stringify x ++ rest) = some (x, rest)
  | 0, x, _, hn, _ => by
    obtain ⟨c, l, hl, -⟩ := stringify_starts x
    rw [hl] at hn
    exact absurd hn (by simp)
  | n + 1, x, rest, hn, hrest => by
    cases x with
    | null => rfl
    | bool b => cases b <;> rfl
    | number x => exact value_number x hrest n
    | string s =>
      have hs := stringBody_quote s rest
      simp only [stringify, quote, List.cons_append, List.append_assoc, List.nil_append]
      show (stringBody _).map _ = _
      rw [hs]
      rfl
    | array xs =>
      simp only [stringify, bracket, stringifyItems_eq, List.cons_append, List.append_assoc,
        List.nil_append] at hn ⊢
      have hx (x : Json) (hx : x ∈ xs) (l : List Char) (hl : Ends l) :
          value n (stringify x ++ l) = some (x, l) := by
        have hle := length_le_of_mem_intercalate (List.mem_map_of_mem (f := stringify) hx)
        refine value_stringify n x l ?_ hl
        simp only [List.length_cons, List.length_append, List.length_nil] at hn
        omega
      show (bracketed (value n) ']' _).map _ = _
      rw [bracketed_intercalate (.inl rfl) (fun x _ => stringify_starts x) hx]
      rfl
    | object fields =>
      simp only [stringify, bracket, stringifyFields_eq, List.cons_append, List.append_assoc,
        List.nil_append] at hn ⊢
      have hx (p : List Char × Json) (hp : p ∈ fields) (l : List Char) (hl : Ends l) :
          member (value n) (quote p.1 ++ ':' :: stringify p.2 ++ l) = some (p, l) := by
        have hle := length_le_of_mem_intercalate
          (List.mem_map_of_mem (f := fun p => quote p.1 ++ ':' :: stringify p.2) hp)
        have hlen : (stringify p.2).length ≤ n := by
          simp only [List.length_cons, List.length_append, List.length_nil] at hn hle
          omega
        exact member_quote (value_stringify n p.2 l hlen hl)
      have hstart (p : List Char × Json) (_ : p ∈ fields) :
          Starts (quote p.1 ++ ':' :: stringify p.2) := ⟨'"', _, rfl, by decide⟩
      show (bracketed (member (value n)) '}' _).map _ = _
      rw [bracketed_intercalate (.inr rfl) hstart hx]
      rfl

/-- A value is read back from its text. -/
theorem parse_stringify (x : Json) : parse (stringify x) = some x := by
  have h := value_stringify (stringify x).length x [] le_rfl (by simp [Ends])
  rw [List.append_nil] at h
  simp [parse, h, skipWhite]

end RoundTrip

end Json

import Mathlib.Tactic.Common
/-!
# Decoding UTF-8

Bytes are decoded without failure: where they are not the UTF-8 of a character there is a
replacement character, and decoding goes on with the byte that did not fit. What is encoded comes
back.
-/

namespace Utf8

/-- U+FFFD. -/
def replacement : Char := Char.ofNat 0xFFFD

/-- A character of which bytes are missing: how many, the bits so far, and the bounds of the next
byte. -/
structure Pending where
  needed : ℕ
  code : ℕ
  lower : ℕ
  upper : ℕ

/-- A byte that starts a character. -/
def start (b : UInt8) : List Char × Option Pending :=
  let n := b.toNat
  if n ≤ 0x7F then ([Char.ofNat n], none)
  else if 0xC2 ≤ n ∧ n ≤ 0xDF then ([], some ⟨1, n % 0x20, 0x80, 0xBF⟩)
  else if 0xE0 ≤ n ∧ n ≤ 0xEF then
    ([], some ⟨2, n % 0x10, if n = 0xE0 then 0xA0 else 0x80, if n = 0xED then 0x9F else 0xBF⟩)
  else if 0xF0 ≤ n ∧ n ≤ 0xF4 then
    ([], some ⟨3, n % 0x08, if n = 0xF0 then 0x90 else 0x80, if n = 0xF4 then 0x8F else 0xBF⟩)
  else ([replacement], none)

/-- A byte after the first one; one that does not fit is a first one itself. -/
def resume (p : Pending) (b : UInt8) : List Char × Option Pending :=
  if p.lower ≤ b.toNat ∧ b.toNat ≤ p.upper then
    let code := p.code * 0x40 + b.toNat % 0x40
    if p.needed ≤ 1 then ([Char.ofNat code], none)
    else ([], some ⟨p.needed - 1, code, 0x80, 0xBF⟩)
  else (replacement :: (start b).1, (start b).2)

def decodeFrom : Option Pending → List UInt8 → List Char
  | none, [] => []
  | some _, [] => [replacement]
  | none, b :: l => (start b).1 ++ decodeFrom (start b).2 l
  | some p, b :: l => (resume p b).1 ++ decodeFrom (resume p b).2 l

def decode (l : List UInt8) : List Char := decodeFrom none l

section RoundTrip

theorem toNat_ofNat {n : ℕ} (h : n < 256) : (UInt8.ofNat n).toNat = n :=
  UInt8.toNat_ofNat_of_lt' h

theorem resume_last {p : Pending} {n : ℕ} (hp : p.needed = 1) (hlo : p.lower ≤ n)
    (hhi : n ≤ p.upper) (hn : n < 256) (l : List UInt8) :
    decodeFrom (some p) (UInt8.ofNat n :: l)
      = Char.ofNat (p.code * 0x40 + n % 0x40) :: decodeFrom none l := by
  simp [decodeFrom, resume, toNat_ofNat hn, hlo, hhi, hp]

theorem resume_more {p : Pending} {n : ℕ} (hp : 1 < p.needed) (hlo : p.lower ≤ n)
    (hhi : n ≤ p.upper) (hn : n < 256) (l : List UInt8) :
    decodeFrom (some p) (UInt8.ofNat n :: l)
      = decodeFrom (some ⟨p.needed - 1, p.code * 0x40 + n % 0x40, 0x80, 0xBF⟩) l := by
  have hneeded : ¬p.needed ≤ 1 := by omega
  simp [decodeFrom, resume, toNat_ofNat hn, hlo, hhi, hneeded]

variable {n : ℕ} (l : List UInt8)

theorem decodeFrom_one (h : n ≤ 0x7F) :
    decodeFrom none (UInt8.ofNat n :: l) = Char.ofNat n :: decodeFrom none l := by
  have hn : (UInt8.ofNat n).toNat = n := toNat_ofNat (by omega)
  simp [decodeFrom, start, hn, h]

theorem decodeFrom_two (h : 0x7F < n) (h' : n ≤ 0x7FF) :
    decodeFrom none (UInt8.ofNat (n / 64 % 0x20 + 0xC0) :: UInt8.ofNat (n % 0x40 + 0x80) :: l)
      = Char.ofNat n :: decodeFrom none l := by
  have hn : (UInt8.ofNat (n / 64 % 0x20 + 0xC0)).toNat = n / 64 % 0x20 + 0xC0 :=
    toNat_ofNat (by omega)
  have hstart :
      start (UInt8.ofNat (n / 64 % 0x20 + 0xC0)) = ([], some ⟨1, n / 64, 0x80, 0xBF⟩) := by
    have hcode : (n / 64 % 0x20 + 0xC0) % 0x20 = n / 64 := by omega
    unfold start
    simp only [hn, hcode]
    rw [if_neg (by omega), if_pos (by omega)]
  have hcode : n / 64 * 0x40 + (n % 0x40 + 0x80) % 0x40 = n := by omega
  rw [decodeFrom, hstart, List.nil_append,
    resume_last rfl (by simp only []; omega) (by simp only []; omega) (by omega), hcode]

theorem decodeFrom_three (h : 0x7FF < n) (h' : n ≤ 0xFFFF) (hvalid : n < 0xD800 ∨ 0xDFFF < n) :
    decodeFrom none (UInt8.ofNat (n / 4096 % 0x10 + 0xE0)
        :: UInt8.ofNat (n / 64 % 0x40 + 0x80) :: UInt8.ofNat (n % 0x40 + 0x80) :: l)
      = Char.ofNat n :: decodeFrom none l := by
  have hn : (UInt8.ofNat (n / 4096 % 0x10 + 0xE0)).toNat = n / 4096 % 0x10 + 0xE0 :=
    toNat_ofNat (by omega)
  have hstart : start (UInt8.ofNat (n / 4096 % 0x10 + 0xE0)) = ([], some ⟨2, n / 4096,
      if n / 4096 = 0 then 0xA0 else 0x80, if n / 4096 = 13 then 0x9F else 0xBF⟩) := by
    have hcode : (n / 4096 % 0x10 + 0xE0) % 0x10 = n / 4096 := by omega
    have hlower : (n / 4096 % 0x10 + 0xE0 = 0xE0) = (n / 4096 = 0) := propext (by omega)
    have hupper : (n / 4096 % 0x10 + 0xE0 = 0xED) = (n / 4096 = 13) := propext (by omega)
    unfold start
    simp only [hn, hcode, hlower, hupper]
    rw [if_neg (by omega), if_neg (by omega), if_pos (by omega)]
  have hcode : (n / 4096 * 0x40 + (n / 64 % 0x40 + 0x80) % 0x40) * 0x40
      + (n % 0x40 + 0x80) % 0x40 = n := by omega
  rw [decodeFrom, hstart, List.nil_append, resume_more (by simp) ?_ ?_ (by omega),
    resume_last (by simp) (by simp only []; omega) (by simp only []; omega) (by omega), hcode]
  -- the bounds of the second byte leave out long forms and surrogates
  · dsimp only
    split_ifs <;> omega
  · dsimp only
    split_ifs <;> omega

theorem decodeFrom_four (h : 0xFFFF < n) (h' : n < 0x110000) :
    decodeFrom none (UInt8.ofNat (n / 262144 % 0x08 + 0xF0)
        :: UInt8.ofNat (n / 4096 % 0x40 + 0x80) :: UInt8.ofNat (n / 64 % 0x40 + 0x80)
        :: UInt8.ofNat (n % 0x40 + 0x80) :: l)
      = Char.ofNat n :: decodeFrom none l := by
  have hn : (UInt8.ofNat (n / 262144 % 0x08 + 0xF0)).toNat = n / 262144 % 0x08 + 0xF0 :=
    toNat_ofNat (by omega)
  have hstart : start (UInt8.ofNat (n / 262144 % 0x08 + 0xF0)) = ([], some ⟨3, n / 262144,
      if n / 262144 = 0 then 0x90 else 0x80, if n / 262144 = 4 then 0x8F else 0xBF⟩) := by
    have hcode : (n / 262144 % 0x08 + 0xF0) % 0x08 = n / 262144 := by omega
    have hlower : (n / 262144 % 0x08 + 0xF0 = 0xF0) = (n / 262144 = 0) := propext (by omega)
    have hupper : (n / 262144 % 0x08 + 0xF0 = 0xF4) = (n / 262144 = 4) := propext (by omega)
    unfold start
    simp only [hn, hcode, hlower, hupper]
    rw [if_neg (by omega), if_neg (by omega), if_neg (by omega), if_pos (by omega)]
  have hcode : ((n / 262144 * 0x40 + (n / 4096 % 0x40 + 0x80) % 0x40) * 0x40
      + (n / 64 % 0x40 + 0x80) % 0x40) * 0x40 + (n % 0x40 + 0x80) % 0x40 = n := by omega
  rw [decodeFrom, hstart, List.nil_append, resume_more (by simp) ?_ ?_ (by omega),
    resume_more (by simp) (by simp only []; omega) (by simp only []; omega) (by omega),
    resume_last (by simp) (by simp only []; omega) (by simp only []; omega) (by omega), hcode]
  · dsimp only
    split_ifs <;> omega
  · dsimp only
    split_ifs <;> omega

/-- The bytes of a character are read as that character, whatever follows them. -/
theorem decodeFrom_utf8EncodeChar (c : Char) :
    decodeFrom none (String.utf8EncodeChar c ++ l) = c :: decodeFrom none l := by
  have hvalid : c.toNat < 0xD800 ∨ 0xDFFF < c.toNat ∧ c.toNat < 0x110000 := c.valid
  have hc : c.val.toNat = c.toNat := rfl
  unfold String.utf8EncodeChar
  simp only [hc]
  split_ifs with h₁ h₂ h₃
  · rw [List.singleton_append, decodeFrom_one l h₁, Char.ofNat_toNat]
  · rw [List.cons_append, List.singleton_append, decodeFrom_two l (by omega) h₂,
      Char.ofNat_toNat]
  · rw [List.cons_append, List.cons_append, List.singleton_append,
      decodeFrom_three l (by omega) h₃ (by omega), Char.ofNat_toNat]
  · rw [List.cons_append, List.cons_append, List.cons_append, List.singleton_append,
      decodeFrom_four l (by omega) (by omega), Char.ofNat_toNat]

theorem decode_encode (cs : List Char) : decode (cs.flatMap String.utf8EncodeChar) = cs := by
  unfold decode
  induction cs with
  | nil => rfl
  | cons c cs ih => rw [List.flatMap_cons, decodeFrom_utf8EncodeChar, ih]

end RoundTrip

/-- A byte that starts nothing, and a surrogate, of which no byte fits. -/
example : decode [0x41, 0xFF, 0xED, 0xA0, 0x80, 0x42]
    = ['A', replacement, replacement, replacement, replacement, 'B'] := by decide

end Utf8

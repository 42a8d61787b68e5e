import Oblivia.Lib.LongDivision
import Oblivia.Client.ProofFormat
/-!
# The verifying key

The build script of the program writes the coordinates of the verifying key, decimal texts, as
arrays of bytes. It has no big integers and divides the digits by 256 thirty-two times.
-/

namespace Oblivia

namespace BuildScript

/-- The result of a `u16` operation. -/
def u16 (operation : String) (n : ℕ) : Except String ℕ :=
  if n < 2 ^ 16 then .ok n else .error ("attempt to " ++ operation ++ " with overflow")

/-- `as u8`, which keeps the low eight bits. -/
def asU8 (n : ℕ) : Except String ℕ := .ok (n % 2 ^ 8)

/-- `as u8` of what has eight bits only. -/
def asU8Exact (n : ℕ) : Except String ℕ :=
  if n < 2 ^ 8 then .ok n else .error "truncated"

/-- `b - b'0'`, of `u8`. -/
def digitOf (byte : UInt8) : Except String ℕ :=
  if 48 ≤ byte.toNat then .ok (byte.toNat - 48) else .error "attempt to subtract with overflow"

section Be

variable (cast : ℕ → Except String ℕ)

/-- The body of the loop over the digits. -/
def divideDigit (acc : List ℕ × ℕ) (digit : ℕ) : Except String (List ℕ × ℕ) := do
  let (quotient, remainder) := acc
  let n ← u16 "add" ((← u16 "multiply" (remainder * 10)) + digit)
  if quotient ≠ [] ∨ n / 256 ≠ 0 then return (quotient ++ [← cast (n / 256)], n % 256)
  else return (quotient, n % 256)

/-- The loop over the bytes from the last to the first, `n` of them left. -/
def fill : ℕ → List ℕ → Except String (List ℕ)
  | 0, _ => return []
  | n + 1, digits => do
    let (quotient, remainder) ← digits.foldlM (divideDigit cast) ([], 0)
    let byte ← cast remainder
    return (← fill n quotient) ++ [byte]

/-- The bytes as in the source of an array. -/
def listing (bytes : List ℕ) : Text :=
  ", ".toList.intercalate (bytes.map fun b => "0x".toList ++ Numeral.hexByte (UInt8.ofNat b))

def be (value : Option Json) : Except String Text :=
  match value with
  | some (.string s) => do
    let digits ← (s.flatMap String.utf8EncodeChar).mapM digitOf
    return listing (← fill cast 32 digits)
  | _ => .error "called `Option::unwrap()` on a `None` value"

end Be

/-- `value[i]` of an array. -/
def item (value : Option Json) (i : ℕ) : Option Json :=
  match value with
  | some (.array items) => items[i]?
  | _ => none

section Points

variable (cast : ℕ → Except String ℕ)

def array (coordinates : List Text) : Text := '[' :: ", ".toList.intercalate coordinates ++ [']']

def g1 (point : Option Json) : Except String Text := do
  return array [← be cast (item point 0), ← be cast (item point 1)]

def g2 (point : Option Json) : Except String Text := do
  return array [← be cast (item (item point 0) 1), ← be cast (item (item point 0) 0),
    ← be cast (item (item point 1) 1), ← be cast (item (item point 1) 0)]

/-- The text that `main` writes to `vk_generated.rs`. -/
def source (vk : Json) : Except String Text := do
  let some (.number nPublic) := vk.field "nPublic"
    | .error "Oblivia requires four public signals"
  if nPublic.text ≠ "4".toList then throw "Oblivia requires four public signals"
  let some (.array points) := vk.field "IC"
    | .error "called `Option::unwrap()` on a `None` value"
  let ic ← points.mapM fun point => g1 cast (some point)
  return "pub const VK_ALPHA_G1: [u8; 64] = ".toList ++ (← g1 cast (vk.field "vk_alpha_1"))
    ++ ";\npub const VK_BETA_G2: [u8; 128] = ".toList ++ (← g2 cast (vk.field "vk_beta_2"))
    ++ ";\npub const VK_GAMMA_G2: [u8; 128] = ".toList ++ (← g2 cast (vk.field "vk_gamma_2"))
    ++ ";\npub const VK_DELTA_G2: [u8; 128] = ".toList ++ (← g2 cast (vk.field "vk_delta_2"))
    ++ ";\npub const IC: [[u8; 64]; 5] = ".toList ++ array ic ++ ";\n".toList

end Points

section Division

variable {cast : ℕ → Except String ℕ} (hcast : ∀ n < 2 ^ 8, cast n = .ok n)
include hcast

/-- One digit: what is divided is below 2560, and the digit of the quotient below 10. -/
theorem divideDigit_eq {acc : List ℕ × ℕ} (hacc : acc.2 < 256) {digit : ℕ} (hdigit : digit < 10) :
    divideDigit cast acc digit = .ok (LongDivision.step 10 256 acc digit) := by
  have hmul : u16 "multiply" (acc.2 * 10) = .ok (acc.2 * 10) := if_pos (by omega)
  have hadd : u16 "add" (acc.2 * 10 + digit) = .ok (acc.2 * 10 + digit) := if_pos (by omega)
  have hdiv : cast ((acc.2 * 10 + digit) / 256) = .ok ((acc.2 * 10 + digit) / 256) :=
    hcast _ (by omega)
  obtain ⟨quotient, remainder⟩ := acc
  unfold divideDigit LongDivision.step
  simp only [hmul, hadd, hdiv, Batch.ok_bind]
  split_ifs <;> rfl

theorem foldlM_divideDigit : ∀ (digits : List ℕ) (acc : List ℕ × ℕ), (∀ x ∈ digits, x < 10) →
    acc.2 < 256 → digits.foldlM (divideDigit cast) acc
      = .ok (digits.foldl (LongDivision.step 10 256) acc)
  | [], _, _, _ => rfl
  | x :: digits, acc, h, hacc => by
    rw [List.foldlM_cons, divideDigit_eq hcast hacc (h x (by simp)), Batch.ok_bind,
      List.foldl_cons]
    exact foldlM_divideDigit digits _ (fun y hy => h y (by simp [hy]))
      (Nat.mod_lt _ (by decide))

/-- The bytes are the digits in base 256 of the number that is left. -/
theorem fill_eq : ∀ (n : ℕ) (digits : List ℕ), (∀ x ∈ digits, x < 10) →
    fill cast n digits = .ok (arrayFrom (Bytes.beList n (LongDivision.value 10 digits)))
  | 0, _, _ => rfl
  | n + 1, digits, h => by
    have hdigits := LongDivision.divide_digits_lt (b := 10) (d := 256) (by decide) h
    have hbyte : cast (LongDivision.value 10 digits % 256)
        = .ok (LongDivision.value 10 digits % 256) := hcast _ (Nat.mod_lt _ (by decide))
    obtain ⟨hdiv, hmod⟩ := LongDivision.divide_spec (b := 10) (d := 256) (by decide) digits
    have hfold : digits.foldlM (divideDigit cast) ([], 0)
        = .ok (LongDivision.divide 10 256 digits) := foldlM_divideDigit hcast digits _ h (by decide)
    rw [fill, hfold]
    simp only [Batch.ok_bind, fill_eq n _ hdigits, ← hdiv, ← hmod, hbyte, Batch.pure_eq_ok]
    simp [Bytes.beList, arrayFrom]

end Division

section Digits

theorem digitOf_utf8 {c : Char} (hc : Numeral.digitVal c < 10) :
    (String.utf8EncodeChar c).mapM digitOf = .ok [Numeral.digitVal c] := by
  have hchar : ∀ d < 10, (String.utf8EncodeChar (Nat.digitChar d)).mapM digitOf = .ok [d] := by
    decide
  have h := hchar _ hc
  rwa [Numeral.digitChar_digitVal hc] at h

theorem mapM_digitOf : ∀ {s : Text}, (∀ c ∈ s, Numeral.digitVal c < 10) →
    (s.flatMap String.utf8EncodeChar).mapM digitOf = .ok (s.map Numeral.digitVal)
  | [], _ => rfl
  | c :: s, h => by
    rw [List.flatMap_cons, List.mapM_append, digitOf_utf8 (h c (by simp)), Batch.ok_bind,
      mapM_digitOf fun d hd => h d (by simp [hd])]
    rfl

theorem value_map_digitVal (s : Text) :
    LongDivision.value 10 (s.map Numeral.digitVal) = Numeral.value 10 s := by
  induction s using List.reverseRecOn with
  | nil => rfl
  | append_singleton s c ih =>
    rw [List.map_append, List.map_singleton, LongDivision.value_append_singleton, ih]
    simp [Numeral.value, Nat.mul_comm]

end Digits

section Layouts

/-- The 32 bytes of every coordinate. -/
def coordinateBytes (coordinates : List Text) : List ℕ :=
  arrayFrom (coordinates.flatMap fun s => Bytes.beList 32 (Numeral.value 10 s))

/-- The bytes as an array in the source. -/
def arrayOf (bytes : List ℕ) : Text := array [listing bytes]

variable {cast : ℕ → Except String ℕ} (hcast : ∀ n < 2 ^ 8, cast n = .ok n)

include hcast in
theorem be_eq {s : Text} (hs : Numeral.IsNumeral 10 s) :
    be cast (some (.string s)) = .ok (listing (coordinateBytes [s])) := by
  have hdigits : ∀ x ∈ s.map Numeral.digitVal, x < 10 := by simpa using hs.2
  unfold be
  simp only [mapM_digitOf hs.2, Batch.ok_bind, fill_eq hcast 32 _ hdigits, value_map_digitVal,
    coordinateBytes, List.flatMap_cons, List.flatMap_nil, List.append_nil]
  rfl

theorem intercalate_append (sep : Text) : ∀ {ls ls' : List Text}, ls ≠ [] → ls' ≠ [] →
    sep.intercalate (ls ++ ls') = sep.intercalate ls ++ sep ++ sep.intercalate ls'
  | [l], ls', _, h' => by
    rw [List.singleton_append, List.intercalate_cons_of_ne_nil h', List.intercalate_singleton]
  | l :: l' :: ls, ls', _, h' => by
    have ih := intercalate_append sep (List.cons_ne_nil l' ls) h'
    rw [List.cons_append, List.intercalate_cons_of_ne_nil (by simp), ih,
      List.intercalate_cons_cons]
    simp

theorem listing_append {l l' : List ℕ} (h : l ≠ []) (h' : l' ≠ []) :
    listing (l ++ l') = listing l ++ ", ".toList ++ listing l' := by
  unfold listing
  rw [List.map_append, intercalate_append _ (by simpa using h) (by simpa using h')]

theorem coordinateBytes_ne_nil (s : Text) (ss : List Text) : coordinateBytes (s :: ss) ≠ [] := by
  refine List.ne_nil_of_length_pos ?_
  simp [coordinateBytes, arrayFrom, Bytes.length_beList]

theorem coordinateBytes_cons (s : Text) (ss : List Text) :
    coordinateBytes (s :: ss) = coordinateBytes [s] ++ coordinateBytes ss := by
  simp [coordinateBytes, arrayFrom]

theorem array_listing : ∀ ss : List Text, ss ≠ [] →
    array (ss.map fun s => listing (coordinateBytes [s])) = arrayOf (coordinateBytes ss) := by
  have h : ∀ ss : List Text, ss ≠ [] →
      ", ".toList.intercalate (ss.map fun s => listing (coordinateBytes [s]))
        = listing (coordinateBytes ss) := by
    intro ss
    induction ss with
    | nil => simp
    | cons s ss ih =>
      intro _
      rcases ss with _ | ⟨s', ss⟩
      · exact List.intercalate_singleton
      · rw [coordinateBytes_cons, List.map_cons, List.intercalate_cons_of_ne_nil (by simp),
          ih (by simp), listing_append (coordinateBytes_ne_nil s []) (coordinateBytes_ne_nil s' ss)]
  intro ss hss
  rw [array, h ss hss, arrayOf, array, List.intercalate_singleton]

/-- A point as snarkjs exports it, its coordinates decimals. -/
def IsG1 (point : Option Json) (p : Text × Text) : Prop :=
  (item point 0 = some (.string p.1) ∧ item point 1 = some (.string p.2))
    ∧ Numeral.IsNumeral 10 p.1 ∧ Numeral.IsNumeral 10 p.2

def IsG2 (point : Option Json) (p : (Text × Text) × (Text × Text)) : Prop :=
  IsG1 (item point 0) p.1 ∧ IsG1 (item point 1) p.2

include hcast in
theorem g1_eq {point : Option Json} {p : Text × Text} (h : IsG1 point p) :
    g1 cast point = .ok (arrayOf (coordinateBytes [p.1, p.2])) := by
  obtain ⟨⟨hx, hy⟩, hx', hy'⟩ := h
  unfold g1
  rw [hx, hy, be_eq hcast hx', be_eq hcast hy', ← array_listing [p.1, p.2] (by simp)]
  rfl

include hcast in
theorem g2_eq {point : Option Json} {p : (Text × Text) × (Text × Text)} (h : IsG2 point p) :
    g2 cast point = .ok (arrayOf (coordinateBytes [p.1.2, p.1.1, p.2.2, p.2.1])) := by
  obtain ⟨⟨⟨h₁, h₂⟩, h₁', h₂'⟩, ⟨h₃, h₄⟩, h₃', h₄'⟩ := h
  unfold g2
  rw [h₁, h₂, h₃, h₄, be_eq hcast h₁', be_eq hcast h₂', be_eq hcast h₃', be_eq hcast h₄',
    ← array_listing [p.1.2, p.1.1, p.2.2, p.2.1] (by simp)]
  rfl

end Layouts

section Source

/-- The coordinates of a verifying key. -/
structure VerifyingKey where
  alpha : Text × Text
  beta : (Text × Text) × (Text × Text)
  gamma : (Text × Text) × (Text × Text)
  delta : (Text × Text) × (Text × Text)
  ic : List (Text × Text)

/-- What snarkjs exports: four public signals, and decimals for all coordinates. -/
structure VerifyingKey.IsExported (key : VerifyingKey) (vk : Json) : Prop where
  nPublic : ∃ n, vk.field "nPublic" = some (.number n) ∧ n.text = "4".toList
  alpha : IsG1 (vk.field "vk_alpha_1") key.alpha
  beta : IsG2 (vk.field "vk_beta_2") key.beta
  gamma : IsG2 (vk.field "vk_gamma_2") key.gamma
  delta : IsG2 (vk.field "vk_delta_2") key.delta
  ic : ∃ points, vk.field "IC" = some (.array points)
    ∧ List.Forall₂ (fun point p => IsG1 (some point) p) points key.ic

def g1Array (p : Text × Text) : Text := arrayOf (coordinateBytes [p.1, p.2])

def g2Array (p : (Text × Text) × (Text × Text)) : Text :=
  arrayOf (coordinateBytes [p.1.2, p.1.1, p.2.2, p.2.1])

/-- The constants of a verifying key. -/
def VerifyingKey.text (key : VerifyingKey) : Text :=
  "pub const VK_ALPHA_G1: [u8; 64] = ".toList ++ g1Array key.alpha
    ++ ";\npub const VK_BETA_G2: [u8; 128] = ".toList ++ g2Array key.beta
    ++ ";\npub const VK_GAMMA_G2: [u8; 128] = ".toList ++ g2Array key.gamma
    ++ ";\npub const VK_DELTA_G2: [u8; 128] = ".toList ++ g2Array key.delta
    ++ ";\npub const IC: [[u8; 64]; 5] = ".toList ++ array (key.ic.map g1Array) ++ ";\n".toList

variable {cast : ℕ → Except String ℕ} (hcast : ∀ n < 2 ^ 8, cast n = .ok n)
include hcast

theorem mapM_g1 {points : List Json} {ps : List (Text × Text)}
    (h : List.Forall₂ (fun point p => IsG1 (some point) p) points ps) :
    (points.mapM fun point => g1 cast (some point)) = .ok (ps.map g1Array) := by
  induction h with
  | nil => rfl
  | cons hpoint _ ih =>
    rw [List.mapM_cons, g1_eq hcast hpoint, Batch.ok_bind, ih]
    rfl

theorem source_eq {key : VerifyingKey} {vk : Json} (h : key.IsExported vk) :
    source cast vk = .ok key.text := by
  obtain ⟨n, hn, htext⟩ := h.nPublic
  obtain ⟨points, hpoints, hic⟩ := h.ic
  unfold source
  rw [hn, hpoints]
  simp only [htext, ne_eq, not_true_eq_false, if_false, mapM_g1 hcast hic, g1_eq hcast h.alpha,
    g2_eq hcast h.beta, g2_eq hcast h.gamma, g2_eq hcast h.delta, Batch.ok_bind]
  rfl

end Source

section Clients

theorem fieldArray_numeral {s : Text} (hs : Numeral.IsNumeral 10 s) :
    fieldArray s = .ok (Bytes.beList 32 (Numeral.value 10 s)) := by
  rw [fieldArray, fieldBytes_numeral hs]
  rfl

theorem proofCArray_numeral {point : Option Json} {proof : Groth16Proof}
    (h : IsG1 point proof.piC) :
    proofCArray proof = .ok (coordinateBytes [proof.piC.1, proof.piC.2]) := by
  obtain ⟨-, hx, hy⟩ := h
  simp only [proofCArray, fieldArray_numeral hx, fieldArray_numeral hy, coordinateBytes,
    Batch.ok_bind, Batch.pure_eq_ok, List.flatMap_cons, List.flatMap_nil, List.append_nil]

theorem proofBArray_numeral {point : Option Json} {proof : Groth16Proof}
    (h : IsG2 point proof.piB) :
    proofBArray proof = .ok (coordinateBytes
      [proof.piB.1.2, proof.piB.1.1, proof.piB.2.2, proof.piB.2.1]) := by
  obtain ⟨⟨-, h₁, h₂⟩, -, h₃, h₄⟩ := h
  simp only [proofBArray, fieldArray_numeral h₁, fieldArray_numeral h₂, fieldArray_numeral h₃,
    fieldArray_numeral h₄, coordinateBytes, Batch.ok_bind, Batch.pure_eq_ok, List.flatMap_cons,
    List.flatMap_nil, List.append_nil, List.append_assoc]

end Clients

theorem cast_eq {cast : ℕ → Except String ℕ} (h : cast = asU8 ∨ cast = asU8Exact) :
    ∀ n < 2 ^ 8, cast n = .ok n := by
  intro n hn
  rcases h with rfl | rfl
  · rw [asU8, Nat.mod_eq_of_lt hn]
  · exact if_pos hn

/-- The script writes every decimal text as the clients do, and every point in their order.
Nothing changes if a cast that loses bits is an error. -/
theorem be_eq_fieldBytes {cast : ℕ → Except String ℕ} (h : cast = asU8 ∨ cast = asU8Exact) :
    (∀ s : Text, Numeral.IsNumeral 10 s → ∃ bytes : Bytes 32,
      bytes.toNat = Numeral.value 10 s % 2 ^ 256 ∧ fieldBytes s = .ok bytes
        ∧ be cast (some (.string s)) = .ok (listing (arrayFrom bytes.toList)))
    ∧ (∀ (point : Option Json) (proof : Groth16Proof), IsG1 point proof.piC → ∃ bytes,
      proofCArray proof = .ok bytes ∧ g1 cast point = .ok (arrayOf bytes))
    ∧ (∀ (point : Option Json) (proof : Groth16Proof), IsG2 point proof.piB → ∃ bytes,
      proofBArray proof = .ok bytes ∧ g2 cast point = .ok (arrayOf bytes))
    ∧ ∀ (key : VerifyingKey) (vk : Json), key.IsExported vk → source cast vk = .ok key.text := by
  have hcast := cast_eq h
  refine ⟨fun s hs => ⟨.ofNat 32 (Numeral.value 10 s), ?_, fieldBytes_numeral hs, ?_⟩,
    fun point proof hpoint => ⟨_, proofCArray_numeral hpoint, g1_eq hcast hpoint⟩,
    fun point proof hpoint => ⟨_, proofBArray_numeral hpoint, g2_eq hcast hpoint⟩,
    fun key vk hkey => source_eq hcast hkey⟩
  · exact Bytes.beVal_beList 32 _
  · rw [be_eq hcast hs, coordinateBytes, List.flatMap_singleton]
    rfl

/-- A text with a leading zero of which the last byte is 1. -/
theorem be_eq_fieldBytes_sample : ∃ bytes : Bytes 32, bytes.toNat = 257
    ∧ fieldBytes "0257".toList = .ok bytes
    ∧ be asU8Exact (some (.string "0257".toList)) = .ok (listing (arrayFrom bytes.toList)) :=
  (be_eq_fieldBytes (.inr rfl)).1 "0257".toList (by decide)

end BuildScript

end Oblivia

import Mathlib.Data.Fin.VecNotation
import Mathlib.Tactic.FinCases
import Oblivia.Client.SignerKey
/-!
# Encodings of the clients

How each client splits a contract hash into the two decimals of its circuit input, and how it
writes field elements and proof points as bytes. Every splitter gives the decimals of the two
halves of the hash, the limbs the program compares with.
-/

namespace Oblivia

section BigInt

/-- The integer a text without white space denotes. -/
def integerOf : Text → Option ℤ
  | [] => some 0
  | '0' :: 'x' :: l | '0' :: 'X' :: l =>
    if Numeral.IsNumeral 16 l then some (Numeral.value 16 l) else none
  | '0' :: 'o' :: l | '0' :: 'O' :: l =>
    if Numeral.IsNumeral 8 l then some (Numeral.value 8 l) else none
  | '0' :: 'b' :: l | '0' :: 'B' :: l =>
    if Numeral.IsNumeral 2 l then some (Numeral.value 2 l) else none
  | '-' :: l => if Numeral.IsNumeral 10 l then some (-Numeral.value 10 l) else none
  | '+' :: l => if Numeral.IsNumeral 10 l then some (Numeral.value 10 l) else none
  | l => if Numeral.IsNumeral 10 l then some (Numeral.value 10 l) else none

/-- `BigInt` of a text. -/
def bigInt (text : Text) : Except String ℤ :=
  (integerOf text).elim (.error ("Cannot convert " ++ String.ofList text ++ " to a BigInt")) .ok

/-- `toString` of a `BigInt`. -/
def bigIntText : ℤ → Text
  | .ofNat n => decimal n
  | .negSucc n => '-' :: decimal (n + 1)

theorem integerOf_numeral {l : Text} (hnum : Numeral.IsNumeral 10 l) :
    integerOf l = some (Numeral.value 10 l : ℤ) := by
  unfold integerOf
  -- digits have no sign and no prefix
  split
  all_goals first
    | rw [if_pos (by assumption)]
    | exact absurd (hnum.2 _ List.mem_cons_self) (by decide)
    | exact absurd (hnum.2 _ (List.mem_cons_of_mem _ List.mem_cons_self)) (by decide)
    | exact absurd rfl hnum.1

theorem bigInt_numeral {l : Text} (hnum : Numeral.IsNumeral 10 l) :
    bigInt l = .ok (Numeral.value 10 l : ℤ) := by
  rw [bigInt, integerOf_numeral hnum]
  rfl

theorem integerOf_decimal (n : ℕ) : integerOf (decimal n) = some (n : ℤ) := by
  have hnum : Numeral.IsNumeral 10 (decimal n) :=
    Numeral.isNumeral_toDigits (by decide) (by decide) n
  have hval : Numeral.value 10 (decimal n) = n :=
    Numeral.value_toDigits (by decide) (by decide) n
  rw [integerOf_numeral hnum, hval]

theorem bigInt_decimal (n : ℕ) : bigInt (decimal n) = .ok (n : ℤ) := by
  rw [bigInt, integerOf_decimal]
  rfl

theorem bigInt_hex {l : List UInt8} (hl : l ≠ []) :
    bigInt ("0x".toList ++ Numeral.hexEncode l) = .ok (Bytes.beVal l : ℤ) := by
  have hnum : Numeral.IsNumeral 16 (Numeral.hexEncode l) := by
    refine ⟨?_, Numeral.digitVal_hexEncode⟩
    intro h
    have hlen := congrArg List.length h
    rw [Numeral.length_hexEncode] at hlen
    have := List.length_pos_iff.2 hl
    simp only [List.length_nil] at hlen
    omega
  have hint : integerOf ("0x".toList ++ Numeral.hexEncode l)
      = if Numeral.IsNumeral 16 (Numeral.hexEncode l) then
        some (Numeral.value 16 (Numeral.hexEncode l) : ℤ) else none := rfl
  rw [bigInt, hint, if_pos hnum, Numeral.value_hexEncode]
  rfl

end BigInt

section Limbs

/-- `toString(16).padStart(2, '0')` of every byte, joined. -/
def paddedHex (l : List UInt8) : Text :=
  l.flatMap fun b => (Nat.toDigits 16 b.toNat).leftpad 2 '0'

/-- `BigInt('0x' + hex).toString()`. -/
def hexField (hex : Text) : Except String Text := (bigInt ("0x".toList ++ hex)).map bigIntText

theorem paddedHex_eq (l : List UInt8) : paddedHex l = Numeral.hexEncode l := by
  refine List.flatMap_congr fun b _ => ?_
  have hb := b.toNat_lt
  rw [Nat.toDigits_eq_if (by decide)]
  split_ifs with h
  · have hdiv : b.toNat / 16 = 0 := by omega
    rw [Numeral.hexByte, hdiv, Nat.mod_eq_of_lt h]
    rfl
  · rw [Nat.toDigits_of_lt_base (by omega)]
    rfl

theorem hexField_hexEncode {l : List UInt8} (hl : l ≠ []) :
    hexField (Numeral.hexEncode l) = .ok (decimal (Bytes.beVal l)) := by
  rw [hexField, bigInt_hex hl]
  rfl

/-- The decimals of the two halves of a hash. -/
def limbDecimals (hash : Bytes 32) : Text × Text :=
  (decimal (hash.slice 0 16 (by decide)).toNat, decimal (hash.slice 16 16 (by decide)).toNat)

theorem hexField_bytes (hash : Bytes 32) :
    hexField (Numeral.hexEncode (hash.toList.take 16)) = .ok (limbDecimals hash).1
      ∧ hexField (Numeral.hexEncode (hash.toList.drop 16)) = .ok (limbDecimals hash).2 := by
  have hlo : hash.toList.take 16 ≠ [] := List.ne_nil_of_length_pos (by simp)
  have hhi : hash.toList.drop 16 ≠ [] := List.ne_nil_of_length_pos (by simp)
  have hrest : (hash.slice 16 16 (by decide)).toList = hash.toList.drop 16 :=
    List.take_of_length_le (by simp)
  refine ⟨hexField_hexEncode hlo, ?_⟩
  rw [hexField_hexEncode hhi, ← hrest]
  rfl

/-- The two halves of the digits of a hash are the digits of its halves. -/
theorem hexField_digits (hash : Bytes 32) :
    hexField ((Numeral.hexEncode hash.toList).take 32) = .ok (limbDecimals hash).1
      ∧ hexField ((Numeral.hexEncode hash.toList).drop 32) = .ok (limbDecimals hash).2 := by
  rw [Numeral.take_hexEncode 16, Numeral.drop_hexEncode 16]
  exact hexField_bytes hash

end Limbs

section Fields

/-- The loop of `fieldBytes` from index `i - 1` down to 0: `n & 255n` is stored, `n >>= 8n`. -/
def fieldLoop : ℕ → ℤ → List UInt8
  | 0, _ => []
  | i + 1, n => fieldLoop i (n >>> (8 : ℕ)) ++ [UInt8.ofNat (n % 256).toNat]

theorem length_fieldLoop : ∀ i n, (fieldLoop i n).length = i
  | 0, _ => rfl
  | i + 1, n => by simp [fieldLoop, length_fieldLoop i]

def bigIntBytes (n : ℤ) : Bytes 32 := ⟨fieldLoop 32 n, length_fieldLoop 32 n⟩

def fieldBytes (value : Text) : Except String (Bytes 32) := (bigInt value).map bigIntBytes

theorem fieldLoop_natCast : ∀ i k : ℕ, fieldLoop i k = Bytes.beList i k
  | 0, _ => rfl
  | i + 1, k => by
    have hshift : (k : ℤ) >>> (8 : ℕ) = ((k / 256 : ℕ) : ℤ) := by
      rw [Int.shiftRight_eq_div_pow]
      norm_cast
    have hmod : ((k : ℤ) % 256).toNat = k % 256 := by omega
    rw [fieldLoop, hshift, fieldLoop_natCast i, hmod, Bytes.beList]
    congr 2
    exact UInt8.toNat_inj.1 (by simp)

theorem bigIntBytes_natCast (k : ℕ) : bigIntBytes k = Bytes.ofNat 32 k :=
  Bytes.toList_inj.1 (fieldLoop_natCast 32 k)

/-- Decimal digits are written as the 32 bytes of their number. -/
theorem fieldBytes_numeral {l : Text} (hnum : Numeral.IsNumeral 10 l) :
    fieldBytes l = .ok (Bytes.ofNat 32 (Numeral.value 10 l)) := by
  rw [fieldBytes, bigInt_numeral hnum]
  exact congrArg Except.ok (bigIntBytes_natCast _)

theorem fieldBytes_decimal (k : ℕ) : fieldBytes (decimal k) = .ok (Bytes.ofNat 32 k) := by
  rw [fieldBytes, bigInt_decimal]
  exact congrArg Except.ok (bigIntBytes_natCast k)

end Fields

section Proofs

/-- A proof as the prover returns it, its coordinates texts. -/
structure Groth16Proof where
  piA : Text × Text
  piB : (Text × Text) × (Text × Text)
  piC : Text × Text

/-- The order of the BN254 base field. -/
def fieldModulus : ℤ :=
  21888242871839275222246405745257275088696311157297823662689037894645226208583

/-- The bytes of a proof, the first point negated and the second with its coordinates swapped, and
of its public signals. -/
def serializeProof (proof : Groth16Proof) (signals : Fin 4 → Text) : Except String ProofArgs := do
  let q := fieldModulus
  let proofA := Bytes.append (← fieldBytes proof.piA.1) (bigIntBytes (q - (← bigInt proof.piA.2)))
  let x := Bytes.append (← fieldBytes proof.piB.1.2) (← fieldBytes proof.piB.1.1)
  let y := Bytes.append (← fieldBytes proof.piB.2.2) (← fieldBytes proof.piB.2.1)
  let proofC := Bytes.append (← fieldBytes proof.piC.1) (← fieldBytes proof.piC.2)
  let outputs := Bytes.append (← fieldBytes (signals 0)) (← fieldBytes (signals 1))
  let inputs := Bytes.append (← fieldBytes (signals 2)) (← fieldBytes (signals 3))
  return {
    proofA := proofA, proofB := Bytes.append x y, proofC := proofC,
    pubInputs := Bytes.append outputs inputs,
    keyCommitment := ← fieldBytes (signals 0), signatureCommitment := ← fieldBytes (signals 1) }

/-- Every coordinate is a decimal. -/
def Groth16Proof.IsDecimal (p : Groth16Proof) : Prop :=
  ∃ a a' b b' c c' d d' : ℕ, p = ⟨(decimal a, decimal a'),
    ((decimal b, decimal b'), (decimal c, decimal c')), (decimal d, decimal d')⟩

/-- The four public inputs in their bytes. -/
theorem inputs_append (a b c d : Bytes 32) :
    inputs ((a.append b).append (c.append d)) = ![a, b, c, d] := by
  have htake (e : Bytes 32) (l : List UInt8) : (e.toList ++ l).take 32 = e.toList :=
    List.take_left' (by simp)
  have hdrop (e : Bytes 32) (l : List UInt8) (n : ℕ) :
      (e.toList ++ l).drop (n + 32) = l.drop n := by
    rw [Nat.add_comm, ← List.drop_drop, List.drop_left' (by simp)]
  have hlast : d.toList.take 32 = d.toList := List.take_of_length_le (by simp)
  funext i
  refine Bytes.toList_inj.1 ?_
  show List.take 32 (List.drop (i * 32) ((a.toList ++ b.toList) ++ (c.toList ++ d.toList))) = _
  rw [List.append_assoc]
  fin_cases i
  · exact htake a _
  · exact (congrArg _ (hdrop a _ 0)).trans (htake b _)
  · exact (congrArg _ ((hdrop a _ 32).trans (hdrop b _ 0))).trans (htake c _)
  · exact (congrArg _ ((hdrop a _ 64).trans ((hdrop b _ 32).trans (hdrop c _ 0)))).trans hlast

/-- The bytes of decimals: the commitments are the first two signals, and the public inputs are
all four. -/
theorem serializeProof_decimal {proof : Groth16Proof} (hp : proof.IsDecimal) (n : Fin 4 → ℕ) :
    ∃ args, serializeProof proof (fun i => decimal (n i)) = .ok args
      ∧ args.keyCommitment = .ofNat 32 (n 0) ∧ args.signatureCommitment = .ofNat 32 (n 1)
      ∧ ∀ i, inputs args.pubInputs i = .ofNat 32 (n i) := by
  obtain ⟨a, a', b, b', c, c', d, d', rfl⟩ := hp
  simp only [serializeProof, fieldBytes_decimal, bigInt_decimal, Batch.ok_bind]
  refine ⟨_, rfl, rfl, rfl, fun i => ?_⟩
  rw [inputs_append]
  fin_cases i <;> rfl

end Proofs

end Oblivia

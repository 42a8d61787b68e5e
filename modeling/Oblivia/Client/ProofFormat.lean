import Oblivia.Client.Proving
/-!
# Proof formats of the clients

Four serializers turn a proof and its public signals into arrays of numbers. One negates the
first point after it has cut the coordinate to 32 bytes, the others before. On integers they give
the same arrays, and on field elements nothing of the proof is lost.
-/

namespace Oblivia

/-- The arrays of a request, as plain arrays of numbers. -/
structure AnchorArguments where
  proofA : List ℕ
  proofB : List ℕ
  proofC : List ℕ
  publicInputs : List ℕ
  keyCommitment : List ℕ
  signatureCommitment : List ℕ
  deriving DecidableEq

/-- `Array.from` of a byte buffer. -/
def arrayFrom (l : List UInt8) : List ℕ := l.map UInt8.toNat

def fieldArray (value : Text) : Except String (List UInt8) :=
  (fieldBytes value).map List.Vector.toList

/-- Element `i` of an array of signals, as what `BigInt` is called on. -/
def signalAt (signals : List Text) (i : ℕ) : Except String Text :=
  match signals[i]? with
  | some signal => .ok signal
  | none => .error "Cannot convert undefined to a BigInt"

section Serializers

variable (proof : Groth16Proof)

def proofBArray : Except String (List ℕ) := do
  return arrayFrom ((← fieldArray proof.piB.1.2) ++ (← fieldArray proof.piB.1.1)
    ++ (← fieldArray proof.piB.2.2) ++ (← fieldArray proof.piB.2.1))

def proofCArray : Except String (List ℕ) := do
  return arrayFrom ((← fieldArray proof.piC.1) ++ (← fieldArray proof.piC.2))

/-- In `zk_groth16/anchor_proof_format.js`. -/
def toAnchorArguments (publicSignals : List Text) : Except String AnchorArguments :=
  if publicSignals.length ≠ 4 then .error "Expected four public signals" else do
    let aX ← fieldArray proof.piA.1
    let aY ← fieldArray proof.piA.2
    let negAY := fieldLoop 32 (fieldModulus - (← bigInt ("0x".toList ++ Numeral.hexEncode aY)))
    return {
      proofA := arrayFrom (aX ++ negAY)
      proofB := ← proofBArray proof
      proofC := ← proofCArray proof
      publicInputs := arrayFrom (← publicSignals.mapM fieldArray).flatten
      keyCommitment := arrayFrom (← fieldArray (← signalAt publicSignals 0))
      signatureCommitment := arrayFrom (← fieldArray (← signalAt publicSignals 1)) }

/-- The arrays that `generateIntentProof` returns. -/
def Sdk.proofArguments (publicSignals : List Text) : Except String AnchorArguments := do
  let q := fieldModulus
  return {
    proofA := arrayFrom
      ((← fieldArray proof.piA.1) ++ fieldLoop 32 (q - (← bigInt proof.piA.2)))
    proofB := ← proofBArray proof
    proofC := ← proofCArray proof
    publicInputs := arrayFrom (← publicSignals.mapM fieldArray).flatten
    keyCommitment := arrayFrom (← fieldArray (← signalAt publicSignals 0))
    signatureCommitment := arrayFrom (← fieldArray (← signalAt publicSignals 1)) }

/-- `anchorProof` of the single-sign page. -/
def SignPage.anchorArguments (signals : List Text) : Except String AnchorArguments := do
  let aY ← bigInt proof.piA.2
  return {
    proofA := arrayFrom ((← fieldArray proof.piA.1) ++ fieldLoop 32 (fieldModulus - aY))
    proofB := ← proofBArray proof
    proofC := ← proofCArray proof
    publicInputs := (← signals.mapM fun signal => arrayFrom <$> fieldArray signal).flatten
    keyCommitment := arrayFrom (← fieldArray (← signalAt signals 0))
    signatureCommitment := arrayFrom (← fieldArray (← signalAt signals 1)) }

/-- `grothPayload` of the multisig page. -/
def MultisigPage.grothArguments (signals : List Text) : Except String AnchorArguments := do
  return {
    proofA := arrayFrom
      ((← fieldArray proof.piA.1) ++ fieldLoop 32 (fieldModulus - (← bigInt proof.piA.2)))
    proofB := ← proofBArray proof
    proofC := ← proofCArray proof
    publicInputs := (← signals.mapM fun signal => arrayFrom <$> fieldArray signal).flatten
    keyCommitment := arrayFrom (← fieldArray (← signalAt signals 0))
    signatureCommitment := arrayFrom (← fieldArray (← signalAt signals 1)) }

end Serializers

section Values

/-- The integers of a proof and of its public signals. -/
structure ProofValues where
  a : ℤ × ℤ
  b : (ℤ × ℤ) × (ℤ × ℤ)
  c : ℤ × ℤ
  signals : Fin 4 → ℤ

/-- The texts of a proof and of its signals are integers to `BigInt`. -/
structure Groth16Proof.Denotes (proof : Groth16Proof) (signals : Fin 4 → Text)
    (v : ProofValues) : Prop where
  a : bigInt proof.piA.1 = .ok v.a.1 ∧ bigInt proof.piA.2 = .ok v.a.2
  b : (bigInt proof.piB.1.1 = .ok v.b.1.1 ∧ bigInt proof.piB.1.2 = .ok v.b.1.2)
    ∧ bigInt proof.piB.2.1 = .ok v.b.2.1 ∧ bigInt proof.piB.2.2 = .ok v.b.2.2
  c : bigInt proof.piC.1 = .ok v.c.1 ∧ bigInt proof.piC.2 = .ok v.c.2
  signals : ∀ i, bigInt (signals i) = .ok (v.signals i)

def IsCoordinate (n : ℤ) : Prop := 0 ≤ n ∧ n < fieldModulus

instance (n : ℤ) : Decidable (IsCoordinate n) := inferInstanceAs (Decidable (_ ∧ _))

/-- Coordinates and signals are of their fields, and the one that is negated is not zero. -/
structure ProofValues.InRange (v : ProofValues) : Prop where
  a : IsCoordinate v.a.1 ∧ 0 < v.a.2 ∧ v.a.2 < fieldModulus
  b : (IsCoordinate v.b.1.1 ∧ IsCoordinate v.b.1.2) ∧ IsCoordinate v.b.2.1 ∧ IsCoordinate v.b.2.2
  c : IsCoordinate v.c.1 ∧ IsCoordinate v.c.2
  signals : ∀ i, 0 ≤ v.signals i ∧ v.signals i < scalarModulus

/-- The 32 bytes of every integer, in the order of the format. -/
def ProofValues.sized (v : ProofValues) : ProofArgs where
  proofA := (bigIntBytes v.a.1).append (bigIntBytes (fieldModulus - v.a.2))
  proofB := ((bigIntBytes v.b.1.2).append (bigIntBytes v.b.1.1)).append
    ((bigIntBytes v.b.2.2).append (bigIntBytes v.b.2.1))
  proofC := (bigIntBytes v.c.1).append (bigIntBytes v.c.2)
  pubInputs := ((bigIntBytes (v.signals 0)).append (bigIntBytes (v.signals 1))).append
    ((bigIntBytes (v.signals 2)).append (bigIntBytes (v.signals 3)))
  keyCommitment := bigIntBytes (v.signals 0)
  signatureCommitment := bigIntBytes (v.signals 1)

/-- Byte arrays of known sizes as plain arrays. -/
def ProofArgs.arrays (args : ProofArgs) : AnchorArguments where
  proofA := arrayFrom args.proofA.toList
  proofB := arrayFrom args.proofB.toList
  proofC := arrayFrom args.proofC.toList
  publicInputs := arrayFrom args.pubInputs.toList
  keyCommitment := arrayFrom args.keyCommitment.toList
  signatureCommitment := arrayFrom args.signatureCommitment.toList

end Values

section FieldLoop

theorem fieldLoop_congr : ∀ (i : ℕ) {n m : ℤ}, n ≡ m [ZMOD 256 ^ i] →
    fieldLoop i n = fieldLoop i m
  | 0, _, _, _ => rfl
  | i + 1, n, m, h => by
    obtain ⟨c, hc⟩ := h.dvd
    have hm : m = n + 256 * (256 ^ i * c) := by
      rw [pow_succ'] at hc
      linarith
    have hshift (k : ℤ) : k >>> (8 : ℕ) = k / 256 := by simp [Int.shiftRight_eq_div_pow]
    have hdiv : m / 256 = n / 256 + 256 ^ i * c := by
      rw [hm, Int.add_mul_ediv_left _ _ (by decide)]
    have hmod : m % 256 = n % 256 := by rw [hm, Int.add_mul_emod_self_left]
    have hrest : n / 256 ≡ m / 256 [ZMOD 256 ^ i] :=
      Int.modEq_iff_dvd.2 ⟨c, by rw [hdiv, add_sub_cancel_left]⟩
    unfold fieldLoop
    rw [hshift, hshift, fieldLoop_congr i hrest, hmod]

/-- The loop keeps an integer modulo `256 ^ i`. -/
theorem fieldLoop_eq (i : ℕ) (n : ℤ) : fieldLoop i n = Bytes.beList i (n % 256 ^ i).toNat := by
  have hpos : (0 : ℤ) ≤ n % 256 ^ i := Int.emod_nonneg n (by positivity)
  rw [← fieldLoop_natCast, Int.toNat_of_nonneg hpos]
  exact fieldLoop_congr i (Int.mod_modEq n _).symm

theorem beVal_fieldLoop (i : ℕ) (n : ℤ) :
    (Bytes.beVal (fieldLoop i n) : ℤ) = n % 256 ^ i := by
  have hpos : (0 : ℤ) ≤ n % 256 ^ i := Int.emod_nonneg n (by positivity)
  rw [fieldLoop_eq, Bytes.beVal_beList]
  push_cast
  rw [Int.toNat_of_nonneg hpos, Int.emod_emod]

/-- Negating what the 32 bytes of a coordinate read back to is negating the coordinate. -/
theorem fieldLoop_sub_beVal (i : ℕ) (q n : ℤ) :
    fieldLoop i (q - Bytes.beVal (fieldLoop i n)) = fieldLoop i (q - n) := by
  refine fieldLoop_congr i ?_
  rw [beVal_fieldLoop]
  exact (Int.ModEq.refl q).sub (Int.mod_modEq n _)

end FieldLoop

section Agreement

variable {proof : Groth16Proof} {signals : Fin 4 → Text} {v : ProofValues}

theorem fieldArray_ok {value : Text} {n : ℤ} (h : bigInt value = .ok n) :
    fieldArray value = .ok (fieldLoop 32 n) := by
  rw [fieldArray, fieldBytes, h]
  rfl

theorem arrays_sized (v : ProofValues) : v.sized.arrays = {
    proofA := arrayFrom ([v.a.1, fieldModulus - v.a.2].flatMap (fieldLoop 32))
    proofB := arrayFrom ([v.b.1.2, v.b.1.1, v.b.2.2, v.b.2.1].flatMap (fieldLoop 32))
    proofC := arrayFrom ([v.c.1, v.c.2].flatMap (fieldLoop 32))
    publicInputs := arrayFrom ((List.ofFn v.signals).flatMap (fieldLoop 32))
    keyCommitment := arrayFrom ([v.signals 0].flatMap (fieldLoop 32))
    signatureCommitment := arrayFrom ([v.signals 1].flatMap (fieldLoop 32)) } := by
  simp [ProofArgs.arrays, ProofValues.sized, Bytes.append, bigIntBytes, List.ofFn_succ]

theorem proofBArray_eq (h : proof.Denotes signals v) :
    proofBArray proof
      = .ok (arrayFrom ([v.b.1.2, v.b.1.1, v.b.2.2, v.b.2.1].flatMap (fieldLoop 32))) := by
  obtain ⟨⟨h₁, h₂⟩, h₃, h₄⟩ := h.b
  simp only [proofBArray, fieldArray_ok h₁, fieldArray_ok h₂, fieldArray_ok h₃, fieldArray_ok h₄,
    Batch.ok_bind, List.flatMap_cons, List.flatMap_nil, List.append_assoc, List.append_nil,
    Batch.pure_eq_ok]

theorem proofCArray_eq (h : proof.Denotes signals v) :
    proofCArray proof = .ok (arrayFrom ([v.c.1, v.c.2].flatMap (fieldLoop 32))) := by
  simp only [proofCArray, fieldArray_ok h.c.1, fieldArray_ok h.c.2, Batch.ok_bind,
    List.flatMap_cons, List.flatMap_nil, List.append_nil, Batch.pure_eq_ok]

theorem mapM_ofFn {β : Type} {f : Text → Except String β} {g : ℤ → β} : ∀ {n : ℕ}
    {signals : Fin n → Text} {values : Fin n → ℤ}, (∀ i, f (signals i) = .ok (g (values i))) →
      (List.ofFn signals).mapM f = .ok ((List.ofFn values).map g)
  | 0, _, _, _ => rfl
  | n + 1, signals, values, h => by
    rw [List.ofFn_succ, List.ofFn_succ, List.mapM_cons, h 0, Batch.ok_bind,
      mapM_ofFn fun i => h i.succ]
    rfl

theorem signalAt_zero (signals : Fin 4 → Text) :
    signalAt (List.ofFn signals) 0 = .ok (signals 0) := by
  simp [signalAt, List.ofFn_succ]

theorem signalAt_one (signals : Fin 4 → Text) :
    signalAt (List.ofFn signals) 1 = .ok (signals 1) := by
  simp [signalAt, List.ofFn_succ]

theorem arrayFrom_append (l l' : List UInt8) :
    arrayFrom (l ++ l') = arrayFrom l ++ arrayFrom l' := List.map_append

theorem toAnchorArguments_eq (h : proof.Denotes signals v) :
    toAnchorArguments proof (List.ofFn signals) = .ok v.sized.arrays := by
  have hne : fieldLoop 32 v.a.2 ≠ [] :=
    List.ne_nil_of_length_pos (by rw [length_fieldLoop]; decide)
  have hsignals := mapM_ofFn fun i => fieldArray_ok (h.signals i)
  unfold toAnchorArguments
  rw [if_neg (by simp), arrays_sized]
  simp only [fieldArray_ok h.a.1, fieldArray_ok h.a.2, bigInt_hex hne, fieldLoop_sub_beVal,
    proofBArray_eq h, proofCArray_eq h, hsignals, signalAt_zero, signalAt_one,
    fieldArray_ok (h.signals _), Batch.ok_bind, Batch.pure_eq_ok]
  simp [List.flatMap_def]

theorem proofArguments_eq (h : proof.Denotes signals v) :
    Sdk.proofArguments proof (List.ofFn signals) = .ok v.sized.arrays := by
  have hsignals := mapM_ofFn fun i => fieldArray_ok (h.signals i)
  unfold Sdk.proofArguments
  rw [arrays_sized]
  simp only [fieldArray_ok h.a.1, h.a.2, proofBArray_eq h, proofCArray_eq h, hsignals,
    signalAt_zero, signalAt_one, fieldArray_ok (h.signals _), Batch.ok_bind, Batch.pure_eq_ok]
  simp [List.flatMap_def]

theorem mapM_arrayFrom (h : proof.Denotes signals v) :
    ((List.ofFn signals).mapM fun signal => arrayFrom <$> fieldArray signal)
      = .ok ((List.ofFn v.signals).map fun n => arrayFrom (fieldLoop 32 n)) :=
  mapM_ofFn fun i => by
    rw [fieldArray_ok (h.signals i)]
    rfl

theorem anchorArguments_eq (h : proof.Denotes signals v) :
    SignPage.anchorArguments proof (List.ofFn signals) = .ok v.sized.arrays := by
  unfold SignPage.anchorArguments
  rw [arrays_sized]
  simp only [fieldArray_ok h.a.1, h.a.2, proofBArray_eq h, proofCArray_eq h, mapM_arrayFrom h,
    signalAt_zero, signalAt_one, fieldArray_ok (h.signals _), Batch.ok_bind, Batch.pure_eq_ok]
  simp [List.flatMap_def, arrayFrom_append]

theorem grothArguments_eq (h : proof.Denotes signals v) :
    MultisigPage.grothArguments proof (List.ofFn signals) = .ok v.sized.arrays := by
  unfold MultisigPage.grothArguments
  rw [arrays_sized]
  simp only [fieldArray_ok h.a.1, h.a.2, proofBArray_eq h, proofCArray_eq h, mapM_arrayFrom h,
    signalAt_zero, signalAt_one, fieldArray_ok (h.signals _), Batch.ok_bind, Batch.pure_eq_ok]
  simp [List.flatMap_def, arrayFrom_append]

/-- The pages' models, whose arrays have their sizes in their types, compute the same. -/
theorem serializeProof_arrays (h : proof.Denotes signals v) :
    (serializeProof proof signals).map ProofArgs.arrays
      = SignPage.anchorArguments proof (List.ofFn signals) := by
  have hsized : serializeProof proof signals = .ok v.sized := by
    obtain ⟨⟨h₁, h₂⟩, h₃, h₄⟩ := h.b
    simp only [serializeProof, fieldBytes, h.a.1, h.a.2, h₁, h₂, h₃, h₄, h.c.1, h.c.2, h.signals,
      Except.map, Batch.ok_bind, Batch.pure_eq_ok]
    rfl
  rw [hsized, anchorArguments_eq h]
  rfl

end Agreement

section Decoding

/-- The numbers of which an array has the 32-byte big-endian texts. -/
def chunkValues (l : List ℕ) : List ℤ :=
  (List.range (l.length / 32)).map fun i =>
    ((Nat.ofDigits 256 ((l.drop (32 * i)).take 32).reverse : ℕ) : ℤ)

theorem length_flatMap_fieldLoop (ns : List ℤ) :
    (ns.flatMap (fieldLoop 32)).length = 32 * ns.length := by
  simp [List.length_flatMap, length_fieldLoop, Nat.mul_comm]

theorem take_drop_flatMap : ∀ (ns : List ℤ) (i : ℕ) (h : i < ns.length),
    ((ns.flatMap (fieldLoop 32)).drop (32 * i)).take 32 = fieldLoop 32 ns[i]
  | n :: ns, 0, _ => List.take_left' (length_fieldLoop 32 n)
  | n :: ns, i + 1, h => by
    have hi : 32 * (i + 1) = 32 + 32 * i := by omega
    rw [List.flatMap_cons, hi, ← List.drop_drop, List.drop_left' (length_fieldLoop 32 n)]
    exact take_drop_flatMap ns i _

theorem chunkValues_flatMap (ns : List ℤ) :
    chunkValues (arrayFrom (ns.flatMap (fieldLoop 32))) = ns.map (· % 256 ^ 32) := by
  have hlen : (arrayFrom (ns.flatMap (fieldLoop 32))).length / 32 = ns.length := by
    rw [arrayFrom, List.length_map, length_flatMap_fieldLoop]
    omega
  refine List.ext_getElem (by simp [chunkValues, hlen]) fun i hi hi' => ?_
  have hi : i < ns.length := by simpa using hi'
  simp only [chunkValues, List.getElem_map, List.getElem_range]
  rw [arrayFrom, ← List.map_drop, ← List.map_take, take_drop_flatMap ns i hi, ← List.map_reverse,
    ← Bytes.beVal, beVal_fieldLoop]

/-- Integers below `2 ^ 256` come back from their chunks. -/
theorem chunkValues_eq {ns : List ℤ} (h : ∀ n ∈ ns, 0 ≤ n ∧ n < 2 ^ 256) :
    chunkValues (arrayFrom (ns.flatMap (fieldLoop 32))) = ns := by
  rw [chunkValues_flatMap]
  refine (List.map_congr_left fun n hn => ?_).trans ns.map_id
  exact Int.emod_eq_of_lt (h n hn).1 (h n hn).2

theorem chunkValues_arrays {v : ProofValues} (hv : v.InRange) :
    chunkValues v.sized.arrays.proofA = [v.a.1, fieldModulus - v.a.2]
      ∧ chunkValues v.sized.arrays.proofB = [v.b.1.2, v.b.1.1, v.b.2.2, v.b.2.1]
      ∧ chunkValues v.sized.arrays.proofC = [v.c.1, v.c.2]
      ∧ chunkValues v.sized.arrays.publicInputs = List.ofFn v.signals
      ∧ chunkValues v.sized.arrays.keyCommitment = [v.signals 0]
      ∧ chunkValues v.sized.arrays.signatureCommitment = [v.signals 1] := by
  have hq : fieldModulus < 2 ^ 256 := by norm_num [fieldModulus]
  have hr : (scalarModulus : ℤ) < 2 ^ 256 := by norm_num [scalarModulus]
  have hcoordinate {n : ℤ} (h : IsCoordinate n) : 0 ≤ n ∧ n < 2 ^ 256 := ⟨h.1, h.2.trans hq⟩
  have hsignal (i : Fin 4) : 0 ≤ v.signals i ∧ v.signals i < 2 ^ 256 :=
    ⟨(hv.signals i).1, (hv.signals i).2.trans hr⟩
  have hneg : IsCoordinate (fieldModulus - v.a.2) := by
    obtain ⟨-, hpos, hlt⟩ := hv.a
    exact ⟨by omega, by omega⟩
  have hnil : ∀ n ∈ ([] : List ℤ), 0 ≤ n ∧ n < 2 ^ 256 := by simp
  obtain ⟨⟨h₁, h₂⟩, h₃, h₄⟩ := hv.b
  simp only [arrays_sized]
  refine ⟨chunkValues_eq ?_, chunkValues_eq ?_, chunkValues_eq ?_, chunkValues_eq ?_,
    chunkValues_eq ?_, chunkValues_eq ?_⟩
  · simp only [List.forall_mem_cons]
    exact ⟨hcoordinate hv.a.1, hcoordinate hneg, hnil⟩
  · simp only [List.forall_mem_cons]
    exact ⟨hcoordinate h₂, hcoordinate h₁, hcoordinate h₄, hcoordinate h₃, hnil⟩
  · simp only [List.forall_mem_cons]
    exact ⟨hcoordinate hv.c.1, hcoordinate hv.c.2, hnil⟩
  · intro n hn
    obtain ⟨i, rfl⟩ := List.mem_ofFn.1 hn
    exact hsignal i
  · exact List.forall_mem_cons.2 ⟨hsignal 0, hnil⟩
  · exact List.forall_mem_cons.2 ⟨hsignal 1, hnil⟩

/-- Arrays of proofs in range are equal only for equal proofs and signals. -/
theorem arrays_injective {v v' : ProofValues} (hv : v.InRange) (hv' : v'.InRange)
    (h : v.sized.arrays = v'.sized.arrays) : v = v' := by
  obtain ⟨ha, hb, hc, hs, -⟩ := chunkValues_arrays hv
  obtain ⟨ha', hb', hc', hs', -⟩ := chunkValues_arrays hv'
  rw [h] at ha hb hc hs
  rw [ha'] at ha
  rw [hb'] at hb
  rw [hc'] at hc
  rw [hs'] at hs
  simp only [List.cons.injEq, and_true, sub_right_inj] at ha hb hc
  obtain ⟨⟨a₁, a₂⟩, ⟨⟨b₁, b₂⟩, b₃, b₄⟩, ⟨c₁, c₂⟩, signals⟩ := v
  obtain ⟨rfl, rfl⟩ := ha
  obtain ⟨rfl, rfl, rfl, rfl⟩ := hb
  obtain ⟨rfl, rfl⟩ := hc
  have hsignals : v'.signals = signals := List.ofFn_injective hs
  subst hsignals
  rfl

end Decoding

section Sizes

theorem lengths_arrays (args : ProofArgs) :
    args.arrays.proofA.length = 64 ∧ args.arrays.proofB.length = 128
      ∧ args.arrays.proofC.length = 64 ∧ args.arrays.publicInputs.length = 128
      ∧ args.arrays.keyCommitment.length = 32
      ∧ args.arrays.signatureCommitment.length = 32 := by
  simp [ProofArgs.arrays, arrayFrom]

def AnchorArguments.all (args : AnchorArguments) : List (List ℕ) :=
  [args.proofA, args.proofB, args.proofC, args.publicInputs, args.keyCommitment,
    args.signatureCommitment]

theorem le_of_mem_arrays {args : ProofArgs} {l : List ℕ} (hl : l ∈ args.arrays.all) {b : ℕ}
    (hb : b ∈ l) : b ≤ 255 := by
  have harray : ∃ bytes, l = arrayFrom bytes := by
    simp only [AnchorArguments.all, List.mem_cons, List.not_mem_nil, or_false] at hl
    rcases hl with rfl | rfl | rfl | rfl | rfl | rfl <;> exact ⟨_, rfl⟩
  obtain ⟨bytes, rfl⟩ := harray
  obtain ⟨byte, -, rfl⟩ := List.mem_map.1 hb
  exact Nat.le_of_lt_succ byte.toNat_lt

end Sizes

/-- On texts of integers the four serializers return the same arrays of bytes, and on field
elements those determine the proof. -/
theorem serializers_agree (proof : Groth16Proof) (signals : Fin 4 → Text) (v : ProofValues)
    (h : proof.Denotes signals v) : ∃ args : AnchorArguments,
    (toAnchorArguments proof (List.ofFn signals) = .ok args
      ∧ Sdk.proofArguments proof (List.ofFn signals) = .ok args
      ∧ SignPage.anchorArguments proof (List.ofFn signals) = .ok args
      ∧ MultisigPage.grothArguments proof (List.ofFn signals) = .ok args)
    ∧ (args.proofA.length = 64 ∧ args.proofB.length = 128 ∧ args.proofC.length = 64
      ∧ args.publicInputs.length = 128 ∧ args.keyCommitment.length = 32
      ∧ args.signatureCommitment.length = 32)
    ∧ (∀ l ∈ args.all, ∀ b ∈ l, b ≤ 255)
    ∧ (v.InRange →
      (∃ y, chunkValues args.proofA = [v.a.1, y] ∧ 0 < y ∧ y < fieldModulus
        ∧ y + v.a.2 = fieldModulus)
      ∧ chunkValues args.proofB = [v.b.1.2, v.b.1.1, v.b.2.2, v.b.2.1]
      ∧ chunkValues args.proofC = [v.c.1, v.c.2]
      ∧ chunkValues args.publicInputs = List.ofFn v.signals
      ∧ chunkValues args.keyCommitment = [v.signals 0]
      ∧ chunkValues args.signatureCommitment = [v.signals 1]
      ∧ ∀ (proof' : Groth16Proof) (signals' : Fin 4 → Text) (v' : ProofValues),
        proof'.Denotes signals' v' → v'.InRange →
        toAnchorArguments proof' (List.ofFn signals') = .ok args → v' = v) := by
  refine ⟨v.sized.arrays, ⟨toAnchorArguments_eq h, proofArguments_eq h, anchorArguments_eq h,
    grothArguments_eq h⟩, lengths_arrays v.sized, fun l hl b hb => le_of_mem_arrays hl hb,
    fun hv => ?_⟩
  obtain ⟨ha, hb, hc, hs, hkey, hsig⟩ := chunkValues_arrays hv
  obtain ⟨-, hpos, hlt⟩ := hv.a
  refine ⟨⟨_, ha, by omega, by omega, by omega⟩, hb, hc, hs, hkey, hsig,
    fun proof' signals' v' h' hv' heq => ?_⟩
  rw [toAnchorArguments_eq h'] at heq
  exact arrays_injective hv' hv (Except.ok.inj heq)

/-- The proof of coordinates 1 to 8 and signals 9 to 12. -/
theorem serializers_agree_sample : ∃ args : AnchorArguments,
    toAnchorArguments
      ⟨("1".toList, "2".toList), (("3".toList, "4".toList), "5".toList, "6".toList),
        "7".toList, "8".toList⟩
      (List.ofFn ![ "9".toList, "10".toList, "11".toList, "12".toList]) = .ok args
    ∧ chunkValues args.proofB = [4, 3, 6, 5] := by
  obtain ⟨args, ⟨h, -⟩, -, -, hv⟩ := serializers_agree
    ⟨("1".toList, "2".toList), (("3".toList, "4".toList), "5".toList, "6".toList),
      "7".toList, "8".toList⟩
    ![ "9".toList, "10".toList, "11".toList, "12".toList]
    ⟨(1, 2), ((3, 4), 5, 6), (7, 8), ![9, 10, 11, 12]⟩
    ⟨by decide, by decide, by decide, by decide⟩
  exact ⟨args, h, (hv ⟨by decide, by decide, by decide, by decide⟩).2.1⟩

end Oblivia

import Mathlib.Algebra.Field.ZMod
import Mathlib.Tactic.NormNum.Prime
import Oblivia.Chain.Steps
import Oblivia.Lib.Circuit
import Oblivia.Lib.Primality
/-!
# The intent circuit

The constraints of `OblividIntent` over the scalar field, with Poseidon an arbitrary function, and
what an accepted proof states: its signer knew a key with the given commitment that signed exactly
this contract hash (`statement_sound`). The circuit does not bound the two limbs of the hash; the
program does, by comparing them with limbs it makes itself.
-/

namespace Oblivia

section Prime

/-! The primes below the modulus in the factorization of `scalarModulus - 1`, and of their own
predecessors. -/

theorem prime_12048837557 : Nat.Prime 12048837557 :=
  Lucas.prime_of_test 2 34 [(2, 2), (7, 2), (661, 1), (93001, 1)] (by simp; norm_num)
    (by decide +kernel)

theorem prime_5156902474397 : Nat.Prime 5156902474397 :=
  Lucas.prime_of_test 2 43 [(2, 2), (107, 1), (12048837557, 1)]
    (by simp [prime_12048837557]; norm_num) (by decide +kernel)

theorem prime_1670836401704629 : Nat.Prime 1670836401704629 :=
  Lucas.prime_of_test 2 51 [(2, 2), (3, 4), (5156902474397, 1)]
    (by simp [prime_5156902474397]; norm_num) (by decide +kernel)

theorem prime_639533339 : Nat.Prime 639533339 :=
  Lucas.prime_of_test 2 30 [(2, 1), (229, 1), (853, 1), (1637, 1)] (by simp; norm_num)
    (by decide +kernel)

theorem prime_65865678001877903 : Nat.Prime 65865678001877903 :=
  Lucas.prime_of_test 5 56 [(2, 1), (83, 1), (379, 1), (1637, 1), (639533339, 1)]
    (by simp [prime_639533339]; norm_num) (by decide +kernel)

theorem prime_13818364434197438864469338081 : Nat.Prime 13818364434197438864469338081 :=
  Lucas.prime_of_test 3 94 [(2, 5), (5, 1), (823, 1), (1593227, 1), (65865678001877903, 1)]
    (by simp [prime_65865678001877903]; norm_num) (by decide +kernel)

theorem prime_405928799 : Nat.Prime 405928799 :=
  Lucas.prime_of_test 22 29 [(2, 1), (11, 1), (3691, 1), (4999, 1)] (by simp; norm_num)
    (by decide +kernel)

theorem prime_scalarModulus : scalarModulus.Prime :=
  Lucas.prime_of_test 5 254
    [(2, 28), (3, 2), (13, 1), (29, 1), (983, 1), (11003, 1), (237073, 1), (405928799, 1),
      (1670836401704629, 1), (13818364434197438864469338081, 1)]
    (by simp [prime_405928799, prime_1670836401704629, prime_13818364434197438864469338081]
        norm_num)
    (by decide +kernel)

end Prime

/-- The BN254 scalar field. -/
abbrev Fr := ZMod scalarModulus

instance : Fact scalarModulus.Prime := ⟨prime_scalarModulus⟩

/-- The signals of the template, those at the ports of its two components included. -/
inductive Signal
  | signerKey
  | contractHashLo
  | contractHashHi
  | timestamp
  | keyCommitment
  | sigCommitment
  | keyInv
  | tsInv
  | keyHasherInput
  | keyHasherOut
  | sigHasherInput (i : Fin 4)
  | sigHasherOut
  deriving DecidableEq

open Circuit

def oblividIntent (poseidon : List Fr → Fr) : List (Stmt Signal Fr) :=
  [ .hint .keyInv (.div (.const 1) (.signal .signerKey)),
    .constrain (.mul (.signal .signerKey) (.signal .keyInv)) (.const 1),
    .hint .tsInv (.div (.const 1) (.signal .timestamp)),
    .constrain (.mul (.signal .timestamp) (.signal .tsInv)) (.const 1),
    .assign .keyHasherInput (.signal .signerKey),
    .component poseidon [.keyHasherInput] .keyHasherOut,
    .assign .keyCommitment (.signal .keyHasherOut),
    .assign (.sigHasherInput 0) (.signal .signerKey),
    .assign (.sigHasherInput 1) (.signal .contractHashLo),
    .assign (.sigHasherInput 2) (.signal .contractHashHi),
    .assign (.sigHasherInput 3) (.signal .timestamp),
    .component poseidon [.sigHasherInput 0, .sigHasherInput 1, .sigHasherInput 2,
      .sigHasherInput 3] .sigHasherOut,
    .assign .sigCommitment (.signal .sigHasherOut)]

/-- The public signals: the outputs, then the public inputs. -/
def publicSignals : Fin 4 → Signal :=
  ![.keyCommitment, .sigCommitment, .contractHashLo, .contractHashHi]

variable {poseidon : List Fr → Fr} {w w' : Signal → Fr}

/-- The constraints, one by one: every signal is a function of the four inputs, and these have to
be such that the key and the timestamp are not zero. -/
theorem satisfies_oblividIntent : Satisfies w (oblividIntent poseidon) ↔
    (w .signerKey ≠ 0 ∧ w .timestamp ≠ 0)
      ∧ w .keyInv = (w .signerKey)⁻¹ ∧ w .tsInv = (w .timestamp)⁻¹
      ∧ w .keyHasherInput = w .signerKey ∧ w .keyHasherOut = poseidon [w .signerKey]
      ∧ w .keyCommitment = poseidon [w .signerKey]
      ∧ w (.sigHasherInput 0) = w .signerKey ∧ w (.sigHasherInput 1) = w .contractHashLo
      ∧ w (.sigHasherInput 2) = w .contractHashHi ∧ w (.sigHasherInput 3) = w .timestamp
      ∧ w .sigHasherOut
        = poseidon [w .signerKey, w .contractHashLo, w .contractHashHi, w .timestamp]
      ∧ w .sigCommitment
        = poseidon [w .signerKey, w .contractHashLo, w .contractHashHi, w .timestamp] := by
  simp only [oblividIntent, satisfies_cons, satisfies_nil, Stmt.Holds, Expr.eval, List.map_cons,
    List.map_nil, true_and, and_true]
  constructor
  · rintro ⟨hk, ht, h₁, h₂, h₃, h₄, h₅, h₆, h₇, h₈, h₉⟩
    rw [h₁] at h₂
    rw [h₂] at h₃
    rw [h₄, h₅, h₆, h₇] at h₈
    rw [h₈] at h₉
    have hk0 : w .signerKey ≠ 0 := left_ne_zero_of_mul_eq_one hk
    have ht0 : w .timestamp ≠ 0 := left_ne_zero_of_mul_eq_one ht
    exact ⟨⟨hk0, ht0⟩, eq_inv_of_mul_eq_one_right hk, eq_inv_of_mul_eq_one_right ht, h₁, h₂, h₃, h₄,
      h₅, h₆, h₇, h₈, h₉⟩
  · rintro ⟨⟨hk0, ht0⟩, hk, ht, h₁, h₂, h₃, h₄, h₅, h₆, h₇, h₈, h₉⟩
    refine ⟨?_, ?_, h₁, ?_, ?_, h₄, h₅, h₆, h₇, ?_, ?_⟩
    · rw [hk, mul_inv_cancel₀ hk0]
    · rw [ht, mul_inv_cancel₀ ht0]
    · rw [h₁, h₂]
    · rw [h₂, h₃]
    · rw [h₄, h₅, h₆, h₇, h₈]
    · rw [h₈, h₉]

/-- The four inputs determine every signal. -/
theorem eq_of_inputs (hw : Satisfies w (oblividIntent poseidon))
    (hw' : Satisfies w' (oblividIntent poseidon)) (hk : w .signerKey = w' .signerKey)
    (hlo : w .contractHashLo = w' .contractHashLo) (hhi : w .contractHashHi = w' .contractHashHi)
    (ht : w .timestamp = w' .timestamp) : w = w' := by
  obtain ⟨-, a₁, a₂, a₃, a₄, a₅, a₆, a₇, a₈, a₉, a₁₀, a₁₁⟩ := satisfies_oblividIntent.1 hw
  obtain ⟨-, b₁, b₂, b₃, b₄, b₅, b₆, b₇, b₈, b₉, b₁₀, b₁₁⟩ := satisfies_oblividIntent.1 hw'
  funext x
  cases x with
  | sigHasherInput i => fin_cases i <;> simp_all
  | _ => simp_all

/-- The prover's assignment for its four inputs. -/
def intentWitness (poseidon : List Fr → Fr) (key lo hi ts : Fr) : Signal → Fr :=
  generate (oblividIntent poseidon) fun
    | .signerKey => key
    | .contractHashLo => lo
    | .contractHashHi => hi
    | .timestamp => ts
    | _ => 0

theorem intentWitness_inputs (key lo hi ts : Fr) :
    intentWitness poseidon key lo hi ts .signerKey = key
      ∧ intentWitness poseidon key lo hi ts .contractHashLo = lo
      ∧ intentWitness poseidon key lo hi ts .contractHashHi = hi
      ∧ intentWitness poseidon key lo hi ts .timestamp = ts := by
  simp [intentWitness, generate, oblividIntent, Stmt.run]

/-- The prover's assignment is accepted if the key and the timestamp are not zero. -/
theorem satisfies_intentWitness {key lo hi ts : Fr} (hk : key ≠ 0) (ht : ts ≠ 0) :
    Satisfies (intentWitness poseidon key lo hi ts) (oblividIntent poseidon) := by
  rw [satisfies_oblividIntent]
  simp [intentWitness, generate, oblividIntent, Stmt.run, Expr.eval, hk, ht]

/-- Some assignment with these inputs is accepted exactly if neither is zero. -/
theorem satisfiable_iff {key lo hi ts : Fr} :
    (∃ w, Satisfies w (oblividIntent poseidon) ∧ w .signerKey = key ∧ w .contractHashLo = lo
      ∧ w .contractHashHi = hi ∧ w .timestamp = ts) ↔ key ≠ 0 ∧ ts ≠ 0 := by
  constructor
  · rintro ⟨w, hw, rfl, rfl, rfl, rfl⟩
    exact (satisfies_oblividIntent.1 hw).1
  · rintro ⟨hk, ht⟩
    exact ⟨_, satisfies_intentWitness hk ht, intentWitness_inputs key lo hi ts⟩

/-- Knowledge soundness, as far as it is used: the verifier accepts canonical public inputs that an
assignment accepted by the circuit has. -/
def Groth16Sound (poseidon : List Fr → Fr) (groth16 : Groth16Verifier) : Prop :=
  ∀ a b c inp, groth16 a b c inp = true → (∀ i, (inp i).toNat < scalarModulus)
    ∧ ∃ w, Satisfies w (oblividIntent poseidon) ∧ ∀ i, w (publicSignals i) = ((inp i).toNat : Fr)

/-- The limbs are the two halves of the hash, as numbers. -/
theorem contractHashLimbs_toNat (h : Bytes 32) :
    (contractHashLimbs h).1.toNat = (h.slice 0 16 (by decide)).toNat
      ∧ (contractHashLimbs h).2.toNat = (h.slice 16 16 (by decide)).toNat := by
  have hzero (l : List UInt8) : Bytes.beVal (List.replicate 16 0 ++ l) = Bytes.beVal l := by
    rw [Bytes.beVal_append, Bytes.beVal_replicate_zero, zero_mul, zero_add]
  refine ⟨hzero _, (hzero _).trans ?_⟩
  show _ = Bytes.beVal ((h.toList.drop 16).take 16)
  rw [List.take_of_length_le (by simp)]

/-- An accepted proof: the key commitment is of a key that is not zero, and the signature commitment
is of that key, the two halves of this very hash and a time that is not zero. No other hash accepts
the same public inputs. The constraints are met for exactly the keys and times that are not zero,
and fix every signal. -/
theorem statement_sound {groth16 : Groth16Verifier} (hg : Groth16Sound poseidon groth16) :
    (∀ h args, verifyContractBoundProof groth16 h args = .ok () →
      (∃ key ts : Fr, key ≠ 0 ∧ ts ≠ 0 ∧ args.keyCommitment.toNat = (poseidon [key]).val
        ∧ args.signatureCommitment.toNat
          = (poseidon [key, ((h.slice 0 16 (by decide)).toNat : Fr),
            ((h.slice 16 16 (by decide)).toNat : Fr), ts]).val)
      ∧ ∀ h' args', args'.pubInputs = args.pubInputs →
        verifyContractBoundProof groth16 h' args' = .ok () → h' = h)
    ∧ (∀ key lo hi ts, (∃ w, Satisfies w (oblividIntent poseidon) ∧ w .signerKey = key
      ∧ w .contractHashLo = lo ∧ w .contractHashHi = hi ∧ w .timestamp = ts)
        ↔ key ≠ 0 ∧ ts ≠ 0)
    ∧ ∀ w w', Satisfies w (oblividIntent poseidon) → Satisfies w' (oblividIntent poseidon) →
      w .signerKey = w' .signerKey → w .contractHashLo = w' .contractHashLo →
      w .contractHashHi = w' .contractHashHi → w .timestamp = w' .timestamp → w = w' := by
  refine ⟨fun h args ha => ⟨?_, fun h' args' hp ha' => ?_⟩, fun key lo hi ts => satisfiable_iff,
    fun w w' => eq_of_inputs⟩
  · obtain ⟨h₂, h₃, h₀, h₁, hacc⟩ := verifyContractBoundProof_eq_ok.1 ha
    obtain ⟨hlt, w, hw, hpub⟩ := hg _ _ _ _ hacc
    obtain ⟨⟨hk, ht⟩, -, -, -, -, hkey, -, -, -, -, -, hsig⟩ := satisfies_oblividIntent.1 hw
    have hlo : w .contractHashLo = ((h.slice 0 16 (by decide)).toNat : Fr) := by
      rw [← (contractHashLimbs_toNat h).1, ← h₂]
      exact hpub 2
    have hhi : w .contractHashHi = ((h.slice 16 16 (by decide)).toNat : Fr) := by
      rw [← (contractHashLimbs_toNat h).2, ← h₃]
      exact hpub 3
    refine ⟨w .signerKey, w .timestamp, hk, ht, ?_, ?_⟩
    · have h0 : w .keyCommitment = _ := hpub 0
      rw [← hkey, h0, ZMod.val_cast_of_lt (hlt 0), h₀]
    · have h1 : w .sigCommitment = _ := hpub 1
      rw [← hlo, ← hhi, ← hsig, h1, ZMod.val_cast_of_lt (hlt 1), h₁]
  · exact (contractHash_eq_of_pubInputs ha' ha hp).1

section Sample

/-- A hash whose halves are the numbers 5 and 6. -/
def sampleIntentHash : Bytes 32 :=
  .ofNat 32 0x0000000000000000000000000000000500000000000000000000000000000006

/-- With the sum of the inputs for Poseidon: the key 1 signs the hash at the time 2. -/
def sampleIntent : ProofArgs where
  proofA := .zero 64
  proofB := .zero 128
  proofC := .zero 64
  pubInputs := ⟨(Bytes.ofNat 32 1).toList ++ (Bytes.ofNat 32 14).toList
    ++ (Bytes.ofNat 32 5).toList ++ (Bytes.ofNat 32 6).toList, by simp⟩
  keyCommitment := .ofNat 32 1
  signatureCommitment := .ofNat 32 14

/-- Accepts this one statement. -/
def sampleIntentVerifier : Groth16Verifier := fun _ _ _ inp =>
  decide (inp = inputs sampleIntent.pubInputs)

theorem groth16Sound_sample : Groth16Sound List.sum sampleIntentVerifier := by
  intro a b c inp h
  rw [of_decide_eq_true h]
  have hval : ∀ i, (inputs sampleIntent.pubInputs i).toNat = ![1, 14, 5, 6] i := by decide +kernel
  have htwo : (2 : Fr) ≠ 0 := by
    rw [Ne, show (2 : Fr) = ((2 : ℕ) : Fr) from rfl, ZMod.natCast_eq_zero_iff]
    decide +kernel
  have hw : Satisfies (intentWitness List.sum 1 5 6 2) (oblividIntent List.sum) :=
    satisfies_intentWitness one_ne_zero htwo
  refine ⟨fun i => ?_, intentWitness List.sum 1 5 6 2, hw, fun i => ?_⟩
  · rw [hval]
    revert i
    decide +kernel
  · have hin : _ ∧ _ := @intentWitness_inputs List.sum 1 5 6 2
    obtain ⟨hk, hlo, hhi, ht⟩ := hin
    obtain ⟨-, -, -, -, -, hkey, -, -, -, -, -, hsig⟩ := satisfies_oblividIntent.1 hw
    rw [hk] at hkey
    rw [hk, hlo, hhi, ht] at hsig
    rw [hval]
    fin_cases i
    · show intentWitness List.sum 1 5 6 2 .keyCommitment = ((1 : ℕ) : Fr)
      rw [hkey]
      simp
    · show intentWitness List.sum 1 5 6 2 .sigCommitment = ((14 : ℕ) : Fr)
      rw [hsig]
      norm_num
    · show intentWitness List.sum 1 5 6 2 .contractHashLo = ((5 : ℕ) : Fr)
      rw [hlo]
      norm_num
    · show intentWitness List.sum 1 5 6 2 .contractHashHi = ((6 : ℕ) : Fr)
      rw [hhi]
      norm_num

/-- The statement of the sample proof, and that of another hash. -/
theorem statement_sound_sample :
    (∃ key ts : Fr, key ≠ 0 ∧ ts ≠ 0 ∧ (Bytes.ofNat 32 1).toNat = (List.sum [key]).val
      ∧ (Bytes.ofNat 32 14).toNat
        = (List.sum [key, ((sampleIntentHash.slice 0 16 (by decide)).toNat : Fr),
          ((sampleIntentHash.slice 16 16 (by decide)).toNat : Fr), ts]).val)
    ∧ verifyContractBoundProof sampleIntentVerifier (.zero 32) sampleIntent ≠ .ok () := by
  have hok : verifyContractBoundProof sampleIntentVerifier sampleIntentHash sampleIntent
      = .ok () := by decide +kernel
  obtain ⟨hstate, hother⟩ := (statement_sound groth16Sound_sample).1 _ _ hok
  refine ⟨hstate, fun hzero => ?_⟩
  have heq : Bytes.zero 32 = sampleIntentHash := hother _ _ rfl hzero
  revert heq
  decide +kernel

end Sample

end Oblivia

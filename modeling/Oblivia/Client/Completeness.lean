import Oblivia.Circuit.OblividIntent
import Oblivia.Relay.Requests
/-!
# From a secret to the program

For a key and a time that are not zero, what each client sends is read by the relay as it was
built, and the arguments pass the program's checks of the public inputs for the hash of the signed
contract and for no other (`binding_complete`).
-/

namespace Oblivia

/-- The field elements of a circuit input: key, both limbs, time. -/
def CircuitInput.fields (inp : CircuitInput) : Except String (Fr × Fr × Fr × Fr) := do
  let key ← bigInt inp.signerKey
  let lo ← bigInt inp.contractHashLo
  let hi ← bigInt inp.contractHashHi
  let ts ← bigInt inp.timestamp
  return ((key : Fr), (lo : Fr), (hi : Fr), (ts : Fr))

/-- Completeness of the prover, as far as it is used: an input of decimals with a key and a time
that are not zero gets a proof that verifies, its coordinates decimals, for the public signals of
the circuit, as decimals. -/
def Snarkjs.Complete (poseidon : List Fr → Fr) (P : Snarkjs) : Prop :=
  ∀ key lo hi ts : Fr, key ≠ 0 → ts ≠ 0 →
    let signals i := decimal (![(poseidon [key]).val, (poseidon [key, lo, hi, ts]).val,
      lo.val, hi.val] i)
    ∃ proof : Groth16Proof, proof.IsDecimal ∧ P.verify signals proof = true
      ∧ P.fullProve ⟨decimal key.val, decimal lo.val, decimal hi.val, decimal ts.val⟩
        = .ok (proof, signals)

/-- These arguments pass everything but the pairing check for the hash, and fail for any other
hash. -/
def Binds (h : Bytes 32) (args : ProofArgs) : Prop :=
  verifyContractBoundProof (fun _ _ _ _ => true) h args = .ok ()
    ∧ ∀ h', h' ≠ h → ∀ groth16, verifyContractBoundProof groth16 h' args = .error .invalidProof

section Binds

variable {h : Bytes 32} {args : ProofArgs}

theorem verifyContractBoundProof_error {groth16 : Groth16Verifier} {e : ErrorCode}
    (he : verifyContractBoundProof groth16 h args = .error e) : e = .invalidProof := by
  simp only [verifyContractBoundProof, Batch.bind_eq_error, require_eq_error] at he
  rcases he with he | ⟨-, -, he | ⟨-, -, he⟩⟩ <;> exact he.2.symm

theorem binds_of_ok (hok : verifyContractBoundProof (fun _ _ _ _ => true) h args = .ok ()) :
    Binds h args := by
  refine ⟨hok, fun h' hne groth16 => ?_⟩
  rcases hr : verifyContractBoundProof groth16 h' args with e | u
  · rw [verifyContractBoundProof_error hr]
  · obtain ⟨h₂, h₃, h₀, h₁, -⟩ := verifyContractBoundProof_eq_ok.1 hr
    have hok' : verifyContractBoundProof (fun _ _ _ _ => true) h' args = .ok () :=
      verifyContractBoundProof_eq_ok.2 ⟨h₂, h₃, h₀, h₁, rfl⟩
    exact absurd (contractHash_eq_of_pubInputs hok' hok rfl).1 hne

/-- Arguments whose public inputs are the commitments and the numbers of the two halves. -/
theorem binds_of_inputs {n : Fin 4 → ℕ} (hlo : n 2 = (h.slice 0 16 (by decide)).toNat)
    (hhi : n 3 = (h.slice 16 16 (by decide)).toNat)
    (hkey : args.keyCommitment = .ofNat 32 (n 0))
    (hsig : args.signatureCommitment = .ofNat 32 (n 1))
    (hin : ∀ i, inputs args.pubInputs i = .ofNat 32 (n i)) : Binds h args := by
  obtain ⟨hl, hh⟩ := contractHashLimbs_toNat h
  refine binds_of_ok (verifyContractBoundProof_eq_ok.2 ⟨?_, ?_, ?_, ?_, rfl⟩)
  · rw [hin, hlo, ← hl, Bytes.ofNat_toNat]
  · rw [hin, hhi, ← hh, Bytes.ofNat_toNat]
  · rw [hin, hkey]
  · rw [hin, hsig]

end Binds

section Complete

variable {poseidon : List Fr → Fr} {P : Snarkjs} {k ts : ℕ}

/-- The half of a hash is below the field's order. -/
theorem val_half (b : Bytes 16) : ((b.toNat : ℕ) : Fr).val = b.toNat := by
  have hb := b.toNat_lt
  exact ZMod.val_cast_of_lt (lt_trans hb (by decide +kernel))

theorem natCast_val {m : ℕ} (hm : 0 < m ∧ m < scalarModulus) :
    (m : Fr).val = m ∧ (m : Fr) ≠ 0 := by
  have hval : (m : Fr).val = m := ZMod.val_cast_of_lt hm.2
  refine ⟨hval, fun h0 => ?_⟩
  rw [h0, ZMod.val_zero] at hval
  omega

/-- The proof of an input with a key and a time in range, and the bytes it is written as. -/
theorem Snarkjs.Complete.serialize (hP : P.Complete poseidon) (h : Bytes 32)
    (hk : 0 < k ∧ k < scalarModulus) (hts : 0 < ts ∧ ts < scalarModulus) :
    ∃ proof signals args, P.fullProve (.of k h (decimal ts)) = .ok (proof, signals)
      ∧ P.verify signals proof = true ∧ serializeProof proof signals = .ok args
      ∧ Binds h args := by
  have hlo := val_half (h.slice 0 16 (by decide))
  have hhi := val_half (h.slice 16 16 (by decide))
  obtain ⟨proof, hdec, hverify, hprove⟩ := hP k (h.slice 0 16 (by decide)).toNat
    (h.slice 16 16 (by decide)).toNat ts (natCast_val hk).2 (natCast_val hts).2
  rw [hlo, hhi] at hverify hprove
  rw [(natCast_val hk).1, (natCast_val hts).1] at hprove
  obtain ⟨args, hargs, hkey, hsig, hin⟩ := serializeProof_decimal hdec _
  exact ⟨proof, _, args, hprove, hverify, hargs, binds_of_inputs rfl rfl hkey hsig hin⟩

variable {sha256 : List UInt8 → Bytes 32} {secret : ByteSource} {contract : List UInt8}

theorem scalarModulus_gt : 2 ^ 248 < scalarModulus := by decide +kernel

/-- The input of a client meets the constraints of the circuit. -/
theorem satisfies_input (poseidon : List Fr → Fr) (h : Bytes 32)
    (hk : 0 < k ∧ k < scalarModulus) (hts : 0 < ts ∧ ts < scalarModulus) :
    ∃ key lo hi time : Fr, (CircuitInput.of k h (decimal ts)).fields = .ok (key, lo, hi, time)
      ∧ key ≠ 0 ∧ time ≠ 0
      ∧ Circuit.Satisfies (intentWitness poseidon key lo hi time) (oblividIntent poseidon) := by
  have hkey := (natCast_val hk).2
  have htime := (natCast_val hts).2
  refine ⟨k, (h.slice 0 16 (by decide)).toNat, (h.slice 16 16 (by decide)).toNat, ts, ?_, hkey,
    htime, satisfies_intentWitness hkey htime⟩
  simp only [CircuitInput.fields, CircuitInput.of, limbDecimals, bigInt_decimal, Batch.ok_bind,
    Int.cast_natCast]
  rfl

/-- The Node SDK's arguments. -/
theorem Sdk.generateProof_complete (hP : P.Complete poseidon)
    (hkey : deriveSignerKey sha256 secret (.ofBytes (sha256 contract).toList) = .ok (decimal k))
    (hk : 0 < k ∧ k < scalarModulus) (hts : 0 < ts ∧ ts < scalarModulus) :
    ∃ args, Sdk.generateProof sha256 P secret contract (decimal ts) = .ok (sha256 contract, args)
      ∧ Binds (sha256 contract) args := by
  obtain ⟨proof, signals, args, hprove, hverify, hargs, hbinds⟩ :=
    hP.serialize (sha256 contract) hk hts
  refine ⟨args, ?_, hbinds⟩
  simp only [generateProof, generateIntentProof, hkey, Sdk.circuitInput_eq, hprove, hverify, hargs,
    Batch.ok_bind, if_true]
  rfl

/-- The single-sign page's request, as the relay reads it. -/
theorem SignPage.requestText_complete (hP : P.Complete poseidon)
    (hkey : deriveSignerKey sha256 secret (.ofBytes (sha256 contract).toList) = .ok (decimal k))
    (hk : 0 < k ∧ k < scalarModulus) (hts : 0 < ts ∧ ts < scalarModulus) :
    ∃ text body args, SignPage.requestText sha256 P secret contract (decimal ts) = .ok text
      ∧ Relay.parseBody text = .ok body
      ∧ Relay.signRequest (some body) = .ok (sha256 contract, args)
      ∧ Binds (sha256 contract) args := by
  obtain ⟨proof, signals, args, hprove, -, hargs, hbinds⟩ :=
    hP.serialize (sha256 contract) hk hts
  have hall : (sha256 contract).toList.take 32 = (sha256 contract).toList :=
    List.take_of_length_le (by simp)
  refine ⟨_, _, args, ?_, Relay.parseBody_stringify _, Relay.signRequest_requestBody _ args, hbinds⟩
  simp only [requestText, SignPage.circuitInput_eq hkey, hprove, anchorProof, hargs, hall,
    Batch.ok_bind]
  rfl

/-- The multisig page's request, as the relay reads it. -/
theorem MultisigPage.requestText_complete (hP : P.Complete poseidon)
    (hkey : deriveSignerKey sha256 secret (.ofBytes (sha256 contract).toList) = .ok (decimal k))
    (hk : 0 < k ∧ k < scalarModulus) (hts : 0 < ts ∧ ts < scalarModulus) {t n : ℕ} (ht : 1 ≤ t)
    (htn : t ≤ n) (hn : n ≤ 255) :
    ∃ text body args, MultisigPage.requestText sha256 P secret contract (decimal ts) t n = .ok text
      ∧ Relay.parseBody text = .ok body
      ∧ Relay.multisigSignRequest (some body) = .ok ((t, n), sha256 contract, args)
      ∧ Binds (sha256 contract) args := by
  obtain ⟨proof, signals, args, hprove, -, hargs, hbinds⟩ :=
    hP.serialize (sha256 contract) hk hts
  have hall : hashContract sha256 contract = (sha256 contract).toList :=
    List.take_of_length_le (by simp)
  refine ⟨_, _, args, ?_, Relay.parseBody_stringify _,
    Relay.multisigSignRequest_requestBody _ args ht htn hn, hbinds⟩
  simp only [requestText, MultisigPage.circuitInput_eq hkey, hprove, grothPayload, hargs, hall,
    Batch.ok_bind]
  rfl

/-- Whenever a signer key can be derived: the inputs of the four clients meet the constraints of
the circuit, and the arguments of every client that submits bind the contract signed, behind the
request the relay reads where there is one. -/
theorem binding_complete (hP : P.Complete poseidon) {key : Text}
    (hkey : deriveSignerKey sha256 secret (.ofBytes (sha256 contract).toList) = .ok key)
    (hts : 0 < ts ∧ ts < scalarModulus) :
    (∃ input k lo hi time, input.fields = .ok (k, lo, hi, time)
      ∧ Sdk.circuitInput sha256 contract (decimal ts) key = .ok input
      ∧ BrowserSdk.circuitInput sha256 secret contract (decimal ts) = .ok input
      ∧ SignPage.circuitInput sha256 secret contract (decimal ts) = .ok input
      ∧ MultisigPage.circuitInput sha256 secret contract (decimal ts) = .ok input
      ∧ k ≠ 0 ∧ time ≠ 0
      ∧ Circuit.Satisfies (intentWitness poseidon k lo hi time) (oblividIntent poseidon))
    ∧ (∃ args, Sdk.generateProof sha256 P secret contract (decimal ts)
        = .ok (sha256 contract, args) ∧ Binds (sha256 contract) args)
    ∧ (∃ text body args, SignPage.requestText sha256 P secret contract (decimal ts) = .ok text
      ∧ Relay.parseBody text = .ok body
      ∧ Relay.signRequest (some body) = .ok (sha256 contract, args)
      ∧ Binds (sha256 contract) args)
    ∧ ∀ t n : ℕ, 1 ≤ t → t ≤ n → n ≤ 255 → ∃ text body args,
      MultisigPage.requestText sha256 P secret contract (decimal ts) t n = .ok text
        ∧ Relay.parseBody text = .ok body
        ∧ Relay.multisigSignRequest (some body) = .ok ((t, n), sha256 contract, args)
        ∧ Binds (sha256 contract) args := by
  obtain ⟨k, hpos, hlt, rfl⟩ := deriveSignerKey_eq_ok hkey
  have hk : 0 < k ∧ k < scalarModulus := ⟨hpos, hlt.trans scalarModulus_gt⟩
  obtain ⟨k', lo, hi, time, hfields, hk', htime, hsat⟩ :=
    satisfies_input poseidon (sha256 contract) hk hts
  refine ⟨⟨_, k', lo, hi, time, hfields, Sdk.circuitInput_eq, BrowserSdk.circuitInput_eq hkey,
    SignPage.circuitInput_eq hkey, MultisigPage.circuitInput_eq hkey, hk', htime, hsat⟩, ?_, ?_, ?_⟩
  · exact Sdk.generateProof_complete hP hkey hk hts
  · exact SignPage.requestText_complete hP hkey hk hts
  · exact fun t n => MultisigPage.requestText_complete hP hkey hk hts

end Complete

section Sample

/-- A prover for which Poseidon is the sum: it returns the signals and a proof of zeros. -/
def sampleProver : Snarkjs where
  fullProve input := do
    let (key, lo, hi, ts) ← input.fields
    let zero := decimal 0
    return (⟨(zero, zero), ((zero, zero), (zero, zero)), (zero, zero)⟩,
      fun i => decimal (![(List.sum [key]).val, (List.sum [key, lo, hi, ts]).val, lo.val,
        hi.val] i))
  verify _ _ := true

theorem complete_sample : sampleProver.Complete List.sum := by
  intro key lo hi ts _ _
  refine ⟨_, ⟨0, 0, 0, 0, 0, 0, 0, 0, rfl⟩, rfl, ?_⟩
  simp only [sampleProver, CircuitInput.fields, bigInt_decimal, Batch.ok_bind, Int.cast_natCast,
    ZMod.natCast_zmod_val]
  rfl

/-- The first 32 bytes, with 9 for those that are missing. -/
def sampleSha256 (l : List UInt8) : Bytes 32 :=
  ⟨(l ++ List.replicate 32 9).take 32, by simp⟩

def sampleSecret : ByteSource := .view 1 (List.replicate 32 7)

/-- A signature of an empty contract, through the relay. -/
theorem binding_complete_sample :
    ∃ text body args, SignPage.requestText sampleSha256 sampleProver sampleSecret [] (decimal 5)
        = .ok text
      ∧ Relay.parseBody text = .ok body
      ∧ Relay.signRequest (some body) = .ok (sampleSha256 [], args)
      ∧ Binds (sampleSha256 []) args := by
  have hkey : deriveSignerKey sampleSha256 sampleSecret (.ofBytes (sampleSha256 []).toList)
      = .ok (decimal
        196799318113128536280499055466580401353511202521316370465696927742354327817) := by
    rfl
  exact (binding_complete complete_sample hkey ⟨by decide, by decide +kernel⟩).2.2.1

end Sample

end Oblivia

import Mathlib.Data.UInt
import Oblivia.Chain.Provenance
import Oblivia.Lib.Locality
/-!
# Contracts do not interfere

Every account an instruction reads or writes is derived from the hash of its contract, directly or
through the contract's or an agreement's address, except for the registry, whose counters it only
adds to. So transactions on different contracts succeed or fail whatever the order, and lead to the
same store (`contracts_independent`).
-/

namespace Oblivia

open Finmap

variable (D : Pda)

/-- What is derived from the hash of a contract. -/
inductive Belongs (h : Bytes 32) : Derivation → Prop
  | contract : Belongs h (.contract h)
  | signature {c : Pubkey} {b : UInt8} {k sc : Bytes 32} (hc : D.derive (.contract h) b = some c) :
      Belongs h (.signature c k sc)
  | signerRecord {k : Bytes 32} : Belongs h (.signerRecord h k)
  | multisig {t n : UInt8} : Belongs h (.multisig h t n)
  | member {m : Pubkey} {b : UInt8} {t n : UInt8} {k : Bytes 32}
      (hm : D.derive (.multisig h t n) b = some m) : Belongs h (.member m k)

/-- The addresses derived from the hash of a contract, under any bumps. -/
def zone (h : Bytes 32) : Set Pubkey := {a | ∃ d b, Belongs D h d ∧ D.derive d b = some a}

/-- The addresses of a registry, under any bump. -/
def registryAddresses : Set Pubkey := {a | ∃ b, D.derive .registry b = some a}

/-- The contract slot of an instruction; the one that initializes the registry has none. -/
def Instruction.contractSlot : Instruction → Option AccountMeta
  | .initializeRegistry _ => none
  | .registerContract acc _ => some acc.contract
  | .submitSignature acc _ _ => some acc.contract
  | .verifySignature acc => some acc.contract
  | .createMultisig acc _ _ _ => some acc.contract
  | .submitMultisigSignature acc _ _ => some acc.contract
  | .verifyGroth16V2 acc _ => some acc.contract
  | .recordVerifiedMultisig acc _ _ => some acc.contract
  | .finalizeMultisig acc _ => some acc.contract

/-- The instruction names the contract account of hash `h`. -/
def Names (h : Bytes 32) (call : Call) : Prop :=
  ∃ m b, call.ix.contractSlot = some m ∧ D.derive (.contract h) b = some m.key

section Disjoint

variable {D} {h h' : Bytes 32} {d : Derivation}

theorem Belongs.unique (hd : Belongs D h d) (hd' : Belongs D h' d) : h = h' := by
  cases hd with
  | contract => cases hd'; rfl
  | signature hc =>
    cases hd' with
    | signature hc' => cases (Pda.derivation_inj hc hc').1; rfl
  | signerRecord => cases hd'; rfl
  | multisig => cases hd'; rfl
  | member hm =>
    cases hd' with
    | member hm' => cases (Pda.derivation_inj hm hm').1; rfl

theorem disjoint_zone (hne : h ≠ h') : Disjoint (zone D h) (zone D h') := by
  refine Set.disjoint_left.2 ?_
  rintro a ⟨d, b, hd, ha⟩ ⟨d', b', hd', ha'⟩
  rw [(Pda.derivation_inj ha' ha).1] at hd'
  exact hne (hd.unique hd')

theorem disjoint_registryAddresses (h : Bytes 32) : Disjoint (zone D h) (registryAddresses D) := by
  refine Set.disjoint_left.2 ?_
  rintro a ⟨d, b, hd, ha⟩ ⟨b', hb⟩
  rw [(Pda.derivation_inj ha hb).1] at hd
  cases hd

end Disjoint

section Raise

/-- The registry with its counters raised, modulo 2^64; other accounts as they are. -/
def Account.raise (d : UInt64 × UInt64) : Account → Account
  | .registry r => .registry { r with
      totalContracts := r.totalContracts + d.1, totalSignatures := r.totalSignatures + d.2 }
  | x => x

instance : AddAction (UInt64 × UInt64) Account where
  vadd := Account.raise
  zero_vadd x := by
    cases x <;> simp [HVAdd.hVAdd, Account.raise]
  add_vadd d e x := by
    cases x <;> simp [HVAdd.hVAdd, Account.raise, add_assoc, add_comm d.1, add_comm d.2]

def ContractRegistry.raise (d : UInt64 × UInt64) (r : ContractRegistry) : ContractRegistry :=
  { r with totalContracts := r.totalContracts + d.1, totalSignatures := r.totalSignatures + d.2 }

theorem vadd_registry (d : UInt64 × UInt64) (r : ContractRegistry) :
    d +ᵥ Account.registry r = .registry (r.raise d) := rfl

theorem registered_eq (r : ContractRegistry) :
    Account.registry r.registered = ((1, 0) : UInt64 × UInt64) +ᵥ Account.registry r := by
  simp [vadd_registry, ContractRegistry.raise, ContractRegistry.registered]

theorem signed_eq (r : ContractRegistry) :
    Account.registry r.signed = ((0, 1) : UInt64 × UInt64) +ᵥ Account.registry r := by
  simp [vadd_registry, ContractRegistry.raise, ContractRegistry.signed]

/-- The counters of the account, if it is the registry, are below their maximum. -/
def Account.hasRoom : Account → Bool
  | .registry r =>
    r.totalContracts ≠ 18446744073709551615 && r.totalSignatures ≠ 18446744073709551615
  | _ => true

def Room (s : Store) : Prop := ∀ a ∈ s.keys, (s.lookup a).all Account.hasRoom = true

instance (s : Store) : Decidable (Room s) := Finset.decidableDforallFinset

theorem Room.registry {s : Store} (h : Room s) {a : Pubkey} {r : ContractRegistry}
    (ha : s.lookup a = some (.registry r)) :
    r.totalContracts ≠ 18446744073709551615 ∧ r.totalSignatures ≠ 18446744073709551615 := by
  have hroom := h a (mem_keys.2 (mem_iff.2 ⟨_, ha⟩))
  simpa [ha, Account.hasRoom] using hroom

end Raise

section Step

variable {D} {groth16 : Groth16Verifier} {h : Bytes 32} {call : Call} {s t s' : Store}

theorem Fresh.mem_zone {rt : Runtime} {d : Derivation} {m : AccountMeta} {b : UInt8}
    (hf : Fresh D rt s d m b) (hd : Belongs D h d) : m.key ∈ zone D h :=
  ⟨d, b, hd, Pda.derive_of_find hf.address⟩

/-- The contract that an instruction names is the one it checks its accounts against. -/
theorem Names.eq {m : AccountMeta} {h' : Bytes 32} {b : UInt8} (hn : Names D h call)
    (hm : call.ix.contractSlot = some m) (hd : D.derive (.contract h') b = some m.key) :
    h' = h := by
  obtain ⟨m', b', hm', hd'⟩ := hn
  rw [hm, Option.some.injEq] at hm'
  subst hm'
  cases (Pda.derivation_inj hd hd').1
  rfl

variable (D) in
/-- Two stores on which an instruction naming the contract of hash `h` does the same: equal on what
is derived from `h`, with room in the second for what the registry is raised by. -/
structure Aligned (h : Bytes 32) (δ : Pubkey → UInt64 × UInt64) (s t : Store) : Prop where
  own : ∀ a ∈ zone D h, δ a = 0
  shifted : Batch.Shifted (zone D h ∪ registryAddresses D) δ s t
  room : Room t

variable (D) in
abbrev Alike (h : Bytes 32) (δ η : Pubkey → UInt64 × UInt64) (s t s' t' : Store) : Prop :=
  Batch.Matches (zone D h) (registryAddresses D) δ η s t s' t'

section Aligned

variable {δ : Pubkey → UInt64 × UInt64} {rt : Runtime} {a : Pubkey} {x : Account}

theorem Aligned.lookup_eq (hst : Aligned D h δ s t) (ha : a ∈ zone D h) :
    t.lookup a = s.lookup a :=
  hst.shifted.lookup_eq (.inl ha) (hst.own a ha)

theorem Aligned.found (hst : Aligned D h δ s t) {d : Derivation} {b : UInt8} (hd : Belongs D h d)
    (ha : D.derive d b = some a) (hx : s.lookup a = some x) : t.lookup a = some x :=
  (hst.lookup_eq ⟨d, b, hd, ha⟩).trans hx

theorem Aligned.registry (hst : Aligned D h δ s t) {b : UInt8} {r : ContractRegistry}
    (ha : D.derive .registry b = some a) (hr : s.lookup a = some (.registry r)) :
    t.lookup a = some (.registry (r.raise (δ a))) := by
  rw [hst.shifted a (.inr ⟨b, ha⟩), hr]
  rfl

theorem Aligned.fresh (hst : Aligned D h δ s t) {d : Derivation} {m : AccountMeta} {b : UInt8}
    (hd : Belongs D h d) (hf : Fresh D rt s d m b) : Fresh D rt t d m b :=
  ⟨hf.address, (hst.lookup_eq (hf.mem_zone hd)).trans hf.free, hf.funded, hf.writable⟩

theorem Aligned.refl (hst : Aligned D h δ s t) : Alike D h δ 0 s t s t := .refl hst.shifted

/-- Both sides write the same account. -/
theorem Aligned.write (hst : Aligned D h δ s t) {η : Pubkey → UInt64 × UInt64} {s' t' : Store}
    (hm : Alike D h δ η s t s' t') {d : Derivation} {b : UInt8} (hd : Belongs D h d)
    (ha : D.derive d b = some a) (x : Account) :
    Alike D h δ η s t (s'.insert a x) (t'.insert a x) :=
  hm.insert_own ⟨d, b, hd, ha⟩ (hst.own a ⟨d, b, hd, ha⟩) x

theorem RegisterGuard.alike {acc : RegisterContract} {r : ContractRegistry} {b : UInt8}
    (g : RegisterGuard D rt s acc h r b) (hst : Aligned D h δ s t) :
    ∃ t' η, exec D groth16 t ⟨rt, .registerContract acc h⟩ = .ok t'
      ∧ Alike D h δ η s t (registerStore rt s acc h r b) t' := by
  have hr := hst.registry g.registryAddress g.registry
  refine ⟨registerStore rt t acc h (r.raise (δ acc.registry.key)) b,
    Function.update 0 acc.registry.key (1, 0),
    exec_eq_ok.2 (.registerContract ⟨hr, g.registryAddress, g.registryMut,
      hst.fresh .contract g.contract, g.flags, g.nonzero, (hst.room.registry hr).1⟩), ?_⟩
  rw [registerStore, registerStore, registered_eq, registered_eq]
  exact (hst.write hst.refl .contract (Pda.derive_of_find g.contract.address) _).insert_shared
    ⟨_, g.registryAddress⟩ rfl g.registry hr (1, 0)

theorem CreateGuard.alike {acc : CreateMultiSig} {n m : UInt8} {c : Contract} {b : UInt8}
    (g : CreateGuard D rt s acc h n m c b) (hst : Aligned D h δ s t) :
    ∃ t' η, exec D groth16 t ⟨rt, .createMultisig acc h n m⟩ = .ok t'
      ∧ Alike D h δ η s t (createStore s acc n m b) t' := by
  refine ⟨createStore t acc n m b, 0, exec_eq_ok.2 (.createMultisig
    ⟨hst.found .contract g.contractAddress g.contract, g.contractAddress,
      hst.fresh .multisig g.multisig, g.flags, g.positive, g.bounded, g.active⟩), ?_⟩
  exact hst.write hst.refl .multisig (Pda.derive_of_find g.multisig.address) _

theorem VerifyGuard.alike {acc : VerifyGroth16V2} {args : ProofArgs} {r : ContractRegistry}
    {c : Contract} {sb rb : UInt8} (g : VerifyGuard D groth16 rt s acc args r c sb rb)
    (hst : Aligned D c.contractHash δ s t) :
    ∃ t' η, exec D groth16 t ⟨rt, .verifyGroth16V2 acc args⟩ = .ok t'
      ∧ Alike D c.contractHash δ η s t (verifyStore rt s acc args r c sb rb) t' := by
  have hr := hst.registry g.registryAddress g.registry
  have hsignature : Belongs D c.contractHash
      (.signature acc.contract.key args.keyCommitment args.signatureCommitment) :=
    .signature g.contractAddress
  refine ⟨verifyStore rt t acc args (r.raise (δ acc.registry.key)) c sb rb,
    Function.update 0 acc.registry.key (0, 1),
    exec_eq_ok.2 (.verifyGroth16V2 ⟨hr, g.registryAddress,
      hst.found .contract g.contractAddress g.contract, g.contractAddress, g.muts,
      hst.fresh hsignature g.signature, hst.fresh .signerRecord g.signerRecord, g.flags, g.proof,
      g.contractCount, (hst.room.registry hr).2⟩), ?_⟩
  rw [verifyStore, verifyStore, signed_eq, signed_eq]
  have hreceipt := hst.write hst.refl hsignature (Pda.derive_of_find g.signature.address)
    (.signature (newSignature rt acc args sb))
  have hrecord := hst.write hreceipt .signerRecord (Pda.derive_of_find g.signerRecord.address)
    (.signerRecord (newSignerRecord rt acc args rb))
  exact (hst.write hrecord .contract g.contractAddress _).insert_shared ⟨_, g.registryAddress⟩ rfl
    g.registry hr (0, 1)

theorem RecordGuard.alike {acc : RecordVerifiedMultiSig} {k : Bytes 32} {r : ContractRegistry}
    {c : Contract} {ms : MultiSigContract} {sr : SignerRecord} {sg : ObliviaSignature} {b : UInt8}
    (g : RecordGuard D rt s acc h k r c ms sr sg b) (hst : Aligned D h δ s t) :
    ∃ t' η, exec D groth16 t ⟨rt, .recordVerifiedMultisig acc h k⟩ = .ok t'
      ∧ Alike D h δ η s t (recordStore rt s acc k ms b) t' := by
  have hmember : Belongs D h (.member acc.multisig.key k) := .member g.multisigAddress
  refine ⟨recordStore rt t acc k ms b, 0, exec_eq_ok.2 (.recordVerifiedMultisig
    ⟨hst.registry g.registryAddress g.registry, g.registryAddress,
      hst.found .contract g.contractAddress g.contract, g.contractAddress,
      hst.found .multisig g.multisigAddress g.multisig, g.multisigAddress, g.multisigBound, g.muts,
      hst.found .signerRecord g.signerRecordAddress g.signerRecord, g.signerRecordAddress,
      g.signerRecordBound, g.signerRecordKey,
      hst.found (.signature g.contractAddress) g.signatureAddress g.signature, g.signatureAddress,
      g.signatureBound, g.signatureKey, hst.fresh hmember g.member, g.flags, g.active, g.pending,
      g.room, g.collected⟩), ?_⟩
  have hcount := hst.write hst.refl hmember (Pda.derive_of_find g.member.address)
    (.member (newMember rt acc k b))
  exact hst.write hcount .multisig g.multisigAddress _

theorem FinalizeGuard.alike {acc : FinalizeMultiSig} {c : Contract} {ms : MultiSigContract}
    (g : FinalizeGuard D s acc h c ms) (hst : Aligned D h δ s t) :
    ∃ t' η, exec D groth16 t ⟨rt, .finalizeMultisig acc h⟩ = .ok t'
      ∧ Alike D h δ η s t (finalizeStore rt s acc ms) t' := by
  refine ⟨finalizeStore rt t acc ms, 0, exec_eq_ok.2 (.finalizeMultisig
    ⟨hst.found .contract g.contractAddress g.contract, g.contractAddress,
      hst.found .multisig g.multisigAddress g.multisig, g.multisigAddress, g.multisigMut,
      g.pending, g.met⟩), ?_⟩
  exact hst.write hst.refl .multisig g.multisigAddress _

theorem VerifySignatureGuard.alike {acc : VerifySignature} {c : Contract} {sg : ObliviaSignature}
    (g : VerifySignatureGuard D s acc c sg) (hst : Aligned D c.contractHash δ s t) :
    ∃ t' η, exec D groth16 t ⟨rt, .verifySignature acc⟩ = .ok t'
      ∧ Alike D c.contractHash δ η s t s t' :=
  ⟨t, 0, exec_eq_ok.2 (.verifySignature ⟨hst.found .contract g.contractAddress g.contract,
    hst.found (.signature g.contractAddress) g.signatureAddress g.signature, g.contractAddress,
    g.signatureAddress, g.bound, g.active⟩), hst.refl⟩

end Aligned

/-- An instruction is local to the addresses derived from the contract it names; of the rest it
only reads the registry, and adds to its counters. -/
theorem Names.local (hn : Names D h call) :
    Batch.Local (zone D h) (registryAddresses D) Room (UInt64 × UInt64)
      (exec D groth16 · call) := by
  intro δ s t s' hδ hst hroom hx
  have hal : Aligned D h δ s t := ⟨hδ, hst, hroom⟩
  cases exec_eq_ok.1 hx with
  | initializeRegistry g =>
    obtain ⟨m, b, hm, -⟩ := hn
    cases hm
  | registerContract g =>
    obtain rfl := hn.eq rfl (Pda.derive_of_find g.contract.address)
    exact g.alike hal
  | verifySignature g =>
    obtain rfl := hn.eq rfl g.contractAddress
    exact g.alike hal
  | createMultisig g =>
    obtain rfl := hn.eq rfl g.contractAddress
    exact g.alike hal
  | verifyGroth16V2 g =>
    obtain rfl := hn.eq rfl g.contractAddress
    exact g.alike hal
  | recordVerifiedMultisig g =>
    obtain rfl := hn.eq rfl g.contractAddress
    exact g.alike hal
  | finalizeMultisig g =>
    obtain rfl := hn.eq rfl g.contractAddress
    exact g.alike hal

end Step

section Transactions

variable {D} {groth16 : Groth16Verifier} {h₁ h₂ : Bytes 32} {tx₁ tx₂ : List Call} {s : Store}

/-- The transaction passes no store in which a counter of the registry is at its maximum. -/
def Roomy (D : Pda) (groth16 : Groth16Verifier) (s : Store) (tx : List Call) : Prop :=
  ∀ e ∈ Batch.visits (exec D groth16) s tx, Room e.1

instance (s : Store) (tx : List Call) : Decidable (Roomy D groth16 s tx) :=
  inferInstanceAs (Decidable (∀ e ∈ _, _))

theorem independent_of_names (hne : h₁ ≠ h₂) (hn₁ : ∀ call ∈ tx₁, Names D h₁ call)
    (hn₂ : ∀ call ∈ tx₂, Names D h₂ call) :
    Batch.Independent (UInt64 × UInt64) (exec D groth16) (registryAddresses D) (zone D h₁)
      (zone D h₂) Room tx₁ tx₂ where
  left call hc := (hn₁ call hc).local
  right call hc := (hn₂ call hc).local
  disjoint := disjoint_zone hne
  own_left := disjoint_registryAddresses h₁
  own_right := disjoint_registryAddresses h₂

/-- Of two transactions on different contracts, each succeeds after the other exactly if it does
without it, and then leaves the same accounts of its contract; and both lead to the same store in
either order. -/
theorem contracts_independent (hne : h₁ ≠ h₂) (hn₁ : ∀ call ∈ tx₁, Names D h₁ call)
    (hn₂ : ∀ call ∈ tx₂, Names D h₂ call) (hr₁ : Roomy D groth16 s tx₁)
    (hr₂ : Roomy D groth16 s tx₂) (hr₂₁ : Roomy D groth16 (commit D groth16 s tx₂) tx₁)
    (hr₁₂ : Roomy D groth16 (commit D groth16 s tx₁) tx₂) :
    ((∃ t, Batch.exec (exec D groth16) (commit D groth16 s tx₂) tx₁ = .ok t)
      ↔ ∃ t, Batch.exec (exec D groth16) s tx₁ = .ok t)
    ∧ ((∃ t, Batch.exec (exec D groth16) (commit D groth16 s tx₁) tx₂ = .ok t)
      ↔ ∃ t, Batch.exec (exec D groth16) s tx₂ = .ok t)
    ∧ commit D groth16 (commit D groth16 s tx₁) tx₂ = commit D groth16 (commit D groth16 s tx₂) tx₁
    ∧ (∀ a ∈ zone D h₁, (commit D groth16 (commit D groth16 s tx₂) tx₁).lookup a
      = (commit D groth16 s tx₁).lookup a)
    ∧ ∀ a ∈ zone D h₂, (commit D groth16 (commit D groth16 s tx₁) tx₂).lookup a
      = (commit D groth16 s tx₂).lookup a := by
  have h : Batch.Independent _ (exec D groth16) _ _ _ _ tx₁ tx₂ :=
    independent_of_names hne hn₁ hn₂
  obtain ⟨-, -, hown₁, -⟩ := h.commit_shifted hr₂ hr₁ hr₂₁
  obtain ⟨-, -, hown₂, -⟩ := h.symm.commit_shifted hr₁ hr₂ hr₁₂
  exact ⟨h.exec_commit_iff hr₂ hr₁ hr₂₁, h.symm.exec_commit_iff hr₁ hr₂ hr₁₂,
    h.commit_comm hr₁ hr₂ hr₂₁ hr₁₂, hown₁, hown₂⟩

end Transactions

section Sample

def sampleHash' : Bytes 32 :=
  .ofNat 32 0x2122232425262728292a2b2c2d2e2f303132333435363738393a3b3c3d3e3f40

def sampleContract' : Pubkey :=
  .ofNat 32 0x57c255126a8f16ac81b806a76c2db3803108764a2616cda08a4468044e3d8b51

/-- The registry, two contracts, and an agreement on the first. -/
def samplePairPda : Pda :=
  .ofTable
    [(Derivation.registry.preimage 250, sampleRegistry),
      ((Derivation.contract sampleHash).preimage 255, sampleContract),
      ((Derivation.multisig sampleHash 2 3).preimage 254, sampleMultisig),
      ((Derivation.contract sampleHash').preimage 255, sampleContract')]
    (by decide +kernel)

/-- The first contract is registered and an agreement is created on it. -/
def sampleFirst : List Call :=
  ⟨sampleRuntime, .registerContract (.of sampleRegistry sampleContract samplePayer) sampleHash⟩
    :: sampleCreate

def sampleSecond : List Call :=
  [⟨sampleRuntime, .registerContract (.of sampleRegistry sampleContract' samplePayer) sampleHash'⟩]

def sampleStart : Store := run samplePairPda sampleVerifier ∅ (sampleSetup.take 1)

/-- Both registrations count, in either order. -/
theorem contracts_independent_sample :
    commit samplePairPda sampleVerifier
        (commit samplePairPda sampleVerifier sampleStart sampleFirst) sampleSecond
      = commit samplePairPda sampleVerifier
        (commit samplePairPda sampleVerifier sampleStart sampleSecond) sampleFirst := by
  have hfirst : ∀ call ∈ sampleFirst, Names samplePairPda sampleHash call := by
    simp only [sampleFirst, sampleCreate, List.mem_cons, List.not_mem_nil, or_false]
    rintro call (rfl | rfl)
    · exact ⟨_, 255, rfl, by decide +kernel⟩
    · exact ⟨_, 255, rfl, by decide +kernel⟩
  have hsecond : ∀ call ∈ sampleSecond, Names samplePairPda sampleHash' call := by
    simp only [sampleSecond, List.mem_singleton]
    rintro call rfl
    exact ⟨_, 255, rfl, by decide +kernel⟩
  exact (contracts_independent (by decide +kernel) hfirst hsecond (by decide +kernel)
    (by decide +kernel) (by decide +kernel) (by decide +kernel)).2.2.1

end Sample

end Oblivia

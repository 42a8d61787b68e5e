import Oblivia.Chain.Provenance
/-!
# Signing an agreement

The transaction that verifies a signature and counts it succeeds exactly when the agreement is
open, the key has not signed the contract, and the proof is accepted (`combined_sign`). So a list
of such transactions acts on a fresh agreement as a quorum taking keys, and the order of the
co-signers does not matter (`cosigners_commute`).
-/

namespace Oblivia

open Finmap

variable {D : Pda} {groth16 : Groth16Verifier} {s : Store}

namespace SignAccounts

variable {hash : Bytes 32} {t n : UInt8} {proof : ProofArgs}
  (A : SignAccounts D hash t n proof.keyCommitment proof.signatureCommitment)

/-- The agreement with one more key, finalized when that meets the threshold. -/
def counted (rt : Runtime) (ms : MultiSigContract) : MultiSigContract where
  contract := ms.contract
  threshold := ms.threshold
  signaturesCollected := ms.signaturesCollected + 1
  maxSigners := ms.maxSigners
  finalized := ms.signaturesCollected + 1 = ms.threshold
  finalizedAt := if ms.signaturesCollected + 1 = ms.threshold then rt.now else ms.finalizedAt
  bump := ms.bump

/-- The store with the receipt, the signer record and the member created, and the three counters
one up. -/
def signedStore (rt : Runtime) (s : Store) (r : ContractRegistry) (c : Contract)
    (ms : MultiSigContract) : Store :=
  (((((s.insert A.signature.1 (.signature {
        keyCommitment := proof.keyCommitment
        signatureCommitment := proof.signatureCommitment
        contract := A.contract.1
        timestamp := rt.now
        bump := A.signature.2 })).insert A.signerRecord.1 (.signerRecord {
        contract := A.contract.1
        keyCommitment := proof.keyCommitment
        timestamp := rt.now
        bump := A.signerRecord.2 })).insert A.contract.1 (.contract {
        c with signatureCount := c.signatureCount + 1 })).insert A.registry.1 (.registry {
        r with totalSignatures := r.totalSignatures + 1 })).insert A.member.1 (.member {
        multisig := A.multisig.1
        keyCommitment := proof.keyCommitment
        timestamp := rt.now
        bump := A.member.2 })).insert A.multisig.1 (.multisig (counted rt ms))

/-- What the combined transaction needs. -/
structure Signable (groth16 : Groth16Verifier) (rt : Runtime) (s : Store) (r : ContractRegistry)
    (c : Contract) (ms : MultiSigContract) : Prop where
  registry : s.lookup A.registry.1 = some (.registry r)
  contract : s.lookup A.contract.1 = some (.contract c)
  multisig : s.lookup A.multisig.1 = some (.multisig ms)
  pending : ms.finalized = false
  unsigned : s.lookup A.signerRecord.1 = none
  proof : verifyContractBoundProof groth16 hash proof = .ok ()
  funded : rt.payerFunded = true
  contractCount : c.signatureCount ≠ 18446744073709551615
  registryCount : r.totalSignatures ≠ 18446744073709551615

end SignAccounts

theorem Pda.find_ne {d d' : Derivation} {p p' : Pubkey × UInt8}
    (h : D.findProgramAddress d = some p) (h' : D.findProgramAddress d' = some p')
    (hd : d ≠ d') : p.1 ≠ p'.1 := by
  intro hp
  obtain ⟨a, b⟩ := p
  obtain ⟨a', b'⟩ := p'
  obtain rfl : a = a' := hp
  exact hd (Pda.find_inj h h')

namespace SignAccounts

variable {hash : Bytes 32} {t n : UInt8} {proof : ProofArgs}
  {A : SignAccounts D hash t n proof.keyCommitment proof.signatureCommitment} {rt : Runtime}
  {r : ContractRegistry} {c : Contract} {ms : MultiSigContract} {payer : Pubkey}

/-- A key without a signer record has no receipt on the contract. -/
theorem Signable.no_receipt (hs : Sound D s) (g : A.Signable groth16 rt s r c ms) {a : Pubkey}
    {sg : ObliviaSignature} : ¬ ReceiptFor D s hash proof.keyCommitment a sg := by
  intro hr
  obtain ⟨sr, ⟨a, b, hf, ha⟩, -⟩ := hr.record hs
  rw [A.signerRecord_eq, Option.some.injEq] at hf
  have hu := g.unsigned
  rw [hf, ha] at hu
  cases hu

theorem Signable.signature_free (hs : Sound D s) (g : A.Signable groth16 rt s r c ms) :
    s.lookup A.signature.1 = none := by
  refine Option.eq_none_iff_forall_ne_some.2 fun x hx => ?_
  obtain ⟨sg, rfl, hc, hk⟩ := hs.signature_of_lookup A.signature_eq hx
  exact g.no_receipt hs ⟨hx, hk, A.contract.2, by rw [hc]; exact A.contract_eq⟩

/-- Nor is it a member of the agreement. -/
theorem Signable.member_free (hs : Sound D s) (g : A.Signable groth16 rt s r c ms)
    (hbound : ms.contract = A.contract.1) : s.lookup A.member.1 = none := by
  refine Option.eq_none_iff_forall_ne_some.2 fun x hx => ?_
  obtain ⟨mm, rfl, hm, hk⟩ := hs.member_of_lookup A.member_eq hx
  cases hs.placed _ _ hx with
  | @member _ ms' sg ga hms _ hsg hcon hkey =>
    rw [hm, g.multisig, Option.some.injEq, Account.multisig.injEq] at hms
    exact g.no_receipt hs ⟨hsg, hkey.trans hk, A.contract.2,
      by rw [hcon, ← hms, hbound]; exact A.contract_eq⟩

/-- The agreement's account carries the settings of its address, and names the contract. -/
theorem multisig_settings (hs : Sound D s) (h : s.lookup A.multisig.1 = some (.multisig ms)) :
    ms.threshold = t ∧ ms.maxSigners = n ∧ ms.contract = A.contract.1
      ∧ D.derive (.multisig hash ms.threshold ms.maxSigners) ms.bump = some A.multisig.1 := by
  cases hs.placed _ _ h with
  | @multisig _ c' hcon hadr =>
    have hd := Pda.find_inj hadr A.multisig_eq
    rw [Derivation.multisig.injEq] at hd
    rw [hd.1] at hadr
    refine ⟨hd.2.1, hd.2.2, ?_, Pda.derive_of_find hadr⟩
    cases hs.placed _ _ hcon with
    | contract hc _ _ =>
      rw [hd.1, A.contract_eq, Option.some.injEq] at hc
      rw [hc]

theorem contract_facts (hs : Sound D s) (h : s.lookup A.contract.1 = some (.contract c)) :
    c.contractHash = hash ∧ c.active = true
      ∧ D.derive (.contract hash) c.bump = some A.contract.1 := by
  have hh := (hs.placed _ _ h).contractHash_eq (Pda.derive_of_find A.contract_eq)
  cases hs.placed _ _ h with
  | contract hc ha _ =>
    rw [hh] at hc
    exact ⟨hh, ha, Pda.derive_of_find hc⟩

theorem registry_address (hs : Sound D s) (h : s.lookup A.registry.1 = some (.registry r)) :
    D.derive .registry r.bump = some A.registry.1 := by
  cases hs.placed _ _ h with
  | registry hr => exact Pda.derive_of_find hr

/-- The first instruction is accepted. -/
theorem Signable.verifyGuard (hs : Sound D s) (g : A.Signable groth16 rt s r c ms) :
    VerifyGuard D groth16 rt s (A.verify payer) proof r c A.signature.2 A.signerRecord.2 := by
  obtain ⟨hh, -, hadr⟩ := contract_facts hs g.contract
  exact {
    registry := g.registry
    registryAddress := registry_address hs g.registry
    contract := g.contract
    contractAddress := hh.symm ▸ hadr
    muts := ⟨rfl, rfl⟩
    signature := ⟨A.signature_eq, g.signature_free hs, g.funded, rfl⟩
    signerRecord := ⟨hh.symm ▸ A.signerRecord_eq, g.unsigned, g.funded, rfl⟩
    flags := ⟨rfl, rfl, rfl⟩
    proof := hh.symm ▸ g.proof
    contractCount := g.contractCount
    registryCount := g.registryCount }

/-- The accounts of the transaction other than those the first instruction writes. -/
theorem lookup_multisig {sb rb : UInt8} :
    (verifyStore rt s (A.verify payer) proof r c sb rb).lookup A.multisig.1
      = s.lookup A.multisig.1 :=
  lookup_verifyStore_other (Pda.find_ne A.multisig_eq A.registry_eq (by simp))
    (Pda.find_ne A.multisig_eq A.contract_eq (by simp))
    (Pda.find_ne A.multisig_eq A.signerRecord_eq (by simp))
    (Pda.find_ne A.multisig_eq A.signature_eq (by simp))

theorem lookup_member {sb rb : UInt8} :
    (verifyStore rt s (A.verify payer) proof r c sb rb).lookup A.member.1
      = s.lookup A.member.1 :=
  lookup_verifyStore_other (Pda.find_ne A.member_eq A.registry_eq (by simp))
    (Pda.find_ne A.member_eq A.contract_eq (by simp))
    (Pda.find_ne A.member_eq A.signerRecord_eq (by simp))
    (Pda.find_ne A.member_eq A.signature_eq (by simp))

/-- The second instruction is accepted after the first. -/
theorem Signable.recordGuard (hs : Sound D s) (ht : Tallied D s A.multisig.1)
    (g : A.Signable groth16 rt s r c ms) :
    RecordGuard D rt (verifyStore rt s (A.verify payer) proof r c A.signature.2 A.signerRecord.2)
      (A.record payer) hash proof.keyCommitment r.signed c.signed ms
      (newSignerRecord rt (A.verify payer) proof A.signerRecord.2)
      (newSignature rt (A.verify payer) proof A.signature.2) A.member.2 := by
  have gv : VerifyGuard D groth16 rt s (A.verify payer) proof r c _ _ := g.verifyGuard hs
  obtain ⟨-, hact, hadr⟩ := contract_facts hs g.contract
  obtain ⟨-, -, hbound, hmadr⟩ := multisig_settings hs g.multisig
  obtain ⟨hroom, hmax⟩ := ht.room g.multisig g.pending
  have hreg := registry_address hs g.registry
  exact {
    registry := lookup_verifyStore_registry
    registryAddress := hreg
    contract := gv.lookup_contract
    contractAddress := hadr
    multisig := lookup_multisig.trans g.multisig
    multisigAddress := hmadr
    multisigBound := hbound
    muts := ⟨rfl, rfl, rfl⟩
    signerRecord := gv.lookup_signerRecord
    signerRecordAddress := Pda.derive_of_find A.signerRecord_eq
    signerRecordBound := rfl
    signerRecordKey := rfl
    signature := gv.lookup_signature
    signatureAddress := Pda.derive_of_find A.signature_eq
    signatureBound := rfl
    signatureKey := rfl
    member := ⟨A.member_eq, lookup_member.trans (g.member_free hs hbound), g.funded, rfl⟩
    flags := ⟨rfl, rfl, rfl⟩
    active := hact
    pending := g.pending
    room := hroom
    collected := hmax }

theorem counted_eq (ht : Tallied D s A.multisig.1)
    (h : s.lookup A.multisig.1 = some (.multisig ms)) (hf : ms.finalized = false) :
    ms.counted rt = counted rt ms := by
  obtain ⟨q, hq⟩ := ht.agreement ms h
  obtain ⟨-, hmax⟩ := ht.room h hf
  have hle := hq.collected_le
  have hne : ms.signaturesCollected ≠ ms.threshold := fun h => by
    rw [hq.finalized_iff.2 h] at hf
    cases hf
  have hiff : ms.threshold ≤ ms.signaturesCollected + 1
      ↔ ms.signaturesCollected + 1 = ms.threshold := by
    rw [UInt8.le_iff_toNat_le] at hle ⊢
    rw [← UInt8.toNat_inj, toNat_add_one_u8 hmax]
    rw [Ne, ← UInt8.toNat_inj] at hne
    omega
  unfold MultiSigContract.counted collect counted
  by_cases hc : ms.signaturesCollected + 1 = ms.threshold
  · rw [if_pos (hiff.2 hc), if_pos hc, decide_eq_true hc]
  · rw [if_neg fun h => hc (hiff.1 h), if_neg hc, decide_eq_false hc, ← hf]

theorem Signable.signedStore_eq (ht : Tallied D s A.multisig.1)
    (g : A.Signable groth16 rt s r c ms) :
    recordStore rt (verifyStore rt s (A.verify payer) proof r c A.signature.2 A.signerRecord.2)
      (A.record payer) proof.keyCommitment ms A.member.2 = A.signedStore rt s r c ms := by
  rw [recordStore, counted_eq ht g.multisig g.pending]
  rfl

theorem Signable.exec_transaction (hs : Reachable D groth16 s)
    (g : A.Signable groth16 rt s r c ms) :
    Batch.exec (exec D groth16) s (A.transaction payer rt) = .ok (A.signedStore rt s r c ms) := by
  have ht := hs.tallied A.multisig.1
  have gv : VerifyGuard D groth16 rt s (A.verify payer) proof r c _ _ := g.verifyGuard hs.sound
  refine Batch.exec_cons_ok.2 ⟨_, exec_eq_ok.2 (.verifyGroth16V2 gv), Batch.exec_cons_ok.2
    ⟨_, exec_eq_ok.2 (.recordVerifiedMultisig (g.recordGuard hs.sound ht)), ?_⟩⟩
  rw [Batch.exec, Except.ok.injEq, g.signedStore_eq ht]

/-- The transaction succeeds exactly on what it needs, and leaves the signed store. -/
theorem exec_transaction_eq_ok (hs : Reachable D groth16 s) {s' : Store} :
    Batch.exec (exec D groth16) s (A.transaction payer rt) = .ok s'
      ↔ ∃ r c ms, A.Signable groth16 rt s r c ms ∧ A.signedStore rt s r c ms = s' := by
  constructor
  · intro hx
    obtain ⟨s₁, hv, hx'⟩ := Batch.exec_cons_ok.1 hx
    obtain ⟨s₂, hr, -⟩ := Batch.exec_cons_ok.1 hx'
    cases exec_eq_ok.1 hv with
    | @verifyGroth16V2 _ _ _ r c sb rb g =>
      cases exec_eq_ok.1 hr with
      | @recordVerifiedMultisig _ _ _ _ r' c' ms sr sg b g' =>
        have hms : s.lookup A.multisig.1 = some (.multisig ms) :=
          lookup_multisig.symm.trans g'.multisig
        obtain ⟨hh, -, -⟩ := contract_facts hs.sound g.contract
        have hg : A.Signable groth16 rt s r c ms := ⟨g.registry, g.contract, hms, g'.pending,
          g.signerRecord.free, hh ▸ g.proof, g.signature.funded, g.contractCount, g.registryCount⟩
        rw [hg.exec_transaction hs, Except.ok.injEq] at hx
        exact ⟨r, c, ms, hg, hx⟩
  · rintro ⟨r, c, ms, g, rfl⟩
    exact g.exec_transaction hs

end SignAccounts

section Acceptance

variable {hash : Bytes 32} {t n : UInt8} {proof : ProofArgs}
  {A : SignAccounts D hash t n proof.keyCommitment proof.signatureCommitment} {rt : Runtime}

theorem storedAt_iff {d : Derivation} {p : Pubkey × UInt8} {x : Account}
    (h : D.findProgramAddress d = some p) : StoredAt D s d x ↔ s.lookup p.1 = some x := by
  constructor
  · rintro ⟨a, b, hf, hx⟩
    rw [h, Option.some.injEq] at hf
    rwa [hf]
  · exact fun hx => ⟨p.1, p.2, h, hx⟩

/-- What the transaction needs, said of the accounts by their derivations. -/
theorem signable_iff (hs : Reachable D groth16 s) :
    (∃ r c ms, A.Signable groth16 rt s r c ms) ↔
      (∃ r, StoredAt D s .registry (.registry r) ∧ r.totalSignatures ≠ 18446744073709551615)
        ∧ (∃ c, StoredAt D s (.contract hash) (.contract c)
          ∧ c.signatureCount ≠ 18446744073709551615)
        ∧ (∃ ms, StoredAt D s (.multisig hash t n) (.multisig ms) ∧ ms.finalized = false)
        ∧ (∀ sr, ¬ StoredAt D s (.signerRecord hash proof.keyCommitment) (.signerRecord sr))
        ∧ verifyContractBoundProof groth16 hash proof = .ok () ∧ rt.payerFunded = true := by
  simp only [storedAt_iff A.registry_eq, storedAt_iff A.contract_eq, storedAt_iff A.multisig_eq,
    storedAt_iff A.signerRecord_eq]
  constructor
  · rintro ⟨r, c, ms, g⟩
    exact ⟨⟨r, g.registry, g.registryCount⟩, ⟨c, g.contract, g.contractCount⟩,
      ⟨ms, g.multisig, g.pending⟩, fun sr => by simp [g.unsigned], g.proof, g.funded⟩
  · rintro ⟨⟨r, hr, hrc⟩, ⟨c, hc, hcc⟩, ⟨ms, hms, hf⟩, hsr, hp, hfund⟩
    refine ⟨r, c, ms, hr, hc, hms, hf, Option.eq_none_iff_forall_ne_some.2 fun x hx => ?_, hp,
      hfund, hcc, hrc⟩
    obtain ⟨sr, rfl⟩ := hs.sound.signerRecord_of_lookup A.signerRecord_eq hx
    exact hsr sr hx

end Acceptance

/-- The combined transaction of the SDK or the relay, on a reachable store: it succeeds exactly when
the registry and the contract are there with room in their counters, the agreement is there and
open, the key has no signer record, the proof is accepted and the payer is funded; then it leaves
the signed store, and otherwise the store as it was. -/
theorem combined_sign (txs : List (List Call)) {hash : Bytes 32} {t n : UInt8} {payer : Pubkey}
    {rt : Runtime} {proof : ProofArgs} {tx : List Call}
    (htx : Sdk.submitVerifiedMultiSig D payer rt hash t.toNat n.toNat proof = .ok tx
      ∨ Relay.multisigSign D payer rt hash t.toNat n.toNat proof = .ok tx) :
    ((∃ s', Batch.exec (exec D groth16) (run D groth16 ∅ txs) tx = .ok s') ↔
      (∃ r, StoredAt D (run D groth16 ∅ txs) .registry (.registry r)
          ∧ r.totalSignatures ≠ 18446744073709551615)
        ∧ (∃ c, StoredAt D (run D groth16 ∅ txs) (.contract hash) (.contract c)
          ∧ c.signatureCount ≠ 18446744073709551615)
        ∧ (∃ ms, StoredAt D (run D groth16 ∅ txs) (.multisig hash t n) (.multisig ms)
          ∧ ms.finalized = false)
        ∧ (∀ sr, ¬ StoredAt D (run D groth16 ∅ txs) (.signerRecord hash proof.keyCommitment)
          (.signerRecord sr))
        ∧ verifyContractBoundProof groth16 hash proof = .ok () ∧ rt.payerFunded = true)
    ∧ (∀ s', Batch.exec (exec D groth16) (run D groth16 ∅ txs) tx = .ok s' →
        commit D groth16 (run D groth16 ∅ txs) tx = s'
          ∧ ∃ (A : SignAccounts D hash t n proof.keyCommitment proof.signatureCommitment)
              (r : ContractRegistry) (c : Contract) (ms : MultiSigContract),
            StoredAt D (run D groth16 ∅ txs) .registry (.registry r)
              ∧ StoredAt D (run D groth16 ∅ txs) (.contract hash) (.contract c)
              ∧ StoredAt D (run D groth16 ∅ txs) (.multisig hash t n) (.multisig ms)
              ∧ ms.threshold = t ∧ s' = A.signedStore rt (run D groth16 ∅ txs) r c ms)
    ∧ ∀ e, Batch.exec (exec D groth16) (run D groth16 ∅ txs) tx = .error e →
        commit D groth16 (run D groth16 ∅ txs) tx = run D groth16 ∅ txs := by
  have hs : Reachable D groth16 (run D groth16 ∅ txs) := ⟨txs, rfl⟩
  have hsdk := htx.elim id multisigSign_eq_ok.1
  obtain ⟨-, -, A, rfl⟩ := submitVerifiedMultiSig_eq_ok.1 hsdk
  refine ⟨?_, fun s' hx => ⟨Batch.commit_of_ok hx, ?_⟩, fun e => Batch.commit_of_error⟩
  · rw [← signable_iff (A := A) hs]
    constructor
    · rintro ⟨s', hx⟩
      obtain ⟨r, c, ms, g, -⟩ := (SignAccounts.exec_transaction_eq_ok hs).1 hx
      exact ⟨r, c, ms, g⟩
    · rintro ⟨r, c, ms, g⟩
      exact ⟨_, g.exec_transaction hs⟩
  · obtain ⟨r, c, ms, g, rfl⟩ := (SignAccounts.exec_transaction_eq_ok hs).1 hx
    exact ⟨A, r, c, ms, (storedAt_iff A.registry_eq).2 g.registry,
      (storedAt_iff A.contract_eq).2 g.contract, (storedAt_iff A.multisig_eq).2 g.multisig,
      (SignAccounts.multisig_settings hs.sound g.multisig).1, rfl⟩

/-- The first key signs the new agreement of the sample. -/
theorem combined_sign_sample : ∃ s', Batch.exec (exec samplePda sampleVerifier)
    (run samplePda sampleVerifier ∅ sampleSetup) (sampleSign 1) = .ok s' := by
  have htx : Sdk.submitVerifiedMultiSig samplePda samplePayer sampleRuntime sampleHash
      (2 : UInt8).toNat (3 : UInt8).toNat (sampleProof 1) = .ok (sampleSign 1) := by
    decide +kernel
  have hrec : (samplePda.findProgramAddress (.signerRecord sampleHash (sampleKey 1))).bind
      (fun p => (run samplePda sampleVerifier ∅ sampleSetup).lookup p.1) = none := by
    decide +kernel
  refine (combined_sign sampleSetup (.inl htx)).1.2 ⟨?_, ?_, ?_, ?_, by decide +kernel, rfl⟩
  · exact ⟨⟨samplePayer, 1, 0, 250⟩, ⟨sampleRegistry, 250, by decide +kernel, by decide +kernel⟩,
      by decide⟩
  · exact ⟨⟨sampleHash, 1700000000, 0, true, 255⟩,
      ⟨sampleContract, 255, by decide +kernel, by decide +kernel⟩, by decide⟩
  · exact ⟨⟨sampleContract, 2, 0, 3, false, 0, 254⟩,
      ⟨sampleMultisig, 254, by decide +kernel, by decide +kernel⟩, rfl⟩
  · rintro sr ⟨a, b, hf, hx⟩
    rw [show (sampleProof 1).keyCommitment = sampleKey 1 from rfl] at hf
    rw [hf, Option.bind_some, hx] at hrec
    cases hrec

/-- A combined transaction for the agreement `(hash, t, n)`, whose payer is funded. -/
structure CoSigner (D : Pda) (hash : Bytes 32) (t n : UInt8) where
  proof : ProofArgs
  accounts : SignAccounts D hash t n proof.keyCommitment proof.signatureCommitment
  payer : Pubkey
  rt : Runtime
  funded : rt.payerFunded = true

namespace CoSigner

variable {hash : Bytes 32} {t n : UInt8}

def transaction (x : CoSigner D hash t n) : List Call := x.accounts.transaction x.payer x.rt

def accepted (groth16 : Groth16Verifier) (x : CoSigner D hash t n) : Bool :=
  verifyContractBoundProof groth16 hash x.proof = .ok ()

/-- The keys whose proofs are accepted. -/
def acceptedKeys (groth16 : Groth16Verifier) (xs : List (CoSigner D hash t n)) :
    List (Bytes 32) := (xs.filter (·.accepted groth16)).map (·.proof.keyCommitment)

end CoSigner

/-- The store holds the agreement as the quorum `q`, all of whose keys signed the contract for it,
and the registry has room for the keys to come. -/
structure Collecting (D : Pda) (groth16 : Groth16Verifier) (hash : Bytes 32) (t n : UInt8)
    (s : Store) (q : Quorum (Bytes 32)) : Prop where
  reachable : Reachable D groth16 s
  registry : ∃ r, StoredAt D s .registry (.registry r)
    ∧ r.totalSignatures.toNat + (q.threshold - q.keys.card) < 2 ^ 64
  contract : ∃ c, StoredAt D s (.contract hash) (.contract c)
    ∧ c.signatureCount.toNat = q.keys.card
  multisig : ∃ m ms, D.findProgramAddress (.multisig hash t n) = some m
    ∧ s.lookup m.1 = some (.multisig ms) ∧ Represents s m.1 ms q
  records : ∀ k, (∃ sr, StoredAt D s (.signerRecord hash k) (.signerRecord sr)) ↔ k ∈ q.keys

section Collecting

variable {hash : Bytes 32} {t n : UInt8} {q q' : Quorum (Bytes 32)}

/-- An accepted proof of a key the quorum takes is what the transaction needs. -/
theorem Collecting.signable (h : Collecting D groth16 hash t n s q) (x : CoSigner D hash t n)
    (ha : x.accepted groth16 = true) (hk : q.sign x.proof.keyCommitment = some q') :
    ∃ r c ms, x.accounts.Signable groth16 x.rt s r c ms
      ∧ r.totalSignatures.toNat + (q.threshold - q.keys.card) < 2 ^ 64
      ∧ c.signatureCount.toNat = q.keys.card ∧ Represents s x.accounts.multisig.1 ms q := by
  obtain ⟨hk, hc, -, -⟩ := Quorum.sign_eq_some.1 hk
  obtain ⟨r, hr, hroom⟩ := h.registry
  obtain ⟨c, hcon, hcount⟩ := h.contract
  obtain ⟨m, ms, hm, hms, hq⟩ := h.multisig
  rw [x.accounts.multisig_eq, Option.some.injEq] at hm
  subst hm
  refine ⟨r, c, ms, ⟨(storedAt_iff x.accounts.registry_eq).1 hr,
    (storedAt_iff x.accounts.contract_eq).1 hcon, hms, ?_, ?_, of_decide_eq_true ha, x.funded, ?_,
    ?_⟩, hroom, hcount, hq⟩
  · rw [← Bool.not_eq_true, hq.finalized]
    exact hc
  · refine Option.eq_none_iff_forall_ne_some.2 fun y hy => ?_
    obtain ⟨sr, rfl⟩ := h.reachable.sound.signerRecord_of_lookup x.accounts.signerRecord_eq hy
    exact hk ((h.records _).1 ⟨sr, (storedAt_iff x.accounts.signerRecord_eq).2 hy⟩)
  · intro hmax
    have hb := q.bounded
    have ht := hq.threshold
    have := ms.threshold.toNat_lt
    rw [hmax] at hcount
    simp only [UInt64.reduceToNat] at hcount
    omega
  · intro hmax
    have hb := q.bounded
    have hne : q.keys.card ≠ q.threshold := hc
    rw [hmax] at hroom
    simp only [UInt64.reduceToNat] at hroom
    omega

/-- A transaction that has what it needs is an accepted proof of a key the quorum takes. -/
theorem Collecting.sign (h : Collecting D groth16 hash t n s q) (x : CoSigner D hash t n)
    {r : ContractRegistry} {c : Contract} {ms : MultiSigContract}
    (g : x.accounts.Signable groth16 x.rt s r c ms) :
    x.accepted groth16 = true ∧ ∃ q', q.sign x.proof.keyCommitment = some q' := by
  refine ⟨decide_eq_true g.proof, Option.ne_none_iff_exists'.1 fun hn => ?_⟩
  rcases Quorum.sign_eq_none.1 hn with hk | hc
  · obtain ⟨sr, hsr⟩ := (h.records _).2 hk
    have hu := g.unsigned
    rw [(storedAt_iff x.accounts.signerRecord_eq).1 hsr] at hu
    cases hu
  · obtain ⟨m, ms', hm, hms, hq⟩ := h.multisig
    rw [x.accounts.multisig_eq, Option.some.injEq] at hm
    rw [← hm, g.multisig, Option.some.injEq, Account.multisig.injEq] at hms
    rw [← hq.finalized, ← hms, g.pending] at hc
    cases hc

section Signed

variable {proof : ProofArgs}
  {A : SignAccounts D hash t n proof.keyCommitment proof.signatureCommitment} {rt : Runtime}
  {r : ContractRegistry} {c : Contract} {ms : MultiSigContract}

theorem lookup_signedStore_registry : (A.signedStore rt s r c ms).lookup A.registry.1
    = some (.registry { r with totalSignatures := r.totalSignatures + 1 }) := by
  rw [SignAccounts.signedStore,
    lookup_insert_of_ne _ (Pda.find_ne A.registry_eq A.multisig_eq (by simp)),
    lookup_insert_of_ne _ (Pda.find_ne A.registry_eq A.member_eq (by simp)), lookup_insert]

theorem lookup_signedStore_contract : (A.signedStore rt s r c ms).lookup A.contract.1
    = some (.contract { c with signatureCount := c.signatureCount + 1 }) := by
  rw [SignAccounts.signedStore,
    lookup_insert_of_ne _ (Pda.find_ne A.contract_eq A.multisig_eq (by simp)),
    lookup_insert_of_ne _ (Pda.find_ne A.contract_eq A.member_eq (by simp)),
    lookup_insert_of_ne _ (Pda.find_ne A.contract_eq A.registry_eq (by simp)), lookup_insert]

theorem lookup_signedStore_multisig : (A.signedStore rt s r c ms).lookup A.multisig.1
    = some (.multisig (SignAccounts.counted rt ms)) := by
  rw [SignAccounts.signedStore, lookup_insert]

/-- The signer records after signing: the key's own, and those that were there. -/
theorem storedAt_signedStore {k : Bytes 32} :
    (∃ sr, StoredAt D (A.signedStore rt s r c ms) (.signerRecord hash k) (.signerRecord sr))
      ↔ k = proof.keyCommitment
        ∨ ∃ sr, StoredAt D s (.signerRecord hash k) (.signerRecord sr) := by
  by_cases hk : k = proof.keyCommitment
  · subst hk
    simp only [storedAt_iff A.signerRecord_eq, true_or, iff_true]
    rw [SignAccounts.signedStore,
      lookup_insert_of_ne _ (Pda.find_ne A.signerRecord_eq A.multisig_eq (by simp)),
      lookup_insert_of_ne _ (Pda.find_ne A.signerRecord_eq A.member_eq (by simp)),
      lookup_insert_of_ne _ (Pda.find_ne A.signerRecord_eq A.registry_eq (by simp)),
      lookup_insert_of_ne _ (Pda.find_ne A.signerRecord_eq A.contract_eq (by simp)),
      lookup_insert]
    exact ⟨_, rfl⟩
  · simp only [hk, false_or]
    refine exists_congr fun sr => exists_congr fun a => exists_congr fun b => and_congr_right ?_
    intro hf
    rw [SignAccounts.signedStore,
      lookup_insert_of_ne _ (Pda.find_ne hf A.multisig_eq (by simp)),
      lookup_insert_of_ne _ (Pda.find_ne hf A.member_eq (by simp)),
      lookup_insert_of_ne _ (Pda.find_ne hf A.registry_eq (by simp)),
      lookup_insert_of_ne _ (Pda.find_ne hf A.contract_eq (by simp)),
      lookup_insert_of_ne _ (Pda.find_ne hf A.signerRecord_eq (by simp [hk])),
      lookup_insert_of_ne _ (Pda.find_ne hf A.signature_eq (by simp))]

/-- Signing is the quorum taking the key. -/
theorem SignAccounts.Signable.represents (hs : Reachable D groth16 s)
    (g : A.Signable groth16 rt s r c ms) (hq : Represents s A.multisig.1 ms q)
    (hk : q.sign proof.keyCommitment = some q') :
    Represents (A.signedStore rt s r c ms) A.multisig.1 (SignAccounts.counted rt ms) q' := by
  have ht := hs.tallied A.multisig.1
  -- any payer does, the store has no trace of it
  have gv : VerifyGuard D groth16 rt s (A.verify systemProgramId) proof r c _ _ :=
    g.verifyGuard hs.sound
  have hq₁ : Represents (verifyStore rt s (A.verify systemProgramId) proof r c A.signature.2
      A.signerRecord.2) A.multisig.1 ms q := by
    refine ⟨hq.threshold, hq.capacity, hq.collected, hq.finalized, fun f => ?_⟩
    rw [countWhere_verifyStore gv (stable_memberWhere _ f), ← hq.members f]
    simp [memberWhere]
  have hrep : Represents (recordStore rt _ (A.record systemProgramId) _ ms _) _ _ q' :=
    (g.recordGuard hs.sound ht).represents hq₁ hk
  rwa [g.signedStore_eq ht, SignAccounts.counted_eq ht g.multisig g.pending] at hrep

end Signed

/-- The store after a combined transaction, and the quorum after its key. -/
theorem Collecting.step (h : Collecting D groth16 hash t n s q) (x : CoSigner D hash t n) :
    Collecting D groth16 hash t n (commit D groth16 s x.transaction)
      (if x.accepted groth16 then (q.sign x.proof.keyCommitment).getD q else q) := by
  rcases hx : Batch.exec (exec D groth16) s x.transaction with e | s'
  · -- nothing the transaction needs is missing only if the quorum takes the key
    rw [show commit D groth16 s x.transaction = s from Batch.commit_of_error hx]
    by_cases ha : x.accepted groth16 = true
    · rcases hk : q.sign x.proof.keyCommitment with _ | q'
      · rw [if_pos ha, Option.getD_none]
        exact h
      · obtain ⟨r, c, ms, g, -⟩ := h.signable x ha hk
        have hok : Batch.exec (exec D groth16) s x.transaction = .ok _ :=
          g.exec_transaction h.reachable
        rw [hx] at hok
        cases hok
    · rw [if_neg ha]
      exact h
  · rw [show commit D groth16 s x.transaction = s' from Batch.commit_of_ok hx]
    obtain ⟨_, _, _, g₀, -⟩ := (SignAccounts.exec_transaction_eq_ok h.reachable).1 hx
    obtain ⟨ha, q', hk⟩ := h.sign x g₀
    obtain ⟨r, c, ms, g, hroom, hcount, hq⟩ := h.signable x ha hk
    have hok : Batch.exec (exec D groth16) s x.transaction = .ok _ :=
      g.exec_transaction h.reachable
    rw [hx, Except.ok.injEq] at hok
    subst hok
    rw [if_pos ha, hk, Option.getD_some]
    obtain ⟨hnew, -, ht, hkeys⟩ := Quorum.sign_eq_some.1 hk
    have hcard : q'.keys.card = q.keys.card + 1 := by
      rw [hkeys, Finset.card_insert_of_notMem hnew]
    have hb := q'.bounded
    refine ⟨?_, ⟨_, (storedAt_iff x.accounts.registry_eq).2 lookup_signedStore_registry, ?_⟩,
      ⟨_, (storedAt_iff x.accounts.contract_eq).2 lookup_signedStore_contract, ?_⟩,
      ⟨_, _, x.accounts.multisig_eq, lookup_signedStore_multisig,
        g.represents h.reachable hq hk⟩, fun k => ?_⟩
    · have hr := h.reachable.run [x.transaction]
      rwa [show run D groth16 s [x.transaction] = _ from Batch.commit_of_ok hx] at hr
    · simp only [toNat_add_one_u64 g.registryCount]
      omega
    · simp only [toNat_add_one_u64 g.contractCount]
      omega
    · rw [storedAt_signedStore, h.records, hkeys, Finset.mem_insert]

theorem Collecting.run : ∀ (xs : List (CoSigner D hash t n)) {s : Store}
    {q : Quorum (Bytes 32)}, Collecting D groth16 hash t n s q →
      Collecting D groth16 hash t n (run D groth16 s (xs.map (·.transaction)))
        (q.signAll (CoSigner.acceptedKeys groth16 xs))
  | [], s, q, h => h
  | x :: xs, s, q, h => by
    have hrest := Collecting.run xs (h.step x)
    rw [CoSigner.acceptedKeys, List.filter_cons]
    by_cases ha : x.accepted groth16 = true
    · rw [if_pos ha] at hrest ⊢
      exact hrest
    · rw [if_neg ha] at hrest ⊢
      exact hrest

/-- A fresh agreement on a contract without signatures is a quorum without keys. -/
theorem Collecting.fresh (hs : Reachable D groth16 s) {r : ContractRegistry} {c : Contract}
    {ms : MultiSigContract} (hr : StoredAt D s .registry (.registry r))
    (hroom : r.totalSignatures.toNat + t.toNat < 2 ^ 64)
    (hc : StoredAt D s (.contract hash) (.contract c)) (hnone : c.signatureCount = 0)
    (hms : StoredAt D s (.multisig hash t n) (.multisig ms))
    (hfresh : ms.signaturesCollected = 0) (hset : ms.threshold = t) :
    ∃ q, q.keys = ∅ ∧ q.threshold = t.toNat ∧ Collecting D groth16 hash t n s q := by
  obtain ⟨m, b, hm, hl⟩ := hms
  obtain ⟨q, hq⟩ := (hs.tallied m).agreement ms hl
  have hcard : q.keys.card = 0 := by rw [hq.collected, hfresh, UInt8.toNat_zero]
  have hempty := Finset.card_eq_zero.1 hcard
  have hthr : q.threshold = t.toNat := by rw [hq.threshold, hset]
  refine ⟨q, hempty, hthr, hs, ⟨r, hr, ?_⟩, ⟨c, hc, ?_⟩, ⟨(m, b), ms, hm, hl, hq⟩, fun k => ?_⟩
  · rw [hthr, hcard]
    exact hroom
  · rw [hnone, hcard, UInt64.toNat_zero]
  · rw [hempty]
    refine ⟨fun ⟨sr, hsr⟩ => ?_, fun h => absurd h (Finset.notMem_empty k)⟩
    obtain ⟨a, sg, hsg, -, b', hf⟩ := RecordFor.receipt hs.sound hsr
    obtain ⟨ca, cb, hcf, hcl⟩ := hc
    rw [hcf, Option.some.injEq, Prod.mk.injEq] at hf
    have hcount := hs.sound.counted ca c hcl
    rw [hnone, UInt64.toNat_zero, eq_comm, countWhere_eq_zero] at hcount
    have hp := hcount a _ hsg
    rw [← Bool.not_eq_true, receiptOf_eq_true] at hp
    exact absurd ⟨sg, rfl, hf.1.symm⟩ hp

/-- What the store says of a quorum. -/
theorem Collecting.outcome (h : Collecting D groth16 hash t n s q) :
    ∃ ms ca cb, StoredAt D s (.multisig hash t n) (.multisig ms)
      ∧ D.findProgramAddress (.contract hash) = some (ca, cb)
      ∧ ms.signaturesCollected.toNat = q.keys.card
      ∧ (ms.finalized = true ↔ q.complete)
      ∧ s.countWhere (receiptOf ca) = ms.signaturesCollected.toNat := by
  obtain ⟨m, ms, hm, hms, hq⟩ := h.multisig
  obtain ⟨c, ⟨ca, cb, hf, hc⟩, hcount⟩ := h.contract
  refine ⟨ms, ca, cb, ⟨m.1, m.2, hm, hms⟩, hf, hq.collected.symm, hq.finalized, ?_⟩
  rw [← h.reachable.sound.counted ca c hc, hcount, hq.collected]

/-- A finalized agreement takes no more keys. -/
theorem Collecting.commit_of_complete (h : Collecting D groth16 hash t n s q) (hc : q.complete)
    (x : CoSigner D hash t n) : commit D groth16 s x.transaction = s := by
  rcases hx : Batch.exec (exec D groth16) s x.transaction with e | s'
  · exact Batch.commit_of_error hx
  · obtain ⟨_, _, _, g, -⟩ := (SignAccounts.exec_transaction_eq_ok h.reachable).1 hx
    obtain ⟨-, q', hk⟩ := h.sign x g
    exact absurd hc (Quorum.sign_eq_some.1 hk).2.1

end Collecting

/-- A list of combined transactions on a fresh agreement of a contract without signatures: with `d`
distinct keys among the accepted proofs, the agreement collects `min t d` of them, is finalized
exactly when `t ≤ d`, and has as many receipts on the contract; any other order of the list gives
the same, and once finalized no transaction leaves a trace. -/
theorem cosigners_commute (txs : List (List Call)) {hash : Bytes 32} {t n : UInt8}
    {r : ContractRegistry} {c : Contract} {ms : MultiSigContract}
    (hr : StoredAt D (run D groth16 ∅ txs) .registry (.registry r))
    (hroom : r.totalSignatures.toNat + t.toNat < 2 ^ 64)
    (hc : StoredAt D (run D groth16 ∅ txs) (.contract hash) (.contract c))
    (hnone : c.signatureCount = 0)
    (hms : StoredAt D (run D groth16 ∅ txs) (.multisig hash t n) (.multisig ms))
    (hfresh : ms.signaturesCollected = 0) (xs : List (CoSigner D hash t n)) :
    ∀ xs', xs.Perm xs' → ∃ ms' ca cb,
      StoredAt D (run D groth16 (run D groth16 ∅ txs) (xs'.map (·.transaction)))
          (.multisig hash t n) (.multisig ms')
        ∧ D.findProgramAddress (.contract hash) = some (ca, cb)
        ∧ ms'.signaturesCollected.toNat
          = min t.toNat (CoSigner.acceptedKeys groth16 xs).toFinset.card
        ∧ (ms'.finalized = true ↔ t.toNat ≤ (CoSigner.acceptedKeys groth16 xs).toFinset.card)
        ∧ (run D groth16 (run D groth16 ∅ txs) (xs'.map (·.transaction))).countWhere
          (receiptOf ca) = ms'.signaturesCollected.toNat
        ∧ (ms'.finalized = true → ∀ x : CoSigner D hash t n, commit D groth16
          (run D groth16 (run D groth16 ∅ txs) (xs'.map (·.transaction))) x.transaction
            = run D groth16 (run D groth16 ∅ txs) (xs'.map (·.transaction))) := by
  have hs : Reachable D groth16 (run D groth16 ∅ txs) := ⟨txs, rfl⟩
  obtain ⟨m, b, hm, hl⟩ := hms
  obtain ⟨q, hempty, hthr, hq⟩ :=
    Collecting.fresh hs hr hroom hc hnone ⟨m, b, hm, hl⟩ hfresh (hs.sound.fits hm hl).1
  intro xs' hperm
  have hrun := hq.run xs'
  obtain ⟨ms', ca, cb, h₁, h₂, h₃, h₄, h₅⟩ := hrun.outcome
  -- the distinct accepted keys do not depend on the order
  have hkeys : (CoSigner.acceptedKeys groth16 xs').toFinset
      = (CoSigner.acceptedKeys groth16 xs).toFinset :=
    List.toFinset_eq_of_perm _ _ ((hperm.symm.filter _).map _)
  refine ⟨ms', ca, cb, h₁, h₂, ?_, ?_, h₅, fun hf => hrun.commit_of_complete (h₄.1 hf)⟩
  · rw [h₃, Quorum.card_signAll, hthr, hempty, Finset.empty_union, hkeys]
  · rw [h₄, Quorum.complete_signAll, hthr, hempty, Finset.empty_union, hkeys]

section Sample

/-- The address of a derivation of the sample. -/
def sampleFind (d : Derivation) (h : (samplePda.findProgramAddress d).isSome = true) :
    { p : Pubkey × UInt8 // samplePda.findProgramAddress d = some p } :=
  ⟨(samplePda.findProgramAddress d).get h, (Option.some_get h).symm⟩

def sampleCoSigner (i : ℕ)
    (hsig : (samplePda.findProgramAddress
      (.signature sampleContract (sampleKey i) (sampleSig i))).isSome = true)
    (hrec : (samplePda.findProgramAddress (.signerRecord sampleHash (sampleKey i))).isSome = true)
    (hmem : (samplePda.findProgramAddress (.member sampleMultisig (sampleKey i))).isSome = true) :
    CoSigner samplePda sampleHash 2 3 where
  proof := sampleProof i
  payer := samplePayer
  rt := sampleRuntime
  funded := rfl
  accounts := {
    registry := (sampleRegistry, 250)
    contract := (sampleContract, 255)
    multisig := (sampleMultisig, 254)
    signature := sampleFind _ hsig
    signerRecord := sampleFind _ hrec
    member := sampleFind _ hmem
    registry_eq := find_sampleRegistry
    contract_eq := find_sampleContract
    multisig_eq := find_sampleMultisig
    signature_eq := (sampleFind _ hsig).2
    signerRecord_eq := (sampleFind _ hrec).2
    member_eq := (sampleFind _ hmem).2 }

/-- The second key, the first key, and the second key again. -/
def sampleCoSigners : List (CoSigner samplePda sampleHash 2 3) :=
  [sampleCoSigner 2 (by decide +kernel) (by decide +kernel) (by decide +kernel),
    sampleCoSigner 1 (by decide +kernel) (by decide +kernel) (by decide +kernel),
    sampleCoSigner 2 (by decide +kernel) (by decide +kernel) (by decide +kernel)]

theorem cosigners_commute_sample : ∃ ms, StoredAt samplePda (run samplePda sampleVerifier
      (run samplePda sampleVerifier ∅ sampleSetup) (sampleCoSigners.map (·.transaction)))
      (.multisig sampleHash 2 3) (.multisig ms)
    ∧ ms.signaturesCollected.toNat = 2 ∧ ms.finalized = true := by
  have hkeys : (CoSigner.acceptedKeys sampleVerifier sampleCoSigners).toFinset.card = 2 := by
    decide +kernel
  have hr : StoredAt samplePda (run samplePda sampleVerifier ∅ sampleSetup) .registry
      (.registry ⟨samplePayer, 1, 0, 250⟩) :=
    ⟨sampleRegistry, 250, by decide +kernel, by decide +kernel⟩
  have hc : StoredAt samplePda (run samplePda sampleVerifier ∅ sampleSetup) (.contract sampleHash)
      (.contract ⟨sampleHash, 1700000000, 0, true, 255⟩) :=
    ⟨sampleContract, 255, by decide +kernel, by decide +kernel⟩
  have hm : StoredAt samplePda (run samplePda sampleVerifier ∅ sampleSetup)
      (.multisig sampleHash 2 3) (.multisig ⟨sampleContract, 2, 0, 3, false, 0, 254⟩) :=
    ⟨sampleMultisig, 254, by decide +kernel, by decide +kernel⟩
  obtain ⟨ms, ca, cb, hms, -, hcol, hfin, -⟩ :=
    cosigners_commute sampleSetup hr (by decide) hc rfl hm rfl sampleCoSigners _ (.refl _)
  rw [hkeys] at hcol hfin
  exact ⟨ms, hms, hcol, hfin.2 (by decide)⟩

end Sample

end Oblivia

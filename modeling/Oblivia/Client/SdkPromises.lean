import Oblivia.Client.CoSignService
import Oblivia.Client.Sdk
/-!
# What the SDK promises

Whatever others do on the network meanwhile, and whichever answers are lost: what a function of the
SDK reports is so (`reports_true`), and a secret that has signed a contract, alone or in an
agreement, does not sign it again (`signs_once`).
-/

namespace Oblivia

open Dialogue

variable {D : Pda} {groth16 : Groth16Verifier} {s s' : Store} {h k sc : Bytes 32} {t n : UInt8}

section Receipts

variable {rt : Runtime} {verify : VerifyGroth16V2} {proof : ProofArgs} {rest : List Call}
  {b : UInt8}

/-- No transaction verifies a proof of a key that has its receipt. -/
theorem exec_ne_ok_of_receipt (hs : Reachable D groth16 s)
    (hc : D.findProgramAddress (.contract h) = some (verify.contract.key, b))
    (hk : HasReceipt D s h proof.keyCommitment) :
    Batch.exec (exec D groth16) s (⟨rt, .verifyGroth16V2 verify proof⟩ :: rest) ≠ .ok s' := by
  intro hexec
  obtain ⟨s₁, hv, -⟩ := Batch.exec_cons_ok.1 hexec
  cases exec_eq_ok.1 hv with
  | @verifyGroth16V2 _ _ _ r c sb rb g =>
    obtain ⟨a, sg, hreceipt⟩ := hk
    obtain ⟨sr, ⟨ra, b', hfind, hrec⟩, -⟩ := hreceipt.record hs.sound
    have hh : c.contractHash = h := hs.sound.fits hc g.contract
    have hadr := g.signerRecord.address
    rw [hh, hfind, Option.some.injEq, Prod.mk.injEq] at hadr
    have hfree := g.signerRecord.free
    rw [← hadr.1, hrec] at hfree
    cases hfree

end Receipts

namespace Sdk

section Rules

variable {σ α : Type} {asked : σ → (q : Rpc) → q.Reply → σ → Prop} {drift : σ → σ → Prop} {w : σ}

theorem yields_call {x : Except String α} {P : α → σ → Prop} :
    Yields asked drift (call x) P w ↔ ∀ a, x = .ok a → P a w := Iff.rfl

/-- A call that may throw moves nothing. -/
theorem yields_call_bind {β : Type} {x : Except String α} {f : α → Task β} {P : β → σ → Prop}
    (h : ∀ a, x = .ok a → Yields asked drift (f a) P w) :
    Yields asked drift (call x >>= f) P w := by
  rcases x with e | a
  · exact fun b hb => (nomatch hb)
  · exact h a rfl

theorem yields_getKeypair_bind {β : Type} {keypair : Option Pubkey} {f : Pubkey → Task β}
    {P : β → σ → Prop} (h : ∀ payer, keypair = some payer → Yields asked drift (f payer) P w) :
    Yields asked drift (getKeypair keypair >>= f) P w := by
  rcases keypair with _ | payer
  · exact fun b hb => (nomatch hb)
  · exact h payer rfl

theorem yields_send {transaction : List Instruction} {P : Text → σ → Prop}
    (h : ∀ w₁, drift w w₁ → ∀ sig w₂, asked w₁ (.send transaction) (.ok sig) w₂ → P sig w₂) :
    Yields asked drift (send id transaction) P w := by
  refine ensures_send.2 fun w₁ h₁ r w₂ h₂ sig hsig => ?_
  rcases r with e | sig'
  · cases hsig
  · exact Except.ok.inj hsig ▸ h w₁ h₁ sig' w₂ h₂

theorem yields_getAccountInfo {a : Pubkey} {P : Option AccountInfo → σ → Prop}
    (h : ∀ w₁, drift w w₁ → ∀ info w₂, asked w₁ (.getAccountInfo a) (.ok info) w₂ → P info w₂) :
    Yields asked drift (getAccountInfo id a) P w := by
  refine ensures_getAccountInfo.2 fun w₁ h₁ r w₂ h₂ info hinfo => ?_
  rcases r with e | info'
  · cases hinfo
  · exact Except.ok.inj hinfo ▸ h w₁ h₁ info' w₂ h₂

theorem yields_fetchMultisig {a : Pubkey} {P : MultiSigContract → σ → Prop}
    (h : ∀ w₁, drift w w₁ → ∀ ms w₂, asked w₁ (.fetchMultisig a) (.ok ms) w₂ → P ms w₂) :
    Yields asked drift (await id (.request (Rpc.fetchMultisig a))) P w := by
  refine fun w₁ h₁ r w₂ h₂ ms hms => ?_
  rcases r with e | ms'
  · cases hms
  · exact Except.ok.inj hms ▸ h w₁ h₁ ms' w₂ h₂

end Rules

section Submissions

variable {bytes : Account → List UInt8} {keypair : Option Pubkey} {proof : ProofArgs}
  {threshold maxSigners : ℤ}

/-- What follows a transaction that the network has taken of a verified proof. -/
theorem yields_submitVerifiedGroth16 {P : Store → Prop}
    (hP : ∀ s₁ verify b rt s₂, Later D groth16 s s₁ →
      D.findProgramAddress (.contract h) = some (verify.contract.key, b) →
      Batch.exec (exec D groth16) s₁ [⟨rt, .verifyGroth16V2 verify proof⟩] = .ok s₂ → P s₂) :
    Yields (Serve D groth16 bytes) (Later D groth16) (submitVerifiedGroth16 D keypair h proof)
      (fun _ s => P s) s := by
  unfold submitVerifiedGroth16
  refine yields_getKeypair_bind fun payer _ => yields_call_bind fun ⟨registry, _⟩ _ => ?_
  refine yields_call_bind fun ⟨contract, b⟩ hc => yields_call_bind fun ⟨signature, _⟩ _ => ?_
  have hc : D.findProgramAddress (.contract h) = some (contract, b) :=
    findProgramAddressSync_seeds.1 hc
  refine yields_call_bind fun ⟨signerRecord, _⟩ _ => yields_send fun s₁ h₁ tx s₂ h₂ => ?_
  cases h₂ with
  | sent hexec => exact hP s₁ _ b _ s₂ h₁ hc hexec

/-- Building instructions asks nothing of the chain. -/
theorem yields_build_bind {β : Type} {f : Task β} {P : β → Store → Prop}
    (hf : ∀ s', Later D groth16 s s' → Yields (Serve D groth16 bytes) (Later D groth16) f P s')
    (transaction : List Instruction) : Yields (Serve D groth16 bytes) (Later D groth16)
      (do
        transaction.forM fun ix => await id (.request (Rpc.build ix))
        f) P s :=
  (yields_later (I := Later D groth16 s) (fun _ _ hl h => h.trans hl) _ (.refl s)).bind
    fun _ s' hs' => hf s' hs'

theorem yields_sendVerifiedMultiSig {P : Store → Prop} (ht : threshold = t.toNat)
    (hn : maxSigners = n.toNat)
    (hP : ∀ s₁ (A : SignAccounts D h t n proof.keyCommitment proof.signatureCommitment) payer rt s₂,
      Later D groth16 s s₁ →
      Batch.exec (exec D groth16) s₁ (A.transaction payer rt) = .ok s₂ → P s₂) :
    Yields (Serve D groth16 bytes) (Later D groth16)
      (sendVerifiedMultiSig D keypair h threshold maxSigners proof) (fun _ s => P s) s := by
  subst ht hn
  unfold sendVerifiedMultiSig
  refine yields_getKeypair_bind fun payer _ => yields_call_bind fun calls hcalls => ?_
  obtain ⟨-, -, A, rfl⟩ := submitVerifiedMultiSig_eq_ok.1 hcalls
  refine yields_build_bind (fun s' hs' => yields_send fun s₁ h₁ tx s₂ h₂ => ?_) _
  cases h₂ with
  | sent hexec => exact hP s₁ A payer _ s₂ (hs'.trans h₁) hexec

/-- An agreement is reported to be final only if it is, and no transaction makes it so. -/
theorem yields_sendFinalizeMultisig (hs : Reachable D groth16 s) (ht : threshold = t.toNat)
    (hn : maxSigners = n.toNat) : Yields (Serve D groth16 bytes) (Later D groth16)
      (sendFinalizeMultisig D keypair h threshold maxSigners)
      (fun tx s => tx = none ∧ ∃ ms, StoredAt D s (.multisig h t n) (.multisig ms)
        ∧ ms.finalized = true) s := by
  subst ht hn
  unfold sendFinalizeMultisig
  refine yields_getKeypair_bind fun _ _ => yields_call_bind fun seeds hseeds => ?_
  obtain ⟨-, -, rfl⟩ := multisigSeeds_eq_ok.1 hseeds
  refine yields_call_bind fun ⟨m, b⟩ hm => yields_call_bind fun ⟨c, _⟩ hc => ?_
  refine Yields.bind (P := fun ms s => Reachable D groth16 s ∧ s.lookup m = some (.multisig ms))
    (yields_fetchMultisig fun s₁ h₁ ms s₂ h₂ => ?_) fun ms s ⟨hs, hms⟩ => ?_
  · cases h₂ with
    | fetched hms => exact ⟨h₁.reachable hs, hms⟩
  split_ifs with hfinal
  · exact yields_pure.2 ⟨rfl, ms, ⟨m, b, findProgramAddressSync_seeds.1 hm, hms⟩, hfinal⟩
  refine Yields.bind (P := fun _ _ => False) (yields_send fun s₁ h₁ tx s₂ h₂ => ?_)
    fun _ _ hfalse => hfalse.elim
  cases h₂ with
  | sent hexec =>
    obtain ⟨s', hx, -⟩ := Batch.exec_cons_ok.1 hexec
    cases exec_eq_ok.1 hx with
    | finalizeMultisig g => exact g.not_tallied ((h₁.reachable hs).tallied _)

variable {coder : Coder}

/-- A creation that is reported leaves the agreement at the reported address. -/
theorem yields_createMultisig (henc : coder.Encodes bytes) (hs : Reachable D groth16 s)
    (ht : threshold = t.toNat) (hn : maxSigners = n.toNat) :
    Yields (Serve D groth16 bytes) (Later D groth16)
      (createMultisig D coder keypair h threshold maxSigners)
      (fun r s => ∃ b ms, D.findProgramAddress (.multisig h t n) = some (r.1, b)
        ∧ s.lookup r.1 = some (.multisig ms)) s := by
  subst ht hn
  unfold createMultisig
  refine yields_call_bind fun _ _ => yields_getKeypair_bind fun payer _ => ?_
  refine yields_call_bind fun ⟨c, b⟩ hc => yields_call_bind fun seeds hseeds => ?_
  obtain ⟨ht, htn, rfl⟩ := multisigSeeds_eq_ok.1 hseeds
  refine yields_call_bind fun ⟨m, b'⟩ hm => ?_
  have hc : D.findProgramAddress (.contract h) = some (c, b) := findProgramAddressSync_seeds.1 hc
  have hm : D.findProgramAddress (.multisig h t n) = some (m, b') :=
    findProgramAddressSync_seeds.1 hm
  -- what is read at the address is there
  have hread : ∀ s, Reachable D groth16 s → Yields (Serve D groth16 bytes) (Later D groth16)
      (getAccountInfo id m) (fun info s => Reachable D groth16 s
        ∧ readMultisigAccount coder info c = .ok ((s.lookup m).bind Account.asMultisig)) s :=
    fun s hs => yields_getAccountInfo fun s₁ h₁ info s₂ h₂ => by
      cases h₂ with
      | read hshow =>
        exact ⟨h₁.reachable hs, hshow.readMultisigAccount henc (h₁.reachable hs) hc hm⟩
  refine (hread s hs).bind fun info s ⟨hs, hinfo⟩ => ?_
  rw [hinfo]
  refine yields_call_bind fun existing hexisting => ?_
  obtain rfl := Except.ok.inj hexisting
  rcases hms : (s.lookup m).bind Account.asMultisig with _ | ms
  · refine Yields.bind (P := fun _ s => ∃ ms, s.lookup m = some (.multisig ms)) ?_
      fun tx s ⟨ms, hms⟩ => yields_pure.2 ⟨b', ms, hm, hms⟩
    refine yields_initializeOrReadExisting (R := Reachable D groth16)
      (ensures_send.2 fun s₁ h₁ r s₂ h₂ => ?_) fun s hs => ?_
    · cases r with
      | error e => exact (h₁.trans h₂.later).reachable hs
      | ok sig =>
        cases h₂ with
        | sent hexec => exact exists_multisig_of_exec hexec
    · refine (hread s hs).bind fun info s ⟨_, hinfo⟩ => ?_
      rw [hinfo]
      refine yields_call_bind fun account haccount => ?_
      obtain rfl := Except.ok.inj haccount
      exact yields_checked (fun _ => yields_call.2 fun _ _ => rfl) exists_multisig
  · refine yields_call_bind fun _ _ => yields_pure.2 ?_
    obtain ⟨ms', hms'⟩ := exists_multisig (s := s) (m := m) (by rw [hms]; rfl)
    exact ⟨b', ms', hm, hms'⟩

end Submissions

section Proofs

variable {sha256 : List UInt8 → Bytes 32} {P : Snarkjs} {secret : ByteSource}
  {data : ContractData} {timestamp : Text} {proof : ProofArgs}

/-- The first public signal is a commitment to the signer key. -/
def CommitsKey (P : Snarkjs) : Prop := ∃ commitment : Text → Text, ∀ input proof signals,
  P.fullProve input = .ok (proof, signals) → signals 0 = commitment input.signerKey

theorem generateDataProof_eq_ok
    (hproof : generateDataProof sha256 P secret data timestamp = .ok (h, proof)) :
    ∃ contract key input groth signals, validateContractData data = .ok contract
      ∧ h = sha256 contract
      ∧ deriveSignerKey sha256 secret (.ofBytes (sha256 contract).toList) = .ok key
      ∧ circuitInput sha256 contract timestamp key = .ok input
      ∧ P.fullProve input = .ok (groth, signals) ∧ serializeProof groth signals = .ok proof := by
  simp only [generateDataProof, generateProof, generateIntentProof, Batch.bind_eq_ok] at hproof
  obtain ⟨contract, hcontract, key, hkey, input, hinput, ⟨groth, signals⟩, hprove, hrest⟩ := hproof
  split_ifs at hrest
  simp only [Batch.bind_eq_ok, Batch.pure_eq_ok, Prod.mk.injEq] at hrest
  obtain ⟨args, hargs, rfl, rfl⟩ := hrest
  exact ⟨contract, key, input, groth, signals, hcontract, rfl, hkey, hinput, hprove, hargs⟩

theorem keyCommitment_of_serializeProof {groth : Groth16Proof} {signals : Fin 4 → Text}
    (hproof : serializeProof groth signals = .ok proof) :
    fieldBytes (signals 0) = .ok proof.keyCommitment := by
  simp only [serializeProof, Batch.bind_eq_ok, Batch.pure_eq_ok] at hproof
  obtain ⟨_, -, _, -, _, -, _, -, _, -, _, -, _, -, _, -, _, -, _, -, _, -, _, -, key, hkey, _, -,
    rfl⟩ := hproof
  exact hkey

theorem signerKey_of_circuitInput {contract : List UInt8} {key : Text} {input : CircuitInput}
    (hinput : circuitInput sha256 contract timestamp key = .ok input) :
    bigIntText <$> bigInt key = .ok input.signerKey := by
  simp only [circuitInput, Batch.bind_eq_ok, Batch.pure_eq_ok] at hinput
  obtain ⟨k, hk, lo, -, hi, -, rfl⟩ := hinput
  rw [hk]
  rfl

/-- A secret has one key commitment for a contract. -/
theorem keyCommitment_unique (hP : CommitsKey P) {timestamp' : Text} {h' : Bytes 32}
    {proof' : ProofArgs}
    (hproof : generateDataProof sha256 P secret data timestamp = .ok (h, proof))
    (hproof' : generateDataProof sha256 P secret data timestamp' = .ok (h', proof')) :
    h = h' ∧ proof.keyCommitment = proof'.keyCommitment := by
  obtain ⟨commitment, hP⟩ := hP
  obtain ⟨c, key, input, g, signals, hc, rfl, hkey, hinput, hprove, hargs⟩ :=
    generateDataProof_eq_ok hproof
  obtain ⟨c', key', input', g', signals', hc', rfl, hkey', hinput', hprove', hargs'⟩ :=
    generateDataProof_eq_ok hproof'
  rw [hc, Except.ok.injEq] at hc'
  subst hc'
  rw [hkey, Except.ok.injEq] at hkey'
  subst hkey'
  refine ⟨rfl, ?_⟩
  have hsigner := (signerKey_of_circuitInput hinput).symm.trans (signerKey_of_circuitInput hinput')
  have hfirst := keyCommitment_of_serializeProof hargs
  rw [hP _ _ _ hprove, Except.ok.inj hsigner, ← hP _ _ _ hprove',
    keyCommitment_of_serializeProof hargs'] at hfirst
  exact (Except.ok.inj hfirst).symm

end Proofs

section Promises

variable (D : Pda) (groth16 : Groth16Verifier) (bytes : Account → List UInt8) (coder : Coder)
  (base58 : Pubkey → Text) (keypair : Option Pubkey) (sha256 : List UInt8 → Bytes 32)
  (P : Snarkjs) (secret : ByteSource) (data : ContractData)

/-- A contract is signed alone, or in an agreement. -/
inductive Signing
  | alone
  | agreement (threshold maxSigners : ℤ)

def sign (timestamp : Text) : Signing → Task Signature
  | .alone => signContract D coder keypair sha256 P secret data timestamp
  | .agreement threshold maxSigners =>
    signMultiSig D keypair sha256 P secret data threshold maxSigners timestamp

/-- What is reported of a signature is so. -/
structure Signature.Holds (s : Store) (how : Signing) (r : Signature) : Prop where
  contract : ∃ contract, validateContractData data = .ok contract
    ∧ r.contractHash = sha256 contract
  receipt : Receipted D s r.contractHash r.keyCommitment r.signatureCommitment
  proven : Proven D groth16 s r.contractHash r.keyCommitment
  counted : ∀ threshold maxSigners, how = .agreement threshold maxSigners → ∃ t n : UInt8,
    threshold = t.toNat ∧ maxSigners = n.toNat ∧ CoSigned D s r.contractHash t n r.keyCommitment

variable {D groth16 bytes coder base58 keypair sha256 P secret data}

theorem yields_sign (how : Signing) (timestamp : Text) :
    Yields (Serve D groth16 bytes) (Later D groth16)
      (sign D coder keypair sha256 P secret data timestamp how)
      (fun r s => (∃ proof, generateDataProof sha256 P secret data timestamp
          = .ok (r.contractHash, proof) ∧ r.keyCommitment = proof.keyCommitment)
        ∧ r.Holds D groth16 sha256 data s how) s := by
  cases how with
  | alone =>
    refine yields_call_bind fun ⟨h, proof⟩ hproof => ?_
    obtain ⟨contract, _, _, _, _, hcontract, hh, -⟩ := generateDataProof_eq_ok hproof
    refine (yields_trivial _).bind fun _ s _ => ?_
    refine Yields.bind (yields_submitVerifiedGroth16 fun s₁ verify b rt s₂ h₁ hc hexec =>
      receipted_of_exec hc hexec) fun tx s hk => yields_pure.2 ⟨⟨proof, hproof, rfl⟩, ?_⟩
    exact ⟨⟨contract, hcontract, hh⟩, hk, hk.hasReceipt.proven, fun _ _ heq => (nomatch heq)⟩
  | agreement threshold maxSigners =>
    refine yields_call_bind fun u hvalid => yields_call_bind fun ⟨h, proof⟩ hproof => ?_
    obtain ⟨t, n, -, -, ht, hn⟩ := exists_settings hvalid
    obtain ⟨contract, _, _, _, _, hcontract, hh, -⟩ := generateDataProof_eq_ok hproof
    refine Yields.bind (P := fun _ s => Receipted D s h proof.keyCommitment
      proof.signatureCommitment ∧ CoSigned D s h t n proof.keyCommitment)
      (yields_sendVerifiedMultiSig ht hn fun s₁ A payer rt s₂ h₁ hexec => ?_) fun tx s hk =>
        yields_pure.2 ⟨⟨proof, hproof, rfl⟩, ⟨contract, hcontract, hh⟩, hk.1,
          hk.1.hasReceipt.proven, fun _ _ heq => ?_⟩
    · exact ⟨receipted_of_exec A.contract_eq hexec, coSigned_of_exec A.multisig_eq hexec⟩
    · cases heq
      exact ⟨t, n, ht, hn, hk.2⟩

/-- Nobody signs a contract with a key that has its receipt. -/
theorem yields_sign_refused (hs : Reachable D groth16 s)
    {how : Signing} {timestamp : Text}
    (hk : ∀ h proof, generateDataProof sha256 P secret data timestamp = .ok (h, proof) →
      HasReceipt D s h proof.keyCommitment) : Yields (Serve D groth16 bytes) (Later D groth16)
      (sign D coder keypair sha256 P secret data timestamp how) (fun _ _ => False) s := by
  cases how with
  | alone =>
    refine yields_call_bind fun ⟨h, proof⟩ hproof => ?_
    refine (yields_later (I := fun s => Reachable D groth16 s
      ∧ HasReceipt D s h proof.keyCommitment) (fun _ _ hl hI => ⟨hl.reachable hI.1, hI.2.later hl⟩)
      _ ⟨hs, hk h proof hproof⟩).bind fun _ s hI => ?_
    refine Yields.bind (P := fun _ _ => False) (yields_submitVerifiedGroth16 ?_)
      fun _ _ => False.elim
    exact fun s₁ verify b rt s₂ h₁ hc =>
      exec_ne_ok_of_receipt (h₁.reachable hI.1) hc (hI.2.later h₁)
  | agreement threshold maxSigners =>
    refine yields_call_bind fun u hvalid => yields_call_bind fun ⟨h, proof⟩ hproof => ?_
    obtain ⟨t, n, -, -, ht, hn⟩ := exists_settings hvalid
    refine Yields.bind (P := fun _ _ => False) (yields_sendVerifiedMultiSig ht hn ?_) fun _ _ =>
      False.elim
    exact fun s₁ A payer rt s₂ h₁ =>
      exec_ne_ok_of_receipt (h₁.reachable hs) A.contract_eq ((hk h proof hproof).later h₁)

section Sample

/-- A prover that has one proof. -/
def sampleProver : Snarkjs := ⟨fun _ => .ok sampleGroth, fun _ _ => true⟩

def sampleSecret : ByteSource := .view 1 (List.replicate 32 7)

def sampleCall : Task Signature :=
  sign samplePda idlCoder (some samplePayer) sampleHashes sampleProver sampleSecret (.bytes []) []
    .alone

theorem follows_sampleCall : ∃ r, Follows sampleCall.run sampleTurns (.done (.ok r))
    ∧ r.transaction = sampleSignature := by
  have hplay : (play sampleCall.run sampleTurns).map (Except.map Signature.transaction)
      = some (.ok sampleSignature) := by decide +kernel
  obtain ⟨x, hx, hr⟩ := Option.map_eq_some_iff.1 hplay
  rcases x with e | r
  · cases hr
  · exact ⟨r, follows_of_play hx, Except.ok.inj hr⟩

end Sample

/-- Whatever others do on the network, and whichever answers are lost: a signature that the SDK
reports has its receipt on the chain, of a proof for the hash of the contract, and is counted if it
is one of an agreement; an agreement that it reports to be created is there, with the settings that
were asked for; and one that it reports to be finalized is final, and was so without the SDK, which
never reports a transaction that finalizes. -/
theorem reports_true (henc : coder.Encodes bytes) (hs : Reachable D groth16 s) :
    (∀ how timestamp, Yields (Serve D groth16 bytes) (Later D groth16)
      (sign D coder keypair sha256 P secret data timestamp how)
      (fun r s => r.Holds D groth16 sha256 data s how) s)
    ∧ (∀ threshold maxSigners, Yields (Serve D groth16 bytes) (Later D groth16)
      (createMultiSigContract D coder base58 keypair sha256 data threshold maxSigners)
      (fun r s => ∃ t n m b ms, threshold = (t : UInt8).toNat ∧ maxSigners = (n : UInt8).toNat
        ∧ hashContract sha256 data = .ok r.contractHash
        ∧ D.findProgramAddress (.multisig r.contractHash t n) = some (m, b)
        ∧ r.multisigAddress = base58 m ∧ s.lookup m = some (.multisig ms)
        ∧ ms.threshold = t ∧ ms.maxSigners = n) s)
    ∧ ∀ threshold maxSigners, Yields (Serve D groth16 bytes) (Later D groth16)
      (finalizeMultiSigContract D keypair sha256 data threshold maxSigners)
      (fun r s => r.transaction = none ∧ ∃ h t n ms, threshold = (t : UInt8).toNat
        ∧ maxSigners = (n : UInt8).toNat ∧ hashContract sha256 data = .ok h
        ∧ StoredAt D s (.multisig h t n) (.multisig ms) ∧ ms.finalized = true) s := by
  refine ⟨fun how timestamp => (yields_sign how timestamp).mono fun _ _ h => h.2,
    fun threshold maxSigners => ?_, fun threshold maxSigners => ?_⟩
  · refine yields_call_bind fun u hvalid => yields_call_bind fun h hh => ?_
    obtain ⟨t, n, -, -, ht, hn⟩ := exists_settings hvalid
    refine Yields.bind (P := fun r s => Reachable D groth16 s ∧ ∃ b ms,
        D.findProgramAddress (.multisig h t n) = some (r.1, b)
          ∧ s.lookup r.1 = some (.multisig ms)) ?_ fun ⟨m, tx⟩ s ⟨hs, b, ms, hm, hms⟩ => ?_
    · refine (yields_later (I := Reachable D groth16) (fun _ _ hl hs => hl.reachable hs) _ hs).bind
        fun _ s hs => ?_
      exact ((ensures_reachable hs _).and (yields_createMultisig henc hs ht hn)).mono
        fun r s hr a ha => ⟨hr.1, hr.2 a ha⟩
    · obtain ⟨hthreshold, hmax⟩ : ms.threshold = t ∧ ms.maxSigners = n := hs.sound.fits hm hms
      exact yields_pure.2 ⟨t, n, m, b, ms, ht, hn, hh, hm, rfl, hms, hthreshold, hmax⟩
  · refine yields_call_bind fun u hvalid => yields_call_bind fun h hh => ?_
    obtain ⟨t, n, -, -, ht, hn⟩ := exists_settings hvalid
    exact (yields_sendFinalizeMultisig hs ht hn).bind fun tx s ⟨hnone, ms, hms, hfinal⟩ =>
      yields_pure.2 ⟨hnone, h, t, n, ms, ht, hn, hh, hms, hfinal⟩

theorem reports_true_sample : ∃ s r, r.transaction = sampleSignature
    ∧ Signature.Holds samplePda sampleVerifier sampleHashes (.bytes []) s .alone r := by
  obtain ⟨r, hfollows, hr⟩ := follows_sampleCall
  obtain ⟨s, hserves⟩ := serves_sampleTurns
  have hs : Reachable samplePda sampleVerifier sampleRegistered := ⟨_, rfl⟩
  have hpromise := (@reports_true _ _ _ _ _ toBase58 (some samplePayer) sampleHashes sampleProver
    sampleSecret (.bytes []) idlCoder_encodes hs).1 .alone []
  exact ⟨s, r, hr, hserves.ensures .refl hfollows hpromise r rfl⟩

/-- A secret that has signed a contract does not sign it again, alone or in any agreement. -/
theorem signs_once (hP : CommitsKey P) (hs : Reachable D groth16 s) (how : Signing)
    (timestamp : Text) : Yields (Serve D groth16 bytes) (Later D groth16)
      (sign D coder keypair sha256 P secret data timestamp how)
      (fun _ s => ∀ s', Later D groth16 s s' → ∀ how' timestamp',
        Yields (Serve D groth16 bytes) (Later D groth16)
          (sign D coder keypair sha256 P secret data timestamp' how') (fun _ _ => False) s') s := by
  refine ((ensures_reachable hs _).and (yields_sign how timestamp)).mono fun r s hr a ha => ?_
  obtain ⟨⟨proof, hproof, hkey⟩, hholds⟩ := hr.2 a ha
  intro s' hl how' timestamp'
  refine yields_sign_refused (hl.reachable hr.1) fun h' proof' hproof' => ?_
  obtain ⟨rfl, hsame⟩ := keyCommitment_unique hP hproof hproof'
  exact hsame ▸ hkey ▸ hholds.receipt.hasReceipt.later hl

/-- After the signature of the sample no agreement is signed. -/
theorem signs_once_sample : ∃ s, ∀ threshold maxSigners timestamp,
    Yields (Serve samplePda sampleVerifier Account.bytes) (Later samplePda sampleVerifier)
      (sign samplePda idlCoder (some samplePayer) sampleHashes sampleProver sampleSecret (.bytes [])
        timestamp (.agreement threshold maxSigners)) (fun _ _ => False) s := by
  have hcommits : CommitsKey sampleProver := by
    refine ⟨fun _ => sampleGroth.2 0, fun input proof signals hprove => ?_⟩
    cases hprove
    rfl
  obtain ⟨r, hfollows, -⟩ := follows_sampleCall
  obtain ⟨s, hserves⟩ := serves_sampleTurns
  have hs : Reachable samplePda sampleVerifier sampleRegistered := ⟨_, rfl⟩
  have honce := @signs_once _ _ _ Account.bytes idlCoder (some samplePayer) sampleHashes _
    sampleSecret (.bytes []) hcommits hs .alone []
  exact ⟨s, fun threshold maxSigners timestamp =>
    hserves.ensures .refl hfollows honce r rfl s (.refl s) _ timestamp⟩

end Promises

end Sdk

end Oblivia

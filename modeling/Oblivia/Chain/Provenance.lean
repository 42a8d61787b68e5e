import Oblivia.Chain.Agreements
import Oblivia.Chain.Receipts
import Oblivia.Client.Transactions
/-!
# Where signatures come from

A receipt at a contract-bound address, and a member of an agreement bound to its settings, go back
to a `verify_groth16_v2` of the same run whose proof was accepted for the contract's hash and the
key (`counting_sound`), also over accounts that earlier versions of the program left. No proof is
recorded twice (`no_replay`).
-/

namespace Oblivia

variable {D : Pda} {groth16 : Groth16Verifier} {s₀ s : Store} {js : List (Store × Call)}

/-- The step is a `verify_groth16_v2` of the contract of hash `h` that accepts the proof. -/
structure Accepted (groth16 : Groth16Verifier) (h : Bytes 32) (acc : VerifyGroth16V2)
    (args : ProofArgs) (e : Store × Call) : Prop where
  ix : e.2.ix = .verifyGroth16V2 acc args
  contract : ∃ c, e.1.lookup acc.contract.key = some (.contract c) ∧ c.contractHash = h
  proof : verifyContractBoundProof groth16 h args = .ok ()

/-- The step counts the key `k` for the agreement at `m`. -/
def CountsKey (m : Pubkey) (k : Bytes 32) (e : Store × Call) : Prop :=
  ∃ acc h, e.2.ix = .recordVerifiedMultisig acc h k ∧ acc.multisig.key = m

/-- The address of an agreement on the contract of hash `h`, bound to its settings. -/
def BoundTo (D : Pda) (h : Bytes 32) (m : Pubkey) : Prop :=
  ∃ t n b, D.derive (.multisig h t n) b = some m

theorem VerifyGuard.accepted {rt : Runtime} {acc : VerifyGroth16V2} {args : ProofArgs}
    {r : ContractRegistry} {c : Contract} {sb rb : UInt8}
    (g : VerifyGuard D groth16 rt s acc args r c sb rb) :
    Accepted groth16 c.contractHash acc args (s, ⟨rt, .verifyGroth16V2 acc args⟩) :=
  ⟨rfl, ⟨c, g.contract, rfl⟩, g.proof⟩

/-- A receipt that was not there at the start was made by accepting its proof. -/
theorem Path.receipt_accepted {a : Pubkey} {sg : ObliviaSignature}
    (hp : Path D groth16 s₀ js s) (h₀ : s₀.lookup a = none)
    (hx : s.lookup a = some (.signature sg)) :
    ∃ pre e post acc args h b, js = pre ++ e :: post ∧ Accepted groth16 h acc args e
      ∧ acc.signature.key = a ∧ sg.contract = acc.contract.key
      ∧ sg.keyCommitment = args.keyCommitment
      ∧ sg.signatureCommitment = args.signatureCommitment
      ∧ D.derive (.contract h) b = some acc.contract.key := by
  obtain ⟨pre, t, call, post, y, rfl, -, -, hw, hg⟩ := hp.created h₀ hx
  cases y <;> simp only [Account.Grows, reduceCtorEq] at hg
  rw [Account.signature.injEq] at hg
  subst hg
  cases hw with
  | signature g =>
    exact ⟨pre, _, post, _, _, _, _, rfl, g.accepted, rfl, rfl, rfl, rfl, g.contractAddress⟩

/-- A member of an agreement bound to its settings was counted after its key's proof for the
agreement's contract was accepted. -/
theorem Path.member_counted {h : Bytes 32} {m : Pubkey} (hm : BoundTo D h m)
    (hp : Path D groth16 s₀ js s)
    (hsig : ∀ a c k sc b, D.derive (.signature c k sc) b = some a → s₀.lookup a = none)
    (hmem : ∀ a mm, s₀.lookup a = some (.member mm) → mm.multisig ≠ m)
    {a : Pubkey} {mm : MultiSigMember} (hx : s.lookup a = some (.member mm))
    (hmm : mm.multisig = m) :
    ∃ pre e mid e' post acc args, js = pre ++ e :: (mid ++ e' :: post)
      ∧ Accepted groth16 h acc args e ∧ args.keyCommitment = mm.keyCommitment
      ∧ CountsKey m mm.keyCommitment e' := by
  have h₀ : s₀.lookup a = none := by
    rcases ha : s₀.lookup a with _ | x
    · rfl
    · obtain ⟨y, hy, hg⟩ := Path.extends hp a x ha
      rw [hx, Option.some.injEq] at hy
      subst hy
      cases x <;> simp only [Account.Grows, reduceCtorEq] at hg
      rw [Account.member.injEq] at hg
      exact absurd hmm (hg ▸ hmem a _ ha)
  obtain ⟨pre, t, call, post, y, rfl, hpre, -, hw, hg⟩ := hp.created h₀ hx
  cases y <;> simp only [Account.Grows, reduceCtorEq] at hg
  rw [Account.member.injEq] at hg
  subst hg
  cases hw with
  | @member rt acc h' k r c ms sr sg b g =>
    obtain ⟨pre', e, mid, acc', args, h'', b', rfl, hacc, -, hc, hk, -, hadr⟩ :=
      hpre.receipt_accepted (hsig _ _ _ _ _ g.signatureAddress) g.signature
    have hcon : acc'.contract.key = acc.contract.key := hc.symm.trans g.signatureBound
    have heq := (Pda.derivation_inj hadr (hcon ▸ g.contractAddress)).1
    rw [Derivation.contract.injEq] at heq
    obtain ⟨t', n', b'', hb⟩ := hm
    have heq' := (Pda.derivation_inj g.multisigAddress (hmm ▸ hb)).1
    rw [Derivation.multisig.injEq] at heq'
    refine ⟨pre', e, mid, (t, ⟨rt, .recordVerifiedMultisig acc h' k⟩), post, acc', args, by simp,
      ?_, hk.symm.trans g.signatureKey, acc, h', rfl, hmm⟩
    rw [← heq'.1, ← heq]
    exact hacc

/-- An account that earlier versions of the program may have left at `a`: the registry, contracts at
their own addresses, signer records with any content, receipts derived without the contract,
agreements derived without their settings and members of those. -/
inductive Legacy (D : Pda) (a : Pubkey) : Account → Prop
  | registry {r : ContractRegistry} {b : UInt8} (h : D.derive .registry b = some a) :
      Legacy D a (.registry r)
  | contract {c : Contract} {b : UInt8} (h : D.derive (.contract c.contractHash) b = some a) :
      Legacy D a (.contract c)
  | signerRecord {sr : SignerRecord} {hash k : Bytes 32} {b : UInt8}
      (h : D.derive (.signerRecord hash k) b = some a) : Legacy D a (.signerRecord sr)
  | signature {sg : ObliviaSignature} {k sc : Bytes 32} {b : UInt8}
      (h : D.derive (.oldSignature k sc) b = some a) : Legacy D a (.signature sg)
  | multisig {ms : MultiSigContract} {hash : Bytes 32} {b : UInt8}
      (h : D.derive (.oldMultisig hash) b = some a) : Legacy D a (.multisig ms)
  | member {mm : MultiSigMember} {hash k : Bytes 32} {b b' : UInt8}
      (old : D.derive (.oldMultisig hash) b = some mm.multisig)
      (h : D.derive (.member mm.multisig k) b' = some a) : Legacy D a (.member mm)

def LegacyStore (D : Pda) (s : Store) : Prop := ∀ a x, s.lookup a = some x → Legacy D a x

theorem LegacyStore.signature_free (h₀ : LegacyStore D s₀) {a c : Pubkey} {k sc : Bytes 32}
    {b : UInt8} (ha : D.derive (.signature c k sc) b = some a) : s₀.lookup a = none := by
  refine Option.eq_none_iff_forall_ne_some.2 fun x hx => ?_
  cases h₀ a x hx <;> exact absurd (Pda.derivation_inj ‹_› ha).1 (by simp)

theorem LegacyStore.clear (h₀ : LegacyStore D s₀) {h : Bytes 32} {m : Pubkey}
    (hm : BoundTo D h m) : Clear s₀ m := by
  obtain ⟨t, n, b, hb⟩ := hm
  refine ⟨Option.eq_none_iff_forall_ne_some.2 fun x hx => ?_, fun a mm ha hmm => ?_⟩
  · cases h₀ m x hx <;> exact absurd (Pda.derivation_inj ‹_› hb).1 (by simp)
  · cases h₀ a _ ha with
    | member old _ => exact absurd (Pda.derivation_inj old (hmm ▸ hb)).1 (by simp)

/-- Over whatever earlier versions left, and over every run: a key counted for an agreement bound
to its settings had its proof for the agreement's contract accepted before; a finalized one has
met its threshold with such keys; and `verify_signature` passes only receipts made by accepting
their proof for the contract. -/
theorem counting_sound (h₀ : LegacyStore D s₀) (txs : List (List Call)) :
    (∀ h m, BoundTo D h m →
      (∀ a mm, (run D groth16 s₀ txs).lookup a = some (.member mm) → mm.multisig = m →
        ∃ pre e mid e' post acc args,
          journal D groth16 s₀ txs = pre ++ e :: (mid ++ e' :: post)
            ∧ Accepted groth16 h acc args e ∧ args.keyCommitment = mm.keyCommitment
            ∧ CountsKey m mm.keyCommitment e')
      ∧ ∀ ms, (run D groth16 s₀ txs).lookup m = some (.multisig ms) → ms.finalized = true →
        ∃ ks : Finset (Bytes 32), ks.card = ms.threshold.toNat ∧ ∀ k ∈ ks,
          ∃ e ∈ journal D groth16 s₀ txs, ∃ acc args, Accepted groth16 h acc args e
            ∧ args.keyCommitment = k)
    ∧ ∀ pre t rt acc post,
        journal D groth16 s₀ txs = pre ++ (t, ⟨rt, .verifySignature acc⟩) :: post →
        ∃ c sg, t.lookup acc.contract.key = some (.contract c)
          ∧ t.lookup acc.signature.key = some (.signature sg)
          ∧ ∃ e ∈ pre, ∃ acc' args, Accepted groth16 c.contractHash acc' args e
            ∧ acc'.signature.key = acc.signature.key ∧ args.keyCommitment = sg.keyCommitment
            ∧ args.signatureCommitment = sg.signatureCommitment := by
  have hp : Path D groth16 s₀ _ _ := Batch.path_run s₀ txs
  refine ⟨fun h m hm => ?_, fun pre t rt acc post hj => ?_⟩
  · have hmem a mm (ha : (run D groth16 s₀ txs).lookup a = some (.member mm))
        (hmm : mm.multisig = m) := Path.member_counted hm hp
      (fun _ _ _ _ _ => h₀.signature_free) (h₀.clear hm).member ha hmm
    refine ⟨hmem, fun ms hms hf => ?_⟩
    obtain ⟨q, hq⟩ := (Path.tallied (h₀.clear hm).tallied hp).agreement ms hms
    refine ⟨q.keys, (hq.finalized.1 hf).trans hq.threshold, fun k hk => ?_⟩
    obtain ⟨a, mm, ha, hmm, rfl⟩ := hq.mem_keys.1 hk
    obtain ⟨pre, e, mid, e', post, acc, args, hj, hacc, hkey, -⟩ := hmem a mm ha hmm
    exact ⟨e, by simp [hj], acc, args, hacc, hkey⟩
  · obtain ⟨hpre, t', hc, -⟩ := hp.at_step hj
    cases exec_eq_ok.1 hc with
    | @verifySignature _ _ c sg g =>
      obtain ⟨pre', e, mid, acc', args, h, b, rfl, hacc, hsig, hcon, hk, hsc, hadr⟩ :=
        Path.receipt_accepted hpre (h₀.signature_free g.signatureAddress) g.signature
      have heq := (Pda.derivation_inj hadr ((hcon.symm.trans g.bound) ▸ g.contractAddress)).1
      rw [Derivation.contract.injEq] at heq
      exact ⟨c, sg, g.contract, g.signature, e, by simp, acc', args, heq ▸ hacc, hsig, hk.symm,
        hsc.symm⟩

section Sample

/-! A contract, an agreement of two out of three keys on it, and two keys that sign, at the
addresses they have under the program's id. -/

def sampleHash : Bytes 32 :=
  .ofNat 32 0x0102030405060708090a0b0c0d0e0f101112131415161718191a1b1c1d1e1f20

def sampleKey (i : ℕ) : Bytes 32 := .ofNat 32 i

def sampleSig (i : ℕ) : Bytes 32 := .ofNat 32 (10 + i)

def sampleRegistry : Pubkey :=
  .ofNat 32 0x1ecc9a5b0d8a2939551b623ff2792e754e1557f250a34402de1081f624f7bc21

def sampleContract : Pubkey :=
  .ofNat 32 0x5be74cd0d93334c683fd49615382c912defcfc9fd96ae9cc960fb80e885648af

def sampleMultisig : Pubkey :=
  .ofNat 32 0x4ad2b0d3c3a6eac81a43553a35b593a9dbbaa7e5beb3bf9da557b7e40cf75680

def sampleOldRecord : Pubkey :=
  .ofNat 32 0x6c893eb5f0d1abcd28e476a559999a496fc098338512a6be5ab1b9e7e8c7b945

def samplePda : Pda :=
  .ofTable
    [(Derivation.registry.preimage 250, sampleRegistry),
      ((Derivation.contract sampleHash).preimage 255, sampleContract),
      ((Derivation.multisig sampleHash 2 3).preimage 254, sampleMultisig),
      ((Derivation.signature sampleContract (sampleKey 1) (sampleSig 1)).preimage 255,
        .ofNat 32 0x83134ad81eefe3f988bccb2fc7b8ccac5472b4aad4616cddbf0b020f2b269e3e),
      ((Derivation.signerRecord sampleHash (sampleKey 1)).preimage 255,
        .ofNat 32 0xf7de36d5fda7ffeced026e6870ed00a1c142b0a400fccfcaa9004291461994c6),
      ((Derivation.member sampleMultisig (sampleKey 1)).preimage 255,
        .ofNat 32 0x10a96df75408c23779996ccb0702dc4cb3757ec346f6cde9935d396e9fc7122c),
      ((Derivation.signature sampleContract (sampleKey 2) (sampleSig 2)).preimage 255,
        .ofNat 32 0x5e2c4494c68f6fac98128bc04147bac1fa81160ec612e0428c58c8b684b9331a),
      ((Derivation.signerRecord sampleHash (sampleKey 2)).preimage 255,
        .ofNat 32 0x9fc3f33cf9e7f2b6986da7a1938341e745776fc46db529512d5c38b8c927ea78),
      ((Derivation.member sampleMultisig (sampleKey 2)).preimage 251,
        .ofNat 32 0x18e3641059be67ce834a5a2ebb2349df1f2380b39e783f0c9566d01d141d8d05),
      ((Derivation.signerRecord sampleHash (sampleKey 3)).preimage 255, sampleOldRecord)]
    (by decide +kernel)

theorem find_sampleRegistry :
    samplePda.findProgramAddress .registry = some (sampleRegistry, 250) := by decide +kernel

theorem find_sampleContract :
    samplePda.findProgramAddress (.contract sampleHash) = some (sampleContract, 255) := by
  decide +kernel

theorem find_sampleMultisig :
    samplePda.findProgramAddress (.multisig sampleHash 2 3) = some (sampleMultisig, 254) := by
  decide +kernel

/-- Accepts one proof for every statement whose inputs are below the modulus. -/
def sampleVerifier : Groth16Verifier := fun a _ _ inp =>
  decide (a = Bytes.zero 64 ∧ ∀ i, (inp i).toNat < scalarModulus)

def sampleProof (i : ℕ) : ProofArgs where
  proofA := .zero 64
  proofB := .zero 128
  proofC := .zero 64
  pubInputs := ⟨(sampleKey i).toList ++ (sampleSig i).toList
    ++ (contractHashLimbs sampleHash).1.toList ++ (contractHashLimbs sampleHash).2.toList, by simp⟩
  keyCommitment := sampleKey i
  signatureCommitment := sampleSig i

def samplePayer : Pubkey := .ofNat 32 7

def sampleRuntime : Runtime := ⟨1700000000, true⟩

def sampleCreate : List Call :=
  [⟨sampleRuntime, .createMultisig (.of sampleContract sampleMultisig samplePayer) sampleHash 2 3⟩]

/-- The registry, the contract and the agreement, from nothing. -/
def sampleSetup : List (List Call) :=
  [[⟨sampleRuntime, .initializeRegistry (.of sampleRegistry samplePayer)⟩],
    [⟨sampleRuntime, .registerContract (.of sampleRegistry sampleContract samplePayer)
      sampleHash⟩],
    sampleCreate]

/-- The transaction the SDK sends for the key `i`. -/
def sampleSign (i : ℕ) : List Call :=
  (Sdk.submitVerifiedMultiSig samplePda samplePayer sampleRuntime sampleHash 2 3
    (sampleProof i)).toOption.getD []

/-- A registry and a contract of an earlier version, and a signer record that no proof backs. -/
def sampleUpgraded : Store :=
  ((∅ : Store).insert sampleRegistry (.registry ⟨samplePayer, 1, 0, 250⟩) |>.insert sampleContract
    (.contract ⟨sampleHash, 1600000000, 0, true, 255⟩)).insert sampleOldRecord
    (.signerRecord ⟨sampleContract, sampleKey 3, 1600000000, 255⟩)

theorem legacyStore_sampleUpgraded : LegacyStore samplePda sampleUpgraded := by
  intro a x hx
  simp only [sampleUpgraded, Finmap.lookup_insert_eq] at hx
  split_ifs at hx with h₁ h₂ h₃
  · cases hx
    have h : samplePda.derive (.signerRecord sampleHash (sampleKey 3)) 255
        = some sampleOldRecord := by decide +kernel
    exact h₁ ▸ .signerRecord h
  · cases hx
    have h : samplePda.derive (.contract sampleHash) 255 = some sampleContract := by
      decide +kernel
    exact h₂ ▸ .contract h
  · cases hx
    have h : samplePda.derive .registry 250 = some sampleRegistry := by decide +kernel
    exact h₃ ▸ .registry h
  · simp at hx

/-- Two keys finalize the agreement, and each had its proof accepted. -/
theorem counting_sound_sample : ∃ ks : Finset (Bytes 32), ks.card = 2 ∧ ∀ k ∈ ks,
    ∃ e ∈ journal samplePda sampleVerifier sampleUpgraded [sampleCreate, sampleSign 1,
      sampleSign 2], ∃ acc args, Accepted sampleVerifier sampleHash acc args e
        ∧ args.keyCommitment = k := by
  have hm : BoundTo samplePda sampleHash sampleMultisig := ⟨2, 3, 254, by decide +kernel⟩
  exact ((counting_sound legacyStore_sampleUpgraded [sampleCreate, sampleSign 1,
    sampleSign 2]).1 _ _ hm).2 ⟨sampleContract, 2, 2, 3, true, 1700000000, 254⟩ (by decide +kernel)
    rfl

end Sample

/-- The verifier rejects a public input that is not below the modulus. -/
def Canonical (groth16 : Groth16Verifier) : Prop :=
  ∀ a b c inp, groth16 a b c inp = true → ∀ i, (inp i).toNat < scalarModulus

/-- A key verified for a contract is not verified for it again: its signer record is there. -/
theorem Path.verified_once {pre mid post : List (Store × Call)} {t t' : Store} {rt rt' : Runtime}
    {acc acc' : VerifyGroth16V2} {args args' : ProofArgs}
    (hp : Path D groth16 s₀ (pre ++ (t, ⟨rt, .verifyGroth16V2 acc args⟩)
      :: (mid ++ (t', ⟨rt', .verifyGroth16V2 acc' args'⟩) :: post)) s) :
    ∃ c c', t.lookup acc.contract.key = some (.contract c)
      ∧ t'.lookup acc'.contract.key = some (.contract c')
      ∧ verifyContractBoundProof groth16 c.contractHash args = .ok ()
      ∧ verifyContractBoundProof groth16 c'.contractHash args' = .ok ()
      ∧ ¬ (c.contractHash = c'.contractHash ∧ args.keyCommitment = args'.keyCommitment) := by
  obtain ⟨-, t₁, h₁, -⟩ := hp.at_step rfl
  have hsuf := hp.suffix rfl h₁
  obtain ⟨hmid, t₂, h₂, -⟩ := hsuf.at_step rfl
  cases exec_eq_ok.1 h₁ with
  | @verifyGroth16V2 _ _ _ r c sb rb g =>
    cases exec_eq_ok.1 h₂ with
    | @verifyGroth16V2 _ _ _ r' c' sb' rb' g' =>
      refine ⟨c, c', g.contract, g'.contract, g.proof, g'.proof, fun ⟨hh, hk⟩ => ?_⟩
      have hrec := (Path.extends hmid).signerRecord g.lookup_signerRecord
      have hadr := g'.signerRecord.address
      rw [← hh, ← hk, g.signerRecord.address, Option.some.injEq, Prod.mk.injEq] at hadr
      exact g'.signerRecord.ne_of_lookup hrec hadr.1.symm

/-- The signer record of the contract of hash `h` and the key `k`. -/
def RecordFor (D : Pda) (s : Store) (h k : Bytes 32) (sr : SignerRecord) : Prop :=
  StoredAt D s (.signerRecord h k) (.signerRecord sr)

/-- The account at `a` is a receipt of the key `k` on the contract of hash `h`. -/
def ReceiptFor (D : Pda) (s : Store) (h k : Bytes 32) (a : Pubkey) (sg : ObliviaSignature) :
    Prop :=
  s.lookup a = some (.signature sg) ∧ sg.keyCommitment = k
    ∧ ∃ b, D.findProgramAddress (.contract h) = some (sg.contract, b)

section Pairs

variable {h k : Bytes 32} {sr : SignerRecord} {sg : ObliviaSignature} {a : Pubkey}

/-- A signer record has its receipt. -/
theorem RecordFor.receipt (hs : Sound D s) (hr : RecordFor D s h k sr) :
    ∃ a sg, ReceiptFor D s h k a sg := by
  obtain ⟨ra, b, hfind, hrec⟩ := hr
  cases hs.placed ra _ hrec with
  | @signerRecord _ c sg ga hcon hadr hreceipt hpair =>
    have hd := Pda.find_inj hadr hfind
    rw [Derivation.signerRecord.injEq] at hd
    cases hs.placed _ _ hcon with
    | contract hc _ _ =>
      refine ⟨ga, sg, hreceipt, hpair.keyCommitment.symm.trans hd.2, c.bump, ?_⟩
      rw [← hd.1, hc, hpair.contract]

/-- A receipt has its signer record, with the same contract, key and time. -/
theorem ReceiptFor.record (hs : Sound D s) (hr : ReceiptFor D s h k a sg) :
    ∃ sr, RecordFor D s h k sr ∧ Paired sg sr := by
  obtain ⟨hsg, rfl, b, hfind⟩ := hr
  cases hs.placed a _ hsg with
  | @signature _ c sr ra _ hcon hrec hra hpair =>
    have hh := (hs.placed _ _ hcon).contractHash_eq (Pda.derive_of_find hfind)
    exact ⟨sr, ⟨ra, sr.bump, hh ▸ hra, hrec⟩, hpair⟩

theorem ReceiptFor.unique (hs : Sound D s) {a' : Pubkey} {sg' : ObliviaSignature}
    (hr : ReceiptFor D s h k a sg) (hr' : ReceiptFor D s h k a' sg') : a = a' := by
  obtain ⟨hsg, hk, b, hfind⟩ := hr
  obtain ⟨hsg', hk', b', hfind'⟩ := hr'
  rw [hfind, Option.some.injEq, Prod.mk.injEq] at hfind'
  exact hs.unique a a' sg sg' hsg hsg' hfind'.1 (hk.trans hk'.symm)

theorem RecordFor.unique {sr' : SignerRecord} (hr : RecordFor D s h k sr)
    (hr' : RecordFor D s h k sr') : sr = sr' := by
  obtain ⟨a, b, hfind, ha⟩ := hr
  obtain ⟨a', b', hfind', ha'⟩ := hr'
  rw [hfind, Option.some.injEq, Prod.mk.injEq] at hfind'
  rw [← hfind'.1, ha, Option.some.injEq, Account.signerRecord.injEq] at ha'
  exact ha'

end Pairs

/-- No statement is recorded twice, and no key signs a contract twice, not even as another
encoding of the same field element; signer records and receipts come in pairs. -/
theorem no_replay (hcan : Canonical groth16) (txs : List (List Call)) :
    (∀ pre t rt acc args mid t' rt' acc' args' post,
      journal D groth16 ∅ txs = pre ++ (t, ⟨rt, .verifyGroth16V2 acc args⟩)
        :: (mid ++ (t', ⟨rt', .verifyGroth16V2 acc' args'⟩) :: post) →
      args.pubInputs ≠ args'.pubInputs
        ∧ ∀ c c', t.lookup acc.contract.key = some (.contract c) →
          t'.lookup acc'.contract.key = some (.contract c') →
          c.contractHash = c'.contractHash →
          ¬ args.keyCommitment.toNat ≡ args'.keyCommitment.toNat [MOD scalarModulus])
    ∧ (∀ h k, (∃ sr, RecordFor D (run D groth16 ∅ txs) h k sr)
      ↔ ∃! a, ∃ sg, ReceiptFor D (run D groth16 ∅ txs) h k a sg)
    ∧ (∀ h k sr a sg, RecordFor D (run D groth16 ∅ txs) h k sr →
      ReceiptFor D (run D groth16 ∅ txs) h k a sg →
      sr.contract = sg.contract ∧ sr.keyCommitment = sg.keyCommitment
        ∧ sr.timestamp = sg.timestamp)
    ∧ (∀ a sr, (run D groth16 ∅ txs).lookup a = some (.signerRecord sr) →
      ∃ h, RecordFor D (run D groth16 ∅ txs) h sr.keyCommitment sr)
    ∧ ∀ a sg, (run D groth16 ∅ txs).lookup a = some (.signature sg) →
      ∃ h, ReceiptFor D (run D groth16 ∅ txs) h sg.keyCommitment a sg := by
  have hreach : Reachable D groth16 (run D groth16 ∅ txs) := ⟨txs, rfl⟩
  have hs := hreach.sound
  refine ⟨fun pre t rt acc args mid t' rt' acc' args' post hj => ?_, fun h k => ⟨?_, ?_⟩,
    fun h k sr a sg hr hr' => ?_, fun a sr ha => ?_, fun a sg ha => ?_⟩
  · have hp : Path D groth16 ∅ (journal D groth16 ∅ txs) _ := Batch.path_run ∅ txs
    rw [hj] at hp
    obtain ⟨c, c', hc, hc', ha, ha', hne⟩ := Path.verified_once hp
    refine ⟨fun hpub => hne (contractHash_eq_of_pubInputs ha ha' hpub), ?_⟩
    intro c₁ c₁' hc₁ hc₁' hh hmod
    rw [hc, Option.some.injEq, Account.contract.injEq] at hc₁
    rw [hc', Option.some.injEq, Account.contract.injEq] at hc₁'
    obtain ⟨-, -, hk, -, hg⟩ := verifyContractBoundProof_eq_ok.1 ha
    obtain ⟨-, -, hk', -, hg'⟩ := verifyContractBoundProof_eq_ok.1 ha'
    have hlt := hcan _ _ _ _ hg 0
    have hlt' := hcan _ _ _ _ hg' 0
    rw [hk] at hlt
    rw [hk'] at hlt'
    refine hne ⟨by rw [hc₁, hc₁', hh], Bytes.toNat_inj ?_⟩
    rwa [Nat.ModEq, Nat.mod_eq_of_lt hlt, Nat.mod_eq_of_lt hlt'] at hmod
  · rintro ⟨sr, hr⟩
    obtain ⟨a, sg, hr'⟩ := hr.receipt hs
    exact ⟨a, ⟨sg, hr'⟩, fun a' ⟨sg', hr''⟩ => hr''.unique hs hr'⟩
  · rintro ⟨a, ⟨sg, hr⟩, -⟩
    obtain ⟨sr, hr', -⟩ := hr.record hs
    exact ⟨sr, hr'⟩
  · obtain ⟨sr', hr₁, hpair⟩ := hr'.record hs
    rw [hr.unique hr₁]
    exact ⟨hpair.contract, hpair.keyCommitment, hpair.timestamp⟩
  · cases hs.placed a _ ha with
    | signerRecord _ hadr _ _ => exact ⟨_, a, _, hadr, ha⟩
  · cases hs.placed a _ ha with
    | signature _ hcon _ _ _ =>
      cases hs.placed _ _ hcon with
      | contract hc _ _ => exact ⟨_, ha, rfl, _, hc⟩

/-- The first key of the sample has one receipt after both have signed. -/
theorem no_replay_sample : ∃! a, ∃ sg, ReceiptFor samplePda
    (run samplePda sampleVerifier ∅ (sampleSetup ++ [sampleSign 1, sampleSign 2])) sampleHash
    (sampleKey 1) a sg := by
  have hcan : Canonical sampleVerifier := fun a b c inp h i => (of_decide_eq_true h).2 i
  refine ((no_replay hcan _).2.1 _ _).1 ⟨⟨sampleContract, sampleKey 1, 1700000000, 255⟩, ?_⟩
  exact ⟨_, 255, rfl, by decide +kernel⟩

end Oblivia

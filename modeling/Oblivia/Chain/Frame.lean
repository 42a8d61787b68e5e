import Oblivia.Chain.Steps
/-!
# What a step leaves alone

An account that exists stays, of its type and with its identity; its counters only grow, and a
finalized agreement is never touched (`Effect.extends`).  What a step writes is one of the
accounts its instruction creates or updates (`Effect.written`).
-/

namespace Oblivia

/-- How an account may change once it exists. -/
def Account.Grows : Account → Account → Prop
  | .registry r, .registry r' => r'.authority = r.authority ∧ r'.bump = r.bump
    ∧ r.totalContracts ≤ r'.totalContracts ∧ r.totalSignatures ≤ r'.totalSignatures
  | .contract c, .contract c' => c'.contractHash = c.contractHash ∧ c'.timestamp = c.timestamp
    ∧ c'.active = c.active ∧ c'.bump = c.bump ∧ c.signatureCount ≤ c'.signatureCount
  | .multisig ms, .multisig ms' => ms'.contract = ms.contract ∧ ms'.threshold = ms.threshold
    ∧ ms'.maxSigners = ms.maxSigners ∧ ms'.bump = ms.bump
    ∧ ms.signaturesCollected ≤ ms'.signaturesCollected ∧ (ms.finalized = true → ms' = ms)
  | a, a' => a' = a

theorem Account.Grows.refl (a : Account) : a.Grows a := by
  cases a <;> simp [Grows]

theorem Account.Grows.trans {a b c : Account} (h₁ : a.Grows b) (h₂ : b.Grows c) : a.Grows c := by
  cases a <;> cases b <;> simp only [Grows, reduceCtorEq] at h₁ <;> cases c <;>
    simp only [Grows, reduceCtorEq] at h₂ ⊢
  case registry.registry.registry =>
    obtain ⟨a₁, a₂, a₃, a₄⟩ := h₁
    obtain ⟨b₁, b₂, b₃, b₄⟩ := h₂
    exact ⟨b₁.trans a₁, b₂.trans a₂, UInt64.le_trans a₃ b₃, UInt64.le_trans a₄ b₄⟩
  case contract.contract.contract =>
    obtain ⟨a₁, a₂, a₃, a₄, a₅⟩ := h₁
    obtain ⟨b₁, b₂, b₃, b₄, b₅⟩ := h₂
    exact ⟨b₁.trans a₁, b₂.trans a₂, b₃.trans a₃, b₄.trans a₄, UInt64.le_trans a₅ b₅⟩
  case multisig.multisig.multisig =>
    obtain ⟨a₁, a₂, a₃, a₄, a₅, a₆⟩ := h₁
    obtain ⟨b₁, b₂, b₃, b₄, b₅, b₆⟩ := h₂
    refine ⟨b₁.trans a₁, b₂.trans a₂, b₃.trans a₃, b₄.trans a₄, UInt8.le_trans a₅ b₅,
      fun hf => ?_⟩
    have hb := a₆ hf
    rw [b₆ (by rw [hb]; exact hf), hb]
  all_goals exact h₂.trans h₁

/-- Every account of `s` is in `s'`, and has only grown. -/
def Extends (s s' : Store) : Prop :=
  ∀ a x, s.lookup a = some x → ∃ x', s'.lookup a = some x' ∧ x.Grows x'

theorem Extends.refl (s : Store) : Extends s s := fun _ x h => ⟨x, h, .refl x⟩

theorem Extends.trans {s₁ s₂ s₃ : Store} (h₁ : Extends s₁ s₂) (h₂ : Extends s₂ s₃) :
    Extends s₁ s₃ := by
  intro a x hx
  obtain ⟨y, hy, hxy⟩ := h₁ a x hx
  obtain ⟨z, hz, hyz⟩ := h₂ a y hy
  exact ⟨z, hz, hxy.trans hyz⟩

section Kinds

variable {s s' : Store} (he : Extends s s') {a : Pubkey}
include he

theorem Extends.contract {c : Contract} (h : s.lookup a = some (.contract c)) :
    ∃ c', s'.lookup a = some (.contract c') ∧ (Account.contract c).Grows (.contract c') := by
  obtain ⟨x, hx, hg⟩ := he a _ h
  cases x <;> simp only [Account.Grows, reduceCtorEq] at hg
  exact ⟨_, hx, hg⟩

theorem Extends.multisig {ms : MultiSigContract} (h : s.lookup a = some (.multisig ms)) :
    ∃ ms', s'.lookup a = some (.multisig ms') ∧ (Account.multisig ms).Grows (.multisig ms') := by
  obtain ⟨x, hx, hg⟩ := he a _ h
  cases x <;> simp only [Account.Grows, reduceCtorEq] at hg
  exact ⟨_, hx, hg⟩

theorem Extends.signature {sg : ObliviaSignature} (h : s.lookup a = some (.signature sg)) :
    s'.lookup a = some (.signature sg) := by
  obtain ⟨x, hx, hg⟩ := he a _ h
  rwa [hg] at hx

theorem Extends.signerRecord {sr : SignerRecord} (h : s.lookup a = some (.signerRecord sr)) :
    s'.lookup a = some (.signerRecord sr) := by
  obtain ⟨x, hx, hg⟩ := he a _ h
  rwa [hg] at hx

theorem Extends.member {mm : MultiSigMember} (h : s.lookup a = some (.member mm)) :
    s'.lookup a = some (.member mm) := by
  obtain ⟨x, hx, hg⟩ := he a _ h
  rwa [hg] at hx

end Kinds

theorem extends_insert_new {s : Store} {a : Pubkey} {x : Account} (h : s.lookup a = none) :
    Extends s (s.insert a x) := by
  intro b y hb
  have hne : b ≠ a := by rintro rfl; rw [h] at hb; cases hb
  exact ⟨y, by rw [Finmap.lookup_insert_of_ne _ hne, hb], .refl y⟩

theorem extends_insert_grown {s : Store} {a : Pubkey} {x x' : Account}
    (h : s.lookup a = some x) (hg : x.Grows x') : Extends s (s.insert a x') := by
  intro b y hb
  by_cases hba : b = a
  · subst hba
    rw [h, Option.some.injEq] at hb
    exact ⟨x', Finmap.lookup_insert _, hb ▸ hg⟩
  · exact ⟨y, by rw [Finmap.lookup_insert_of_ne _ hba, hb], .refl y⟩

theorem lookup_insert_other {s : Store} {a b : Pubkey} {x y : Account} (ha : s.lookup a = none)
    (hb : s.lookup b = some y) : (s.insert a x).lookup b = some y := by
  rw [Finmap.lookup_insert_of_ne _ (by rintro rfl; rw [ha] at hb; cases hb), hb]

theorem le_add_one_u64 {n : UInt64} (h : n ≠ 18446744073709551615) : n ≤ n + 1 := by
  rw [UInt64.le_iff_toNat_le, toNat_add_one_u64 h]
  omega

theorem le_add_one_u8 {n : UInt8} (h : n ≠ 255) : n ≤ n + 1 := by
  rw [UInt8.le_iff_toNat_le, toNat_add_one_u8 h]
  omega

theorem grows_registered {r : ContractRegistry} (h : r.totalContracts ≠ 18446744073709551615) :
    (Account.registry r).Grows (.registry r.registered) := by
  simp [Account.Grows, ContractRegistry.registered, le_add_one_u64 h]

theorem grows_registry_signed {r : ContractRegistry}
    (h : r.totalSignatures ≠ 18446744073709551615) :
    (Account.registry r).Grows (.registry r.signed) := by
  simp [Account.Grows, ContractRegistry.signed, le_add_one_u64 h]

theorem grows_contract_signed {c : Contract} (h : c.signatureCount ≠ 18446744073709551615) :
    (Account.contract c).Grows (.contract c.signed) := by
  simp [Account.Grows, Contract.signed, le_add_one_u64 h]

theorem grows_counted {rt : Runtime} {ms : MultiSigContract} (hf : ms.finalized = false)
    (hc : ms.signaturesCollected ≠ 255) :
    (Account.multisig ms).Grows (.multisig (ms.counted rt)) := by
  simp only [Account.Grows, MultiSigContract.counted, collect]
  split_ifs <;> simp [hf, le_add_one_u8 hc]

theorem grows_closed {rt : Runtime} {ms : MultiSigContract} (hf : ms.finalized = false) :
    (Account.multisig ms).Grows (.multisig (ms.closed rt)) := by
  simp [Account.Grows, MultiSigContract.closed, hf]

section Step

variable {D : Pda} {groth16 : Groth16Verifier} {s s' : Store} {call : Call}

theorem Fresh.ne {rt : Runtime} {d d' : Derivation} {m m' : AccountMeta} {b b' : UInt8}
    (h : Fresh D rt s d m b) (h' : Fresh D rt s d' m' b') (hd : d ≠ d') : m.key ≠ m'.key := by
  intro hk
  exact hd (Pda.find_inj h.address (hk ▸ h'.address))

section Verify

variable {rt : Runtime} {acc : VerifyGroth16V2} {args : ProofArgs} {r : ContractRegistry}
  {c : Contract} {sb rb : UInt8} (g : VerifyGuard D groth16 rt s acc args r c sb rb)
include g

theorem VerifyGuard.signerRecord_free (x : Account) :
    (s.insert acc.signature.key x).lookup acc.signerRecord.key = none :=
  (Finmap.lookup_insert_of_ne _ (g.signerRecord.ne g.signature (by simp))).trans
    g.signerRecord.free

/-- Creating the receipt and the signer record keeps the accounts there are. -/
theorem VerifyGuard.kept {a : Pubkey} {y : Account} (h : s.lookup a = some y) (x x' : Account) :
    ((s.insert acc.signature.key x).insert acc.signerRecord.key x').lookup a = some y :=
  lookup_insert_other (g.signerRecord_free x) (lookup_insert_other g.signature.free h)

theorem VerifyGuard.registry_ne : acc.registry.key ≠ acc.contract.key := by
  intro hk
  have := g.registry
  rw [hk, g.contract] at this
  cases this

theorem VerifyGuard.registry_kept (x x' x'' : Account) :
    (((s.insert acc.signature.key x).insert acc.signerRecord.key x').insert acc.contract.key
      x'').lookup acc.registry.key = some (.registry r) :=
  (Finmap.lookup_insert_of_ne _ g.registry_ne).trans (g.kept g.registry x x')

end Verify

theorem Fresh.ne_of_lookup {rt : Runtime} {d : Derivation} {m : AccountMeta} {b : UInt8}
    {a : Pubkey} {x : Account} (h : Fresh D rt s d m b) (ha : s.lookup a = some x) :
    m.key ≠ a := by
  intro hk
  have := h.free
  rw [hk, ha] at this
  cases this

/-- A step keeps every account, with its identity. -/
theorem Effect.extends (h : Effect D groth16 s call s') : Extends s s' := by
  cases h with
  | initializeRegistry g => exact extends_insert_new g.registry.free
  | verifySignature => exact .refl s
  | createMultisig g => exact extends_insert_new g.multisig.free
  | registerContract g =>
    exact (extends_insert_new g.contract.free).trans (extends_insert_grown
      (lookup_insert_other g.contract.free g.registry) (grows_registered g.count))
  | verifyGroth16V2 g =>
    exact (extends_insert_new g.signature.free).trans <|
      (extends_insert_new (g.signerRecord_free _)).trans <|
      (extends_insert_grown (g.kept g.contract _ _) (grows_contract_signed g.contractCount)).trans
      (extends_insert_grown (g.registry_kept _ _ _) (grows_registry_signed g.registryCount))
  | recordVerifiedMultisig g =>
    exact (extends_insert_new g.member.free).trans (extends_insert_grown
      (lookup_insert_other g.member.free g.multisig) (grows_counted g.pending g.collected))
  | finalizeMultisig g => exact extends_insert_grown g.multisig (grows_closed g.pending)

variable (D groth16 s) in
/-- The accounts a step writes. -/
inductive Writes : Call → Pubkey → Account → Prop
  | registry {rt : Runtime} {acc : Initialize} {b : UInt8} (g : InitializeGuard D rt s acc b) :
      Writes ⟨rt, .initializeRegistry acc⟩ acc.registry.key (.registry (newRegistry acc b))
  | contract {rt : Runtime} {acc : RegisterContract} {h : Bytes 32} {r : ContractRegistry}
      {b : UInt8} (g : RegisterGuard D rt s acc h r b) :
      Writes ⟨rt, .registerContract acc h⟩ acc.contract.key (.contract (newContract rt h b))
  | registered {rt : Runtime} {acc : RegisterContract} {h : Bytes 32} {r : ContractRegistry}
      {b : UInt8} (g : RegisterGuard D rt s acc h r b) :
      Writes ⟨rt, .registerContract acc h⟩ acc.registry.key (.registry r.registered)
  | multisig {rt : Runtime} {acc : CreateMultiSig} {h : Bytes 32} {t n : UInt8} {c : Contract}
      {b : UInt8} (g : CreateGuard D rt s acc h t n c b) :
      Writes ⟨rt, .createMultisig acc h t n⟩ acc.multisig.key (.multisig (newMultisig acc t n b))
  | signature {rt : Runtime} {acc : VerifyGroth16V2} {args : ProofArgs} {r : ContractRegistry}
      {c : Contract} {sb rb : UInt8} (g : VerifyGuard D groth16 rt s acc args r c sb rb) :
      Writes ⟨rt, .verifyGroth16V2 acc args⟩ acc.signature.key
        (.signature (newSignature rt acc args sb))
  | signerRecord {rt : Runtime} {acc : VerifyGroth16V2} {args : ProofArgs} {r : ContractRegistry}
      {c : Contract} {sb rb : UInt8} (g : VerifyGuard D groth16 rt s acc args r c sb rb) :
      Writes ⟨rt, .verifyGroth16V2 acc args⟩ acc.signerRecord.key
        (.signerRecord (newSignerRecord rt acc args rb))
  | contractSigned {rt : Runtime} {acc : VerifyGroth16V2} {args : ProofArgs}
      {r : ContractRegistry} {c : Contract} {sb rb : UInt8}
      (g : VerifyGuard D groth16 rt s acc args r c sb rb) :
      Writes ⟨rt, .verifyGroth16V2 acc args⟩ acc.contract.key (.contract c.signed)
  | registrySigned {rt : Runtime} {acc : VerifyGroth16V2} {args : ProofArgs}
      {r : ContractRegistry} {c : Contract} {sb rb : UInt8}
      (g : VerifyGuard D groth16 rt s acc args r c sb rb) :
      Writes ⟨rt, .verifyGroth16V2 acc args⟩ acc.registry.key (.registry r.signed)
  | member {rt : Runtime} {acc : RecordVerifiedMultiSig} {h k : Bytes 32} {r : ContractRegistry}
      {c : Contract} {ms : MultiSigContract} {sr : SignerRecord} {sg : ObliviaSignature}
      {b : UInt8} (g : RecordGuard D rt s acc h k r c ms sr sg b) :
      Writes ⟨rt, .recordVerifiedMultisig acc h k⟩ acc.multisigMember.key
        (.member (newMember rt acc k b))
  | counted {rt : Runtime} {acc : RecordVerifiedMultiSig} {h k : Bytes 32} {r : ContractRegistry}
      {c : Contract} {ms : MultiSigContract} {sr : SignerRecord} {sg : ObliviaSignature}
      {b : UInt8} (g : RecordGuard D rt s acc h k r c ms sr sg b) :
      Writes ⟨rt, .recordVerifiedMultisig acc h k⟩ acc.multisig.key (.multisig (ms.counted rt))
  | closed {rt : Runtime} {acc : FinalizeMultiSig} {h : Bytes 32} {c : Contract}
      {ms : MultiSigContract} (g : FinalizeGuard D s acc h c ms) :
      Writes ⟨rt, .finalizeMultisig acc h⟩ acc.multisig.key (.multisig (ms.closed rt))

/-- An account after a step is as it was before, or one the step writes. -/
theorem Effect.written {a : Pubkey} {x : Account} (h : Effect D groth16 s call s')
    (hx : s'.lookup a = some x) : s.lookup a = some x ∨ Writes D groth16 s call a x := by
  cases h with
  | initializeRegistry g =>
    rw [initializeStore, Finmap.lookup_insert_eq] at hx
    split_ifs at hx with ha
    · cases hx; subst ha; exact .inr (.registry g)
    · exact .inl hx
  | registerContract g =>
    simp only [registerStore, Finmap.lookup_insert_eq] at hx
    split_ifs at hx with ha ha
    · cases hx; subst ha; exact .inr (.registered g)
    · cases hx; subst ha; exact .inr (.contract g)
    · exact .inl hx
  | verifySignature => exact .inl hx
  | createMultisig g =>
    rw [createStore, Finmap.lookup_insert_eq] at hx
    split_ifs at hx with ha
    · cases hx; subst ha; exact .inr (.multisig g)
    · exact .inl hx
  | verifyGroth16V2 g =>
    simp only [verifyStore, Finmap.lookup_insert_eq] at hx
    split_ifs at hx with ha ha ha ha
    · cases hx; subst ha; exact .inr (.registrySigned g)
    · cases hx; subst ha; exact .inr (.contractSigned g)
    · cases hx; subst ha; exact .inr (.signerRecord g)
    · cases hx; subst ha; exact .inr (.signature g)
    · exact .inl hx
  | recordVerifiedMultisig g =>
    simp only [recordStore, Finmap.lookup_insert_eq] at hx
    split_ifs at hx with ha ha
    · cases hx; subst ha; exact .inr (.counted g)
    · cases hx; subst ha; exact .inr (.member g)
    · exact .inl hx
  | finalizeMultisig g =>
    rw [finalizeStore, Finmap.lookup_insert_eq] at hx
    split_ifs at hx with ha
    · cases hx; subst ha; exact .inr (.closed g)
    · exact .inl hx

end Step

end Oblivia

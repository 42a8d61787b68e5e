import Oblivia.Chain.Runs
/-!
# How many accounts there are

The counters of the program stand for numbers of accounts: the members of an agreement, the
receipts of a contract.  What a step does to the number of accounts that meet a predicate which
growing accounts keep.
-/

namespace Oblivia

open Finmap

/-- A member of the agreement at `m` whose key meets `f`. -/
def memberWhere (m : Pubkey) (f : Bytes 32 → Bool) : Account → Bool
  | .member mm => mm.multisig = m && f mm.keyCommitment
  | _ => false

def memberOf (m : Pubkey) : Account → Bool := memberWhere m fun _ => true

/-- A receipt on the contract at `c`. -/
def receiptOf (c : Pubkey) : Account → Bool
  | .signature sg => sg.contract = c
  | _ => false

/-- Growing accounts keep `p`. -/
def Stable (p : Account → Bool) : Prop := ∀ x y : Account, x.Grows y → p y = p x

theorem stable_memberWhere (m : Pubkey) (f : Bytes 32 → Bool) : Stable (memberWhere m f) := by
  intro x y h
  cases x <;> cases y <;> simp only [Account.Grows, reduceCtorEq] at h <;> first | rfl | rw [h]

theorem stable_receiptOf (c : Pubkey) : Stable (receiptOf c) := by
  intro x y h
  cases x <;> cases y <;> simp only [Account.Grows, reduceCtorEq] at h <;> first | rfl | rw [h]

@[simp]
theorem memberWhere_eq_true {m : Pubkey} {f : Bytes 32 → Bool} {x : Account} :
    memberWhere m f x = true
      ↔ ∃ mm, x = .member mm ∧ mm.multisig = m ∧ f mm.keyCommitment = true := by
  cases x <;> simp [memberWhere]

@[simp]
theorem receiptOf_eq_true {c : Pubkey} {x : Account} :
    receiptOf c x = true ↔ ∃ sg, x = .signature sg ∧ sg.contract = c := by
  cases x <;> simp [receiptOf]

variable {D : Pda} {groth16 : Groth16Verifier} {rt : Runtime} {s : Store} {p : Account → Bool}

theorem countWhere_initializeStore {acc : Initialize} {b : UInt8}
    (g : InitializeGuard D rt s acc b) :
    (initializeStore s acc b).countWhere p
      = s.countWhere p + if p (.registry (newRegistry acc b)) then 1 else 0 :=
  countWhere_insert_new g.registry.free

theorem countWhere_registerStore {acc : RegisterContract} {h : Bytes 32} {r : ContractRegistry}
    {b : UInt8} (g : RegisterGuard D rt s acc h r b) (hp : Stable p) :
    (registerStore rt s acc h r b).countWhere p
      = s.countWhere p + if p (.contract (newContract rt h b)) then 1 else 0 := by
  rw [registerStore, countWhere_insert_same (lookup_insert_other g.contract.free g.registry)
    (hp _ _ (grows_registered g.count)), countWhere_insert_new g.contract.free]

theorem countWhere_createStore {acc : CreateMultiSig} {h : Bytes 32} {t n : UInt8} {c : Contract}
    {b : UInt8} (g : CreateGuard D rt s acc h t n c b) :
    (createStore s acc t n b).countWhere p
      = s.countWhere p + if p (.multisig (newMultisig acc t n b)) then 1 else 0 :=
  countWhere_insert_new g.multisig.free

theorem countWhere_verifyStore {acc : VerifyGroth16V2} {args : ProofArgs} {r : ContractRegistry}
    {c : Contract} {sb rb : UInt8} (g : VerifyGuard D groth16 rt s acc args r c sb rb)
    (hp : Stable p) :
    (verifyStore rt s acc args r c sb rb).countWhere p
      = s.countWhere p + (if p (.signature (newSignature rt acc args sb)) then 1 else 0)
        + if p (.signerRecord (newSignerRecord rt acc args rb)) then 1 else 0 := by
  rw [verifyStore, countWhere_insert_same (g.registry_kept _ _ _)
    (hp _ _ (grows_registry_signed g.registryCount)), countWhere_insert_same (g.kept g.contract _ _)
    (hp _ _ (grows_contract_signed g.contractCount)), countWhere_insert_new
    (g.signerRecord_free _), countWhere_insert_new g.signature.free]

theorem countWhere_recordStore {acc : RecordVerifiedMultiSig} {h k : Bytes 32}
    {r : ContractRegistry} {c : Contract} {ms : MultiSigContract} {sr : SignerRecord}
    {sg : ObliviaSignature} {b : UInt8} (g : RecordGuard D rt s acc h k r c ms sr sg b)
    (hp : Stable p) :
    (recordStore rt s acc k ms b).countWhere p
      = s.countWhere p + if p (.member (newMember rt acc k b)) then 1 else 0 := by
  rw [recordStore, countWhere_insert_same (lookup_insert_other g.member.free g.multisig)
    (hp _ _ (grows_counted g.pending g.collected)), countWhere_insert_new g.member.free]

theorem countWhere_finalizeStore {acc : FinalizeMultiSig} {h : Bytes 32} {c : Contract}
    {ms : MultiSigContract} (g : FinalizeGuard D s acc h c ms) (hp : Stable p) :
    (finalizeStore rt s acc ms).countWhere p = s.countWhere p := by
  rw [finalizeStore, countWhere_insert_same g.multisig (hp _ _ (grows_closed g.pending))]

end Oblivia

import Oblivia.Chain.Provenance
/-!
# The settings of an agreement

The threshold and the capacity of an agreement are part of its address. So an agreement is created
once, by the first `create_multisig` for its settings, and what others create or sign before does
not matter (`settings_free`); the account at its address is always the agreement that was asked
for.
-/

namespace Oblivia

open Finmap

variable {D : Pda} {groth16 : Groth16Verifier} {s s' : Store} {hash : Bytes 32} {t n : UInt8}

/-- The slots name the contract and the agreement, and a payer that can pay for it. -/
structure CreateSlots (rt : Runtime) (acc : CreateMultiSig) (contract multisig : Pubkey) :
    Prop where
  contract : acc.contract.key = contract
  multisig : acc.multisig.key = multisig
  writable : acc.multisig.isWritable = true
  funded : rt.payerFunded = true
  flags : payerFlags acc.payer acc.systemProgram

/-- What is written to the address of an agreement that is not there is the agreement created. -/
theorem Writes.creates {call : Call} {m : Pubkey} {b : UInt8} {x : Account}
    (hw : Writes D groth16 s call m x) (hfree : s.lookup m = none)
    (hm : D.findProgramAddress (.multisig hash t n) = some (m, b)) :
    ∃ rt acc, call = ⟨rt, .createMultisig acc hash t n⟩ := by
  have hother {d : Derivation} {b' : UInt8} (hd : D.findProgramAddress d = some (m, b')) :
      d = .multisig hash t n := Pda.find_inj hd hm
  cases hw with
  | registry g => cases hother g.registry.address
  | contract g => cases hother g.contract.address
  | registered g => exact absurd (g.registry.symm.trans hfree) (by simp)
  | multisig g =>
    cases hother g.multisig.address
    exact ⟨_, _, rfl⟩
  | signature g => cases hother g.signature.address
  | signerRecord g => cases hother g.signerRecord.address
  | contractSigned g => exact absurd (g.contract.symm.trans hfree) (by simp)
  | registrySigned g => exact absurd (g.registry.symm.trans hfree) (by simp)
  | member g => cases hother g.member.address
  | counted g => exact absurd (g.multisig.symm.trans hfree) (by simp)
  | closed g => exact absurd (g.multisig.symm.trans hfree) (by simp)

/-- The slots of a successful `create_multisig` are those of its settings. -/
theorem CreateGuard.slots {rt : Runtime} {acc : CreateMultiSig} {c : Contract} {b : UInt8}
    (g : CreateGuard D rt s acc hash t n c b) (hs : Sound D s) {ca m : Pubkey × UInt8}
    (hca : D.findProgramAddress (.contract hash) = some ca)
    (hm : D.findProgramAddress (.multisig hash t n) = some m) : CreateSlots rt acc ca.1 m.1 where
  contract := by
    have hh := (hs.placed _ _ g.contract).contractHash_eq g.contractAddress
    cases hs.placed _ _ g.contract with
    | contract hf _ _ =>
      rw [hh, hca, Option.some.injEq] at hf
      rw [hf]
  multisig := by
    have hf := g.multisig.address
    rw [hm, Option.some.injEq] at hf
    rw [hf]
  writable := g.multisig.writable
  funded := g.multisig.funded
  flags := g.flags

/-- A created agreement stays, with the contract and the settings it was created for. -/
theorem Path.created_multisig {js : List (Store × Call)} (hp : Path D groth16 ∅ js s)
    {ca m : Pubkey × UInt8} (hca : D.findProgramAddress (.contract hash) = some ca)
    (hm : D.findProgramAddress (.multisig hash t n) = some m) {e : Store × Call} (he : e ∈ js)
    {rt : Runtime} {acc : CreateMultiSig} (hcall : e.2 = ⟨rt, .createMultisig acc hash t n⟩) :
    ∃ ms, s.lookup m.1 = some (.multisig ms) ∧ ms.contract = ca.1 ∧ ms.threshold = t
      ∧ ms.maxSigners = n := by
  obtain ⟨t₀, call⟩ := e
  subst hcall
  obtain ⟨pre, post, hj⟩ := List.append_of_mem he
  obtain ⟨hpre, t₁, hx, -⟩ := hp.at_step hj
  have hs : Sound D t₀ := Reachable.sound (reachable_iff.2 ⟨pre, hpre⟩)
  have hpost := hp.suffix hj hx
  cases exec_eq_ok.1 hx with
  | @createMultisig _ _ _ _ _ c b g =>
    have hslots := g.slots hs hca hm
    have hnew : (createStore t₀ acc t n b).lookup m.1
        = some (.multisig (newMultisig acc t n b)) := by
      rw [← hslots.multisig, lookup_createStore]
    obtain ⟨ms, hms, hc, ht, hn, -⟩ := (Path.extends hpost).multisig hnew
    exact ⟨ms, hms, hc.trans hslots.contract, ht, hn⟩

/-- The address of an agreement is free as long as nobody has created it. -/
theorem Path.multisig_free {js : List (Store × Call)} (hp : Path D groth16 ∅ js s)
    {m : Pubkey × UInt8} (hm : D.findProgramAddress (.multisig hash t n) = some m)
    (hnew : ∀ e ∈ js, ∀ rt acc, e.2 ≠ ⟨rt, .createMultisig acc hash t n⟩) :
    s.lookup m.1 = none := by
  refine Option.eq_none_iff_forall_ne_some.2 fun x hx => ?_
  obtain ⟨pre, t₀, call, post, y, rfl, -, hfree, hw, -⟩ := Path.created hp (lookup_empty _) hx
  obtain ⟨rt, acc, rfl⟩ := hw.creates hfree hm
  exact hnew _ (List.mem_append_right _ List.mem_cons_self) rt acc rfl

/-- On a registered contract an agreement can be created with any valid settings, by whoever comes
first, and then stands at the address the clients derive, with these settings. -/
theorem settings_free (txs : List (List Call)) {ca m : Pubkey × UInt8}
    (hca : D.findProgramAddress (.contract hash) = some ca)
    (hm : D.findProgramAddress (.multisig hash t n) = some m)
    (hreg : ∃ c, (run D groth16 ∅ txs).lookup ca.1 = some (.contract c))
    (ht : 1 ≤ t) (htn : t ≤ n) :
    (∀ rt acc, (∃ s', createMultisig D rt acc hash t n (run D groth16 ∅ txs) = .ok s') ↔
      CreateSlots rt acc ca.1 m.1
        ∧ ∀ e ∈ journal D groth16 ∅ txs, ∀ rt' acc',
          e.2 ≠ ⟨rt', .createMultisig acc' hash t n⟩)
    ∧ (∀ e ∈ journal D groth16 ∅ txs, ∀ rt acc, e.2 = ⟨rt, .createMultisig acc hash t n⟩ →
      ∃ ms, (run D groth16 ∅ txs).lookup m.1 = some (.multisig ms) ∧ ms.contract = ca.1
        ∧ ms.threshold = t ∧ ms.maxSigners = n)
    ∧ multisigSeeds hash t.toNat n.toNat = .ok (Derivation.multisig hash t n).seeds
    ∧ findProgramAddressSync D (Derivation.multisig hash t n).seeds = .ok m := by
  have hp : Path D groth16 ∅ (journal D groth16 ∅ txs) _ := Batch.path_run ∅ txs
  have hs : Sound D (run D groth16 ∅ txs) := Reachable.sound ⟨txs, rfl⟩
  have hpos : 0 < t := by
    rw [UInt8.le_iff_toNat_le, UInt8.toNat_one] at ht
    rw [UInt8.lt_iff_toNat_lt]
    exact ht
  have hcreated e (he : e ∈ journal D groth16 ∅ txs) rt acc
      (hcall : e.2 = ⟨rt, .createMultisig acc hash t n⟩) :=
    Path.created_multisig hp hca hm he hcall
  refine ⟨fun rt acc => ⟨?_, ?_⟩, hcreated, multisigSeeds_eq_ok.2 ⟨hpos, htn, rfl⟩,
    findProgramAddressSync_seeds.2 hm⟩
  · rintro ⟨s', hx⟩
    obtain ⟨c, b, g, -⟩ := createMultisig_eq_ok.1 hx
    have hslots := g.slots hs hca hm
    refine ⟨hslots, fun e he rt' acc' hcall => ?_⟩
    obtain ⟨ms, hms, -⟩ := hcreated e he rt' acc' hcall
    exact g.multisig.not_storedAt ⟨_, _, hm, hms⟩
  · rintro ⟨hslots, hnew⟩
    obtain ⟨c, hc⟩ := hreg
    have hfree := Path.multisig_free hp hm hnew
    cases hs.placed _ _ hc with
    | contract hf hactive _ =>
      have hh : c.contractHash = hash := by
        simpa using Pda.find_inj hf hca
      refine ⟨_, createMultisig_eq_ok.2 ⟨c, m.2, ⟨?_, ?_, ⟨?_, ?_, hslots.funded, hslots.writable⟩,
        hslots.flags, hpos, htn, hactive⟩, rfl⟩⟩
      · rw [hslots.contract, hc]
      · rw [hslots.contract, ← hh]
        exact Pda.derive_of_find hf
      · rw [hslots.multisig, hm]
      · rw [hslots.multisig, hfree]

def Instruction.creates : Instruction → Bool
  | .createMultisig .. => true
  | _ => false

/-- The agreement of the sample can be created once its contract is registered. -/
theorem settings_free_sample : ∃ s', createMultisig samplePda sampleRuntime
    (.of sampleContract sampleMultisig samplePayer) sampleHash 2 3
    (run samplePda sampleVerifier ∅ (sampleSetup.take 2)) = .ok s' := by
  refine ((settings_free (sampleSetup.take 2) find_sampleContract find_sampleMultisig
    ⟨⟨sampleHash, 1700000000, 0, true, 255⟩, by decide +kernel⟩ (by decide) (by decide)).1 _ _).2
    ⟨⟨rfl, rfl, rfl, rfl, rfl, rfl, rfl⟩, fun e he rt acc => ?_⟩
  have hjournal : ∀ e ∈ journal samplePda sampleVerifier ∅ (sampleSetup.take 2),
      e.2.ix.creates = false := by decide +kernel
  intro hcall
  have hnot := hjournal e he
  rw [hcall] at hnot
  cases hnot

end Oblivia

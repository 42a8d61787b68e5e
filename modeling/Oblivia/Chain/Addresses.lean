import Oblivia.Chain.State
/-!
# Program-derived addresses

An account's address is the hash of its seeds joined without separators and followed by a bump
byte. The seeds of two kinds of account, or of two accounts of one kind, are joined to different
byte strings (`preimage_inj`), so an address determines its derivation (`Pda.derivation_inj`).
-/

namespace Oblivia

def registrySeed : List UInt8 := Bytes.utf8 "oblivia_registry"
def contractSeed : List UInt8 := Bytes.utf8 "oblivia_contract"
def signatureSeed : List UInt8 := Bytes.utf8 "oblivia_signature"
def multisigSeed : List UInt8 := Bytes.utf8 "oblivia_multisig"
def multisigMemberSeed : List UInt8 := Bytes.utf8 "oblivia_multisig_member"
def signerRecordSeed : List UInt8 := Bytes.utf8 "oblivia_signer_record"

/-- What an address is derived from: the six kinds of account, and the two that earlier versions
of the program derived without the contract and without the settings. -/
inductive Derivation
  | registry
  | contract (contractHash : Bytes 32)
  | signature (contract : Pubkey) (keyCommitment signatureCommitment : Bytes 32)
  | signerRecord (contractHash keyCommitment : Bytes 32)
  | multisig (contractHash : Bytes 32) (threshold maxSigners : UInt8)
  | member (multisig : Pubkey) (keyCommitment : Bytes 32)
  | oldSignature (keyCommitment signatureCommitment : Bytes 32)
  | oldMultisig (contractHash : Bytes 32)
  deriving DecidableEq

namespace Derivation

def seeds : Derivation → List (List UInt8)
  | registry => [registrySeed]
  | contract h => [contractSeed, h.toList]
  | signature c k s => [signatureSeed, c.toList, k.toList, s.toList]
  | signerRecord h k => [signerRecordSeed, h.toList, k.toList]
  | multisig h t n => [multisigSeed, h.toList, [t], [n]]
  | member ms k => [multisigMemberSeed, ms.toList, k.toList]
  | oldSignature k s => [signatureSeed, k.toList, s.toList]
  | oldMultisig h => [multisigSeed, h.toList]

/-- The seeds and the bump as they are hashed, one after the other. -/
def preimage (d : Derivation) (bump : UInt8) : List UInt8 := d.seeds.flatten ++ [bump]

theorem length_seeds :
    registrySeed.length = 16 ∧ contractSeed.length = 16 ∧ signatureSeed.length = 17
      ∧ multisigSeed.length = 16 ∧ multisigMemberSeed.length = 23
      ∧ signerRecordSeed.length = 21 := by
  decide +kernel

/-- The length of the joined seeds tells the kinds apart, a contract and an agreement at the old
address excepted. -/
theorem length_flatten_seeds (d : Derivation) :
    d.seeds.flatten.length = match d with
      | registry => 16
      | contract _ => 48
      | signature .. => 113
      | signerRecord .. => 85
      | multisig .. => 50
      | member .. => 87
      | oldSignature .. => 81
      | oldMultisig _ => 48 := by
  obtain ⟨h₁, h₂, h₃, h₄, h₅, h₆⟩ := length_seeds
  cases d <;> simp [seeds, h₁, h₂, h₃, h₄, h₅, h₆]

theorem contractSeed_ne_multisigSeed : contractSeed ≠ multisigSeed := by
  decide +kernel

theorem seeds_inj {d d' : Derivation} (h : d.seeds.flatten = d'.seeds.flatten) : d = d' := by
  have hl := congrArg List.length h
  rw [length_flatten_seeds, length_flatten_seeds] at hl
  cases d with
  | registry => cases d' <;> simp at hl ⊢
  | contract c =>
    cases d' <;> simp at hl
    · simpa [seeds, Bytes.toList_inj] using h
    · simp only [seeds, List.flatten_cons] at h
      exact absurd (List.append_inj h (by simp [length_seeds])).1 contractSeed_ne_multisigSeed
  | oldMultisig c =>
    cases d' <;> simp at hl
    · simp only [seeds, List.flatten_cons] at h
      exact absurd (List.append_inj h (by simp [length_seeds])).1.symm contractSeed_ne_multisigSeed
    · simpa [seeds, Bytes.toList_inj] using h
  | _ =>
    cases d' <;> simp at hl
    simpa [seeds, Bytes.toList_inj, Bytes.append_eq_append] using h

/-- Different derivations, or different bumps, are hashed from different bytes. -/
theorem preimage_inj {d d' : Derivation} {b b' : UInt8} (h : d.preimage b = d'.preimage b') :
    d = d' ∧ b = b' := by
  obtain ⟨h₁, h₂⟩ := List.append_inj' h rfl
  exact ⟨seeds_inj h₁, by simpa using h₂⟩

/-- The hashed bytes tell all kinds, all parameters and all bumps apart, though the seed of an
agreement begins the seed of its members. -/
theorem preimage_injective : multisigSeed <+: multisigMemberSeed
    ∧ Function.Injective fun p : Derivation × UInt8 => p.1.preimage p.2 := by
  refine ⟨by decide +kernel, fun p q h => ?_⟩
  obtain ⟨hd, hb⟩ := preimage_inj h
  exact Prod.ext hd hb

end Derivation

/-- `Pubkey::create_program_address` for this program, on the joined seeds: the SHA-256 of the
preimage, `none` on the curve. Injectivity is collision resistance; as no hash into 32 bytes has
it everywhere, `create` may be undefined on preimages that are never evaluated. -/
structure Pda where
  create : List UInt8 → Option Pubkey
  create_inj : ∀ {p q : List UInt8} {a : Pubkey}, create p = some a → create q = some a → p = q

namespace Pda

/-- Finitely many addresses, each with its preimage; no other preimage has one. -/
def ofTable (table : List (List UInt8 × Pubkey)) (h : (table.map Prod.snd).Nodup) : Pda where
  create p := (table.find? fun e => e.1 = p).map Prod.snd
  create_inj {p q a} hp hq := by
    simp only [Option.map_eq_some_iff] at hp hq
    obtain ⟨e, he, rfl⟩ := hp
    obtain ⟨e', he', hee⟩ := hq
    have heq := List.inj_on_of_nodup_map h (List.mem_of_find?_eq_some he')
      (List.mem_of_find?_eq_some he) hee
    have h₁ := List.find?_some he
    have h₂ := List.find?_some he'
    simp only [decide_eq_true_eq] at h₁ h₂
    rw [← h₁, ← h₂, heq]

variable (D : Pda)

/-- The address of a derivation under a bump. -/
def derive (d : Derivation) (bump : UInt8) : Option Pubkey := D.create (d.preimage bump)

/-- The bumps from `n` down to 1, up to the first whose address is off the curve. -/
def findFrom (d : Derivation) : ℕ → Option (Pubkey × UInt8)
  | 0 => none
  | n + 1 => match D.derive d (UInt8.ofNat (n + 1)) with
    | some a => some (a, UInt8.ofNat (n + 1))
    | none => findFrom d n

/-- `Pubkey::find_program_address`. -/
def findProgramAddress (d : Derivation) : Option (Pubkey × UInt8) := D.findFrom d 255

variable {D} {d d' : Derivation} {a : Pubkey} {b b' : UInt8}

/-- An address is derived in one way only. -/
theorem derivation_inj (h : D.derive d b = some a) (h' : D.derive d' b' = some a) :
    d = d' ∧ b = b' :=
  Derivation.preimage_inj (D.create_inj h h')

theorem derive_of_findFrom : ∀ {n : ℕ}, D.findFrom d n = some (a, b) → D.derive d b = some a
  | 0, h => by simp [findFrom] at h
  | n + 1, h => by
    simp only [findFrom] at h
    split at h
    · rename_i x hx
      simp only [Option.some.injEq, Prod.mk.injEq] at h
      rw [← h.1, ← h.2, hx]
    · exact derive_of_findFrom h

theorem derive_of_find (h : D.findProgramAddress d = some (a, b)) : D.derive d b = some a :=
  derive_of_findFrom h

theorem find_inj (h : D.findProgramAddress d = some (a, b))
    (h' : D.findProgramAddress d' = some (a, b')) : d = d' :=
  (derivation_inj (derive_of_find h) (derive_of_find h')).1

end Pda

end Oblivia

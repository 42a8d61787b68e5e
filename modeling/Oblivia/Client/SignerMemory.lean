import Oblivia.Client.Proving
/-!
# What a page holds of its signer

The secrets that the passkey has returned and the witness inputs that were built from them. A page
refers to the secret of its signer, fills it with zeros when it is done with the signer, and takes
the key out of an input when it is done with the proof.
-/

namespace Oblivia

structure SignerMemory where
  /-- The buffers that the passkey has returned so far. -/
  secrets : List (List UInt8)
  /-- The witness inputs that have been built so far. -/
  inputs : List CircuitInput
  signerUnlocked : Bool
  signerSecret : Option ℕ
  deriving DecidableEq

namespace SignerMemory

def empty : SignerMemory := ⟨[], [], false, none⟩

/-- The secret as it is passed on. -/
def secret (m : SignerMemory) : ByteSource :=
  (m.signerSecret.bind (m.secrets[·]?)).elim .other (.view 1)

/-- `signerSecret = await getPasskeySecret(…)`. -/
def keep (secret : List UInt8) (m : SignerMemory) : SignerMemory :=
  { m with secrets := m.secrets ++ [secret], signerSecret := some m.secrets.length }

/-- Fills the buffer with zeros and forgets it. -/
def clearSigner (m : SignerMemory) : SignerMemory :=
  { m with
    secrets := m.signerSecret.elim m.secrets fun i =>
      m.secrets.modify i fun secret => List.replicate secret.length 0
    signerSecret := none
    signerUnlocked := false }

/-- Takes the key out of the input, if there is one. -/
def release (input : Option ℕ) (m : SignerMemory) : SignerMemory :=
  { m with inputs := input.elim m.inputs fun i =>
      m.inputs.modify i fun input => { input with signerKey := ['0'] } }

/-- Nothing is left of a signer in the buffers of the passkey. -/
structure Blank (m : SignerMemory) : Prop where
  secret : m.signerSecret = none
  locked : m.signerUnlocked = false
  zeroed : ∀ buffer ∈ m.secrets, ∀ b ∈ buffer, b = 0

/-- No witness input has a key in it. -/
def Released (m : SignerMemory) : Prop := ∀ input ∈ m.inputs, input.signerKey = ['0']

/-- Nothing is left of any signer. -/
def Clean (m : SignerMemory) : Prop := m.Blank ∧ m.Released

/-- A buffer that is not all zeros is that of the signer. -/
def CurrentOnly (m : SignerMemory) : Prop :=
  ∀ i buffer, m.secrets[i]? = some buffer → m.signerSecret ≠ some i → ∀ b ∈ buffer, b = 0

/-- The same, and this input is the only one that may have a key in it. -/
def Proving (input : Option ℕ) (m : SignerMemory) : Prop :=
  m.CurrentOnly ∧ (m.release input).Released

section Lemmas

variable {m : SignerMemory}

theorem clean_empty : empty.Clean := ⟨⟨rfl, rfl, nofun⟩, nofun⟩

theorem Blank.currentOnly (h : m.Blank) : m.CurrentOnly :=
  fun _ buffer hi _ => h.zeroed buffer (List.mem_of_getElem? hi)

theorem CurrentOnly.blank_clearSigner (h : m.CurrentOnly) : m.clearSigner.Blank := by
  refine ⟨rfl, rfl, fun buffer hmem b hb => ?_⟩
  obtain ⟨j, hj⟩ := List.mem_iff_getElem?.1 hmem
  rcases hsecret : m.signerSecret with _ | i
  · simp only [clearSigner, hsecret, Option.elim_none] at hj
    exact h j buffer hj (by simp [hsecret]) b hb
  · simp only [clearSigner, hsecret, Option.elim_some, List.getElem?_modify] at hj
    obtain ⟨secret, hj', rfl⟩ := Option.map_eq_some_iff.1 hj
    by_cases hij : i = j
    · simp only [hij, if_true] at hb
      exact List.eq_of_mem_replicate hb
    · simp only [hij, if_false] at hb
      exact h j secret hj' (by simp [hsecret, hij]) b hb

theorem Blank.currentOnly_keep (h : m.Blank) (secret : List UInt8) :
    (m.keep secret).CurrentOnly := by
  intro i buffer hi hne
  have hlt : i < m.secrets.length := by
    have hlength := (List.getElem?_eq_some_iff.1 hi).1
    have hcurrent : i ≠ m.secrets.length := fun heq => hne (congrArg some heq.symm)
    simp only [keep, List.length_append, List.length_singleton] at hlength
    omega
  simp only [keep, List.getElem?_append_left hlt] at hi
  exact h.zeroed buffer (List.mem_of_getElem? hi)

theorem Clean.proving (h : m.Clean) : m.Proving none := ⟨h.1.currentOnly, h.2⟩

theorem Clean.keep (h : m.Clean) (secret : List UInt8) : (m.keep secret).Proving none :=
  ⟨h.1.currentOnly_keep secret, h.2⟩

theorem Proving.clean_clearSigner (h : m.Proving none) : m.clearSigner.Clean :=
  ⟨h.1.blank_clearSigner, h.2⟩

/-- The input that is built last is the one with a key in it. -/
theorem Proving.append (h : m.Proving none) (input : CircuitInput) :
    Proving (some m.inputs.length) { m with inputs := m.inputs ++ [input] } := by
  refine ⟨h.1, fun input' hmem => ?_⟩
  obtain ⟨j, hj⟩ := List.mem_iff_getElem?.1 hmem
  simp only [release, Option.elim_some, List.getElem?_modify] at hj
  obtain ⟨built, hj', rfl⟩ := Option.map_eq_some_iff.1 hj
  by_cases hlast : m.inputs.length = j
  · simp only [hlast, if_true]
  · have hlt : j < m.inputs.length := by
      have hlength := (List.getElem?_eq_some_iff.1 hj').1
      simp only [List.length_append, List.length_singleton] at hlength
      omega
    rw [List.getElem?_append_left hlt] at hj'
    simp only [hlast, if_false]
    exact h.2 built (List.mem_of_getElem? hj')

end Lemmas

end SignerMemory

end Oblivia

import Oblivia.Chain.Addresses
import Oblivia.Lib.Batch
/-!
# What Anchor and the runtime check

The account constraints the instructions are declared with. Anchor reads the accounts that must
exist, in their order, then handles the accounts to create, then checks the constraints of the
others; the seeds of an account are checked before its other constraints.
-/

namespace Oblivia

/-- An account slot of an instruction, filled by the caller. -/
structure AccountMeta where
  key : Pubkey
  isSigner : Bool
  isWritable : Bool
  deriving DecidableEq

/-- What the runtime supplies: the clock, and whether the payer holds the rent of the accounts
to create. -/
structure Runtime where
  now : Int64
  payerFunded : Bool
  deriving DecidableEq

def systemProgramId : Pubkey := Bytes.zero 32

def require (p : Prop) [Decidable p] (e : ErrorCode) : Except ErrorCode Unit :=
  if p then .ok () else .error e

/-- `Account::try_from`: the program owns the account and it has the discriminator of `view`. -/
def load {α : Type} (view : Account → Option α) (s : Store) (m : AccountMeta) :
    Except ErrorCode α :=
  match s.lookup m.key with
  | none => .error .accountNotInitialized
  | some a => (view a).elim (.error .accountDiscriminatorMismatch) .ok

def checkSigner (m : AccountMeta) : Except ErrorCode Unit := require m.isSigner .accountNotSigner

def checkMut (m : AccountMeta) : Except ErrorCode Unit := require m.isWritable .constraintMut

def checkSystemProgram (m : AccountMeta) : Except ErrorCode Unit :=
  require (m.key = systemProgramId) .invalidProgramId

/-- `seeds = [..], bump = bump`. -/
def checkSeeds (D : Pda) (d : Derivation) (bump : UInt8) (m : AccountMeta) :
    Except ErrorCode Unit :=
  require (D.derive d bump = some m.key) .constraintSeeds

/-- `init, payer = payer, seeds = [..], bump`: the slot holds the address the seeds give, no
account of the program is there, and the payer can pay. Lamports sent to it ahead do not matter.
Returns the bump. -/
def init (D : Pda) (rt : Runtime) (s : Store) (d : Derivation) (m : AccountMeta) :
    Except ErrorCode UInt8 := do
  let (address, bump) ← (D.findProgramAddress d).elim (.error .noViableBump) .ok
  require (m.key = address) .constraintSeeds
  require (s.lookup m.key = none) .accountAlreadyInUse
  require rt.payerFunded .insufficientFunds
  checkMut m
  return bump

/-- `n += 1` on a `u8`. -/
def succU8 (n : UInt8) : Except ErrorCode UInt8 := do
  require (n ≠ 255) .arithmeticOverflow
  return n + 1

/-- `n += 1` on a `u64`. -/
def succU64 (n : UInt64) : Except ErrorCode UInt64 := do
  require (n ≠ 18446744073709551615) .arithmeticOverflow
  return n + 1

@[simp]
theorem require_eq_ok {p : Prop} [Decidable p] {e : ErrorCode} {u : Unit} :
    require p e = .ok u ↔ p := by
  unfold require
  split_ifs with h <;> simp [h]

@[simp]
theorem load_eq_ok {α : Type} {view : Account → Option α} {s : Store} {m : AccountMeta} {x : α} :
    load view s m = .ok x ↔ ∃ a, s.lookup m.key = some a ∧ view a = some x := by
  unfold load
  rcases s.lookup m.key with _ | a
  · simp
  · rcases hv : view a with _ | y <;> simp [hv]

@[simp]
theorem checkSigner_eq_ok {m : AccountMeta} {u : Unit} :
    checkSigner m = .ok u ↔ m.isSigner = true := require_eq_ok

@[simp]
theorem checkMut_eq_ok {m : AccountMeta} {u : Unit} :
    checkMut m = .ok u ↔ m.isWritable = true := require_eq_ok

@[simp]
theorem checkSystemProgram_eq_ok {m : AccountMeta} {u : Unit} :
    checkSystemProgram m = .ok u ↔ m.key = systemProgramId := require_eq_ok

@[simp]
theorem checkSeeds_eq_ok {D : Pda} {d : Derivation} {b : UInt8} {m : AccountMeta} {u : Unit} :
    checkSeeds D d b m = .ok u ↔ D.derive d b = some m.key := require_eq_ok

@[simp]
theorem init_eq_ok {D : Pda} {rt : Runtime} {s : Store} {d : Derivation} {m : AccountMeta}
    {b : UInt8} :
    init D rt s d m = .ok b ↔ D.findProgramAddress d = some (m.key, b) ∧ s.lookup m.key = none
      ∧ rt.payerFunded = true ∧ m.isWritable = true := by
  unfold init
  rcases D.findProgramAddress d with _ | ⟨a, b'⟩
  · simp [Batch.bind_eq_ok]
  · simp only [Option.elim_some, Batch.bind_eq_ok, Except.ok.injEq, exists_eq_left',
      require_eq_ok, checkMut_eq_ok, exists_const, Option.some.injEq, Prod.mk.injEq]
    constructor
    · rintro ⟨rfl, h₁, h₂, h₃, h₄⟩
      exact ⟨⟨rfl, by simpa [pure, Except.pure] using h₄⟩, h₁, h₂, h₃⟩
    · rintro ⟨⟨rfl, rfl⟩, h₁, h₂, h₃⟩
      exact ⟨rfl, h₁, h₂, h₃, rfl⟩

@[simp]
theorem succU8_eq_ok {n m : UInt8} : succU8 n = .ok m ↔ n ≠ 255 ∧ n + 1 = m := by
  simp [succU8, Batch.bind_eq_ok, pure, Except.pure]

@[simp]
theorem succU64_eq_ok {n m : UInt64} :
    succU64 n = .ok m ↔ n ≠ 18446744073709551615 ∧ n + 1 = m := by
  simp [succU64, Batch.bind_eq_ok, pure, Except.pure]

theorem require_eq_error {p : Prop} [Decidable p] {e e' : ErrorCode} :
    require p e = .error e' ↔ ¬ p ∧ e = e' := by
  unfold require
  split_ifs with h <;> simp [h]

theorem load_error {α : Type} {view : Account → Option α} {s : Store} {m : AccountMeta}
    {e : ErrorCode} (h : load view s m = .error e) :
    e = .accountNotInitialized ∨ e = .accountDiscriminatorMismatch := by
  unfold load at h
  split at h
  · exact .inl (Except.error.inj h).symm
  · rename_i a _
    rcases hv : view a with _ | x <;> rw [hv] at h
    · exact .inr (Except.error.inj h).symm
    · cases h

theorem init_error {D : Pda} {rt : Runtime} {s : Store} {d : Derivation} {m : AccountMeta}
    {e : ErrorCode} (h : init D rt s d m = .error e) :
    e = .noViableBump ∨ e = .constraintSeeds ∨ e = .accountAlreadyInUse
      ∨ e = .insufficientFunds ∨ e = .constraintMut := by
  unfold init at h
  rcases hf : D.findProgramAddress d with _ | p <;> rw [hf] at h
  · simp only [Option.elim_none, Batch.bind_eq_error, Except.error.injEq, reduceCtorEq, false_and,
      exists_const, or_false] at h
    exact .inl h.symm
  · simp only [Option.elim_some, Batch.bind_eq_error, reduceCtorEq, Except.ok.injEq, false_or,
      exists_eq_left', require_eq_error, checkMut, pure, Except.pure, and_false, or_false,
      exists_const] at h
    rcases h with ⟨-, rfl⟩ | ⟨-, -, ⟨-, rfl⟩ | ⟨-, -, ⟨-, rfl⟩ | ⟨-, -, -, rfl⟩⟩⟩ <;> simp

theorem toNat_add_one_u8 {n : UInt8} (h : n ≠ 255) : (n + 1).toNat = n.toNat + 1 := by
  have hn : n.toNat ≠ 255 := fun hn => h (UInt8.toNat_inj.1 hn)
  have := n.toNat_lt
  rw [UInt8.toNat_add, UInt8.toNat_one, Nat.mod_eq_of_lt (by omega)]

theorem toNat_add_one_u64 {n : UInt64} (h : n ≠ 18446744073709551615) :
    (n + 1).toNat = n.toNat + 1 := by
  have hn : n.toNat ≠ 18446744073709551615 := fun hn => h (UInt64.toNat_inj.1 hn)
  have := n.toNat_lt
  rw [UInt64.toNat_add, UInt64.toNat_one, Nat.mod_eq_of_lt (by omega)]

end Oblivia

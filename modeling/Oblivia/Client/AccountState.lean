import Oblivia.Client.SignerKey
import Oblivia.Client.Transactions
import Oblivia.Lib.Dialogue
/-!
# Accounts as the clients see them

What the SDK and the relay ask of the network, what they accept as an initialized account of the
program, the checks of the two account types they read, and how an initialization that failed is
recovered from.
-/

namespace Oblivia

/-- The program's address. -/
def programId : Pubkey :=
  .ofNat 32 0xf64b3898c6edb09b80eaf6f9d2f02de424b276101476e05144d8c56267c330fb

/-- `PublicKey.toBase58`: the digits of the number in base 58, and a `1` for each leading zero
byte. -/
def toBase58 (a : Pubkey) : Text :=
  (a.toList.takeWhile (· = 0)).map (fun _ => '1')
    ++ (Nat.digits 58 a.toNat).reverse.map fun d =>
      "123456789ABCDEFGHJKLMNPQRSTUVWXYZabcdefghijkmnopqrstuvwxyz".toList.getD d '1'

example : toBase58 programId = "HaRpXyybfpYpwxkhfj8CjY8EjGqvRd96Zi33iSCTxvHG".toList := by
  decide +kernel

/-- An account as the RPC connection returns it; `executable` unless the field is `false`, `data`
if it is a buffer, `owner` if it is a public key. -/
structure AccountInfo where
  executable : Bool
  data : Option (List UInt8)
  owner : Option Pubkey
  deriving DecidableEq

/-- The part of `anchor.BorshAccountsCoder` for one account type. -/
structure AccountCoder (α : Type) where
  accountName : String
  size : ℕ
  decode : List UInt8 → Option α

/-- The account types of the interface file that the clients read. -/
structure Coder where
  contract : AccountCoder Contract
  multisig : AccountCoder MultiSigContract

/-- Lamports can be sent to an address ahead; only an account of the program is initialized. -/
def initializedAccount {α : Type} (coder : AccountCoder α) :
    Option AccountInfo → Except String (Option α)
  | none => .ok none
  | some info => match info.executable, info.data, info.owner with
    | false, some data, some owner =>
      if owner = systemProgramId ∧ data.length = 0 then .ok none
      else if owner ≠ programId then
        .error ("Unexpected owner for " ++ coder.accountName ++ " account")
      else if data.length ≠ coder.size then
        .error ("Invalid " ++ coder.accountName ++ " account size")
      else match coder.decode data with
        | some account => .ok (some account)
        | none => .error ("Invalid " ++ coder.accountName ++ " account data or discriminator")
    | _, _, _ => .error ("Invalid " ++ coder.accountName ++ " account metadata")

def readContractAccount (coder : Coder) (info : Option AccountInfo) (contractHash : Bytes 32) :
    Except String (Option Contract) := do
  match ← initializedAccount coder.contract info with
  | none => return none
  | some account =>
    if account.contractHash ≠ contractHash then
      .error "Contract account does not match the requested contract hash"
    return some account

def readMultisigAccount (coder : Coder) (info : Option AccountInfo) (contractPda : Pubkey) :
    Except String (Option MultiSigContract) := do
  match ← initializedAccount coder.multisig info with
  | none => return none
  | some account =>
    if account.contract ≠ contractPda then
      .error "Multisig account does not match the requested contract"
    validateMultisigConfig account.threshold.toNat account.maxSigners.toNat
    if account.signaturesCollected > account.maxSigners then
      .error "Invalid multisig signature count"
    return some account

def assertMultisigConfig (existing : MultiSigContract) (threshold maxSigners : ℤ) :
    Except String Unit := do
  validateMultisigConfig threshold maxSigners
  if existing.threshold.toNat ≠ threshold ∨ existing.maxSigners.toNat ≠ maxSigners then
    .error ("This contract already has different multisig settings; "
      ++ "use distinct contract text for a new agreement")

section Readers

variable {coder : Coder} {info : Option AccountInfo}

theorem readContractAccount_none {hash : Bytes 32}
    (h : initializedAccount coder.contract info = .ok none) :
    readContractAccount coder info hash = .ok none := by
  simp only [readContractAccount, h, Batch.ok_bind]
  rfl

theorem readContractAccount_some {c : Contract}
    (h : initializedAccount coder.contract info = .ok (some c)) :
    readContractAccount coder info c.contractHash = .ok (some c) := by
  simp only [readContractAccount, h, Batch.ok_bind, ne_eq, not_true_eq_false, if_false]
  rfl

theorem readMultisigAccount_none {contractPda : Pubkey}
    (h : initializedAccount coder.multisig info = .ok none) :
    readMultisigAccount coder info contractPda = .ok none := by
  simp only [readMultisigAccount, h, Batch.ok_bind]
  rfl

theorem readMultisigAccount_some {ms : MultiSigContract}
    (h : initializedAccount coder.multisig info = .ok (some ms))
    (hconfig : 0 < ms.threshold ∧ ms.threshold ≤ ms.maxSigners)
    (hcount : ms.signaturesCollected ≤ ms.maxSigners) :
    readMultisigAccount coder info ms.contract = .ok (some ms) := by
  have hvalid : validateMultisigConfig ms.threshold.toNat ms.maxSigners.toNat = .ok () :=
    validateMultisigConfig_eq_ok.2 hconfig
  simp only [readMultisigAccount, h, Batch.ok_bind, ne_eq, not_true_eq_false, if_false, hvalid,
    gt_iff_lt, UInt8.not_lt.2 hcount]
  rfl

end Readers

section Recovery

variable {m : Type → Type} [Monad m] {ε α β γ : Type}

/-- Sends once; if that fails, a fresh read decides whether the account exists nevertheless. A
result of `none` means that it does. -/
def initializeOrReadExisting (submit : ExceptT ε m α) (fetchAccount : ExceptT ε m β)
    (readAccount : β → ExceptT ε m (Option γ)) : ExceptT ε m (Option α) :=
  tryCatch (some <$> submit) fun initializationError => do
    let info ← tryCatch fetchAccount fun _ => throw initializationError
    match ← readAccount info with
    | none => throw initializationError
    | some _ => return none

end Recovery

/-- What the clients ask of the network. A transaction is the list of its instructions. -/
inductive Rpc
  | getAccountInfo (address : Pubkey)
  | send (transaction : List Instruction)
  | build (ix : Instruction)
  | fetchMultisig (address : Pubkey)
  deriving DecidableEq

/-- An answer, or the message of what the request rejects with. -/
abbrev Rpc.Reply : Rpc → Type
  | getAccountInfo _ => Except String (Option AccountInfo)
  | send _ => Except String Text
  | build _ => Except String Unit
  | fetchMultisig _ => Except String MultiSigContract

instance : ∀ q : Rpc, Nonempty q.Reply
  | .getAccountInfo _ => ⟨.error ""⟩
  | .send _ => ⟨.error ""⟩
  | .build _ => ⟨.error ""⟩
  | .fetchMultisig _ => ⟨.error ""⟩

section Await

variable {ε α : Type}

/-- Awaits a request; `reject` is what is thrown when it rejects. -/
def await (reject : String → ε) (d : Dialogue Rpc Rpc.Reply (Except String α)) :
    ExceptT ε (Dialogue Rpc Rpc.Reply) α :=
  ExceptT.mk (Except.mapError reject <$> d)

def getAccountInfo (reject : String → ε) (address : Pubkey) :
    ExceptT ε (Dialogue Rpc Rpc.Reply) (Option AccountInfo) :=
  await reject (.request (Rpc.getAccountInfo address))

/-- `rpc()` and `sendAndConfirm`: the signature of the transaction once it is confirmed. -/
def send (reject : String → ε) (transaction : List Instruction) :
    ExceptT ε (Dialogue Rpc Rpc.Reply) Text :=
  await reject (.request (Rpc.send transaction))

end Await

section Rules

open Dialogue

variable {Q : Type} {A : Q → Type} {ε α β γ σ : Type}

/-- Sending, reading again if that fails, and deciding. -/
theorem ensures_initializeOrReadExisting {serve : σ → (q : Q) → A q → σ → Prop}
    {drift : σ → σ → Prop} {submit : ExceptT ε (Dialogue Q A) α}
    {fetchAccount : ExceptT ε (Dialogue Q A) β}
    {readAccount : β → ExceptT ε (Dialogue Q A) (Option γ)}
    {R : Except ε (Option α) → σ → Prop} {s : σ}
    (h : Ensures serve drift submit.run (fun r s => match r with
      | .ok a => R (.ok (some a)) s
      | .error e => Ensures serve drift fetchAccount.run (fun r s => match r with
        | .ok info => Ensures serve drift (readAccount info).run (fun r s => match r with
          | .ok none => R (.error e) s
          | .ok (some _) => R (.ok none) s
          | .error e' => R (.error e') s) s
        | .error _ => R (.error e) s) s) s) :
    Ensures serve drift (initializeOrReadExisting submit fetchAccount readAccount).run R s := by
  unfold initializeOrReadExisting
  rw [ensures_tryCatch]
  show Ensures serve drift (submit >>= fun a => pure (some a)).run _ s
  refine Ensures.andThen h (fun a s ha => ha) fun e s he => ?_
  refine Ensures.andThen (P := fun r s => match r with
    | .ok info => Ensures serve drift (readAccount info).run (fun r s => match r with
      | .ok none => R (.error e) s
      | .ok (some _) => R (.ok none) s
      | .error e' => R (.error e') s) s
    | .error e' => R (.error e') s) ?_ (fun info s hinfo => ?_) fun e s he => he
  · rw [ensures_tryCatch]
    exact he.mono fun r s hr => by cases r <;> exact hr
  · refine Ensures.andThen hinfo (fun account s ha => ?_) fun e s he => he
    cases account <;> exact ha

variable {serve : σ → (q : Rpc) → q.Reply → σ → Prop} {drift : σ → σ → Prop}
  {reject : String → ε} {s : σ}

theorem ensures_getAccountInfo {address : Pubkey}
    {R : Except ε (Option AccountInfo) → σ → Prop} :
    Ensures serve drift (getAccountInfo reject address).run R s ↔
      ∀ s₁, drift s s₁ → ∀ r s₂, serve s₁ (.getAccountInfo address) r s₂ →
        R (r.mapError reject) s₂ := Iff.rfl

theorem ensures_send {transaction : List Instruction} {R : Except ε Text → σ → Prop} :
    Ensures serve drift (send reject transaction).run R s ↔
      ∀ s₁, drift s s₁ → ∀ r s₂, serve s₁ (.send transaction) r s₂ → R (r.mapError reject) s₂ :=
  Iff.rfl

end Rules

section Genuine

/-- What the RPC connection returns for an account of the program. -/
def accountInfo (bytes : List UInt8) : AccountInfo := ⟨false, some bytes, some programId⟩

/-- `bytes` are those of an account of the program: the coder decodes them to its fields. -/
structure Coder.Encodes (coder : Coder) (bytes : Account → List UInt8) : Prop where
  contract_size : ∀ c, (bytes (.contract c)).length = coder.contract.size
  contract : ∀ c, coder.contract.decode (bytes (.contract c)) = some c
  multisig_size : ∀ ms, (bytes (.multisig ms)).length = coder.multisig.size
  multisig : ∀ ms, coder.multisig.decode (bytes (.multisig ms)) = some ms

variable {α : Type} {coder : AccountCoder α} {data : List UInt8} {x : α}

theorem programId_ne_systemProgramId : programId ≠ systemProgramId := by decide +kernel

theorem initializedAccount_accountInfo (hsize : data.length = coder.size)
    (hx : coder.decode data = some x) :
    initializedAccount coder (some (accountInfo data)) = .ok (some x) := by
  simp [initializedAccount, accountInfo, programId_ne_systemProgramId, hsize, hx]

end Genuine

end Oblivia

import Oblivia.Chain.CoSign
import Oblivia.Client.Network
/-!
# Creating an agreement

The SDK registers a contract and creates an agreement on it much as the relay does: each reads
first, sends once, and reads again if that fails. An agreement has a `Site`, the addresses it takes,
and there the program accepts a registration exactly when there is no contract yet, and a creation
on a contract exactly when there is no agreement yet. So a client that is told of a failure finds
that what it wanted is there (`ensures_recovery`), unless a read fails.
-/

namespace Oblivia

open Dialogue

namespace Sdk

abbrev Task (α : Type) := ExceptT String (Dialogue Rpc Rpc.Reply) α

/-- A call that may throw. -/
def call {α : Type} (x : Except String α) : Task α := ExceptT.mk (pure x)

def getKeypair : Option Pubkey → Task Pubkey
  | some payer => pure payer
  | none => throw ("OBLIVIA_DEVNET_KEY must be set to a 64-byte hex-encoded Solana secret key "
      ++ "to submit transactions")

variable (D : Pda) (coder : Coder) (keypair : Option Pubkey)

/-- The contract's address, and the signature of the transaction if this call registered it. -/
def registerContract (contractHash : Bytes 32) : Task (Pubkey × Option Text) := do
  let payer ← getKeypair keypair
  let (registryPda, _) ← call (findProgramAddressSync D [registrySeed])
  let (contractPda, _) ← call (findProgramAddressSync D [contractSeed, contractHash.toList])
  let existing ← getAccountInfo id contractPda
  if (← call (readContractAccount coder existing contractHash)).isSome then
    return (contractPda, none)
  else
    let tx ← initializeOrReadExisting
      (send id [.registerContract (.of registryPda contractPda payer) contractHash])
      (getAccountInfo id contractPda)
      fun info => call (readContractAccount coder info contractHash)
    return (contractPda, tx)

/-- The agreement's address, and the signature of the transaction if this call created it. -/
def createMultisig (contractHash : Bytes 32) (threshold maxSigners : ℤ) :
    Task (Pubkey × Option Text) := do
  call (validateMultisigConfig threshold maxSigners)
  let payer ← getKeypair keypair
  let (contractPda, _) ← call (findProgramAddressSync D [contractSeed, contractHash.toList])
  let seeds ← call (multisigSeeds contractHash threshold maxSigners)
  let (multisigPda, _) ← call (findProgramAddressSync D seeds)
  let info ← getAccountInfo id multisigPda
  match ← call (readMultisigAccount coder info contractPda) with
  | some existing =>
    call (assertMultisigConfig existing threshold maxSigners)
    return (multisigPda, none)
  | none =>
    let tx ← initializeOrReadExisting
      (send id [.createMultisig (.of contractPda multisigPda payer) contractHash
        (UInt8.ofNat threshold.toNat) (UInt8.ofNat maxSigners.toNat)])
      (getAccountInfo id multisigPda)
      fun info => do
        let account ← call (readMultisigAccount coder info contractPda)
        account.elim (pure ()) fun existing =>
          call (assertMultisigConfig existing threshold maxSigners)
        return account
    return (multisigPda, tx)

/-- A caller that wants an agreement registers its contract first. -/
def createAgreement (contractHash : Bytes 32) (threshold maxSigners : ℤ) :
    Task (Pubkey × Option Text) := do
  let _ ← registerContract D coder keypair contractHash
  createMultisig D coder keypair contractHash threshold maxSigners

end Sdk

/-- The addresses that an agreement takes, for a hash and settings that are valid. -/
structure Site (D : Pda) (hash : Bytes 32) (t n : UInt8) where
  registry : Pubkey × UInt8
  contract : Pubkey × UInt8
  multisig : Pubkey × UInt8
  registry_eq : D.findProgramAddress .registry = some registry
  contract_eq : D.findProgramAddress (.contract hash) = some contract
  multisig_eq : D.findProgramAddress (.multisig hash t n) = some multisig
  nonzero : hash ≠ Bytes.zero 32
  positive : 0 < t
  capacity : t ≤ n

namespace Site

variable {D : Pda} {groth16 : Groth16Verifier} {hash : Bytes 32} {t n : UInt8}
  (A : Site D hash t n) {s s' : Store} {payer : Pubkey} {now : Int64} {e : ErrorCode}

def register (payer : Pubkey) : List Instruction :=
  [.registerContract (.of A.registry.1 A.contract.1 payer) hash]

def create (payer : Pubkey) : List Instruction :=
  [.createMultisig (.of A.contract.1 A.multisig.1 payer) hash t n]

def Registered (s : Store) : Prop := ∃ x, s.lookup A.contract.1 = some (.contract x)

def Created (s : Store) : Prop := ∃ ms, s.lookup A.multisig.1 = some (.multisig ms)

/-- The program has come here by a run, with a registry that has room for the contract. -/
structure Ready (groth16 : Groth16Verifier) (s : Store) : Prop where
  reachable : Reachable D groth16 s
  registry : ∃ r, s.lookup A.registry.1 = some (.registry r)
    ∧ (s.lookup A.contract.1 = none → r.totalContracts ≠ 18446744073709551615)

/-- The chain holds the agreement, for this hash and these settings. -/
def Established (s : Store) : Prop :=
  ∃ c ms, s.lookup A.contract.1 = some (.contract c) ∧ c.contractHash = hash
    ∧ s.lookup A.multisig.1 = some (.multisig ms) ∧ ms.contract = A.contract.1
    ∧ ms.threshold = t ∧ ms.maxSigners = n

variable {A}

theorem registered_iff (hs : Reachable D groth16 s) :
    A.Registered s ↔ s.lookup A.contract.1 ≠ none := by
  constructor
  · rintro ⟨x, hx⟩
    simp [hx]
  · intro hne
    obtain ⟨x, hx⟩ := Option.ne_none_iff_exists'.1 hne
    have hfits := hs.sound.fits A.contract_eq hx
    cases x with
    | contract x => exact ⟨x, hx⟩
    | _ => exact hfits.elim

theorem created_iff (hs : Reachable D groth16 s) :
    A.Created s ↔ s.lookup A.multisig.1 ≠ none := by
  constructor
  · rintro ⟨ms, hms⟩
    simp [hms]
  · intro hne
    obtain ⟨x, hx⟩ := Option.ne_none_iff_exists'.1 hne
    have hfits := hs.sound.fits A.multisig_eq hx
    cases x with
    | multisig ms => exact ⟨ms, hx⟩
    | _ => exact hfits.elim

theorem Registered.mono (h : A.Registered s) (he : Extends s s') : A.Registered s' := by
  obtain ⟨x, hx⟩ := h
  obtain ⟨x', hx', -⟩ := he.contract hx
  exact ⟨x', hx'⟩

theorem Created.mono (h : A.Created s) (he : Extends s s') : A.Created s' := by
  obtain ⟨ms, hms⟩ := h
  obtain ⟨ms', hms', -⟩ := he.multisig hms
  exact ⟨ms', hms'⟩

theorem Created.established (h : A.Created s) (hs : Reachable D groth16 s) : A.Established s := by
  obtain ⟨ms, hms⟩ := h
  have hon : ms.contract = A.contract.1 :=
    hs.sound.multisig_contract A.contract_eq A.multisig_eq hms
  obtain ⟨ht, hn⟩ : ms.threshold = t ∧ ms.maxSigners = n := hs.sound.fits A.multisig_eq hms
  cases hs.sound.placed _ _ hms with
  | @multisig _ c hc _ =>
    rw [hon] at hc
    exact ⟨c, ms, hc, hs.sound.fits A.contract_eq hc, hms, hon, ht, hn⟩

/-- A registration is accepted exactly when there is no contract yet. -/
theorem exec_register (h : A.Ready groth16 s) :
    (∃ s', Batch.exec (exec D groth16) s ((A.register payer).map (⟨⟨now, true⟩, ·⟩)) = .ok s')
      ↔ s.lookup A.contract.1 = none := by
  constructor
  · rintro ⟨s', hs'⟩
    obtain ⟨s₁, hx, -⟩ := Batch.exec_cons_ok.1 hs'
    cases exec_eq_ok.1 hx with
    | registerContract g => exact g.contract.free
  · intro hfree
    obtain ⟨r, hr, hroom⟩ := h.registry
    have hadr : D.derive .registry r.bump = some A.registry.1 := by
      cases h.reachable.sound.placed _ _ hr with
      | registry hf => exact Pda.derive_of_find hf
    have g : RegisterGuard D ⟨now, true⟩ s (.of A.registry.1 A.contract.1 payer) hash r
        A.contract.2 :=
      ⟨hr, hadr, rfl, ⟨A.contract_eq, hfree, rfl, rfl⟩, ⟨rfl, rfl, rfl⟩, A.nonzero, hroom hfree⟩
    exact ⟨_, Batch.exec_cons_ok.2 ⟨_, exec_eq_ok.2 (.registerContract g), rfl⟩⟩

/-- A creation on a contract is accepted exactly when there is no agreement yet. -/
theorem exec_create (hs : Reachable D groth16 s) (hc : A.Registered s) :
    (∃ s', Batch.exec (exec D groth16) s ((A.create payer).map (⟨⟨now, true⟩, ·⟩)) = .ok s')
      ↔ s.lookup A.multisig.1 = none := by
  constructor
  · rintro ⟨s', hs'⟩
    obtain ⟨s₁, hx, -⟩ := Batch.exec_cons_ok.1 hs'
    cases exec_eq_ok.1 hx with
    | createMultisig g => exact g.multisig.free
  · intro hfree
    obtain ⟨c, hc⟩ := hc
    cases hs.sound.placed _ _ hc with
    | contract hf hactive _ =>
      obtain hh : c.contractHash = hash := hs.sound.fits A.contract_eq hc
      have g : CreateGuard D ⟨now, true⟩ s (.of A.contract.1 A.multisig.1 payer) hash t n c
          A.multisig.2 :=
        ⟨hc, Pda.derive_of_find (hh ▸ hf), ⟨A.multisig_eq, hfree, rfl, rfl⟩, ⟨rfl, rfl, rfl⟩,
          A.positive, A.capacity, hactive⟩
      exact ⟨_, Batch.exec_cons_ok.2 ⟨_, exec_eq_ok.2 (.createMultisig g), rfl⟩⟩

theorem registered_of_exec
    (h : Batch.exec (exec D groth16) s ((A.register payer).map (⟨⟨now, true⟩, ·⟩)) = .ok s') :
    A.Registered s' := by
  obtain ⟨s₁, hx, hnil⟩ := Batch.exec_cons_ok.1 h
  rw [List.map_nil, Batch.exec, Except.ok.injEq] at hnil
  subst hnil
  cases exec_eq_ok.1 hx with
  | registerContract g =>
    have hne := Pda.find_ne A.contract_eq A.registry_eq (by simp)
    exact ⟨_, (Finmap.lookup_insert_of_ne _ hne).trans (Finmap.lookup_insert _)⟩

theorem created_of_exec
    (h : Batch.exec (exec D groth16) s ((A.create payer).map (⟨⟨now, true⟩, ·⟩)) = .ok s') :
    s.lookup A.multisig.1 = none ∧ A.Created s' := by
  obtain ⟨s₁, hx, hnil⟩ := Batch.exec_cons_ok.1 h
  rw [List.map_nil, Batch.exec, Except.ok.injEq] at hnil
  subst hnil
  cases exec_eq_ok.1 hx with
  | createMultisig g => exact ⟨g.multisig.free, _, lookup_createStore⟩

/-- So a registration is refused only if there is a contract. -/
theorem registered_of_error (h : A.Ready groth16 s)
    (hx : Batch.exec (exec D groth16) s ((A.register payer).map (⟨⟨now, true⟩, ·⟩)) = .error e) :
    A.Registered s := by
  rw [registered_iff h.reachable]
  intro hnone
  obtain ⟨s', hs'⟩ : ∃ s', Batch.exec (exec D groth16) s
      ((A.register payer).map (⟨⟨now, true⟩, ·⟩)) = .ok s' := (exec_register h).2 hnone
  rw [hx] at hs'
  cases hs'

theorem created_of_error (hs : Reachable D groth16 s) (hc : A.Registered s)
    (hx : Batch.exec (exec D groth16) s ((A.create payer).map (⟨⟨now, true⟩, ·⟩)) = .error e) :
    A.Created s := by
  rw [created_iff hs]
  intro hnone
  obtain ⟨s', hs'⟩ : ∃ s', Batch.exec (exec D groth16) s
      ((A.create payer).map (⟨⟨now, true⟩, ·⟩)) = .ok s' := (exec_create hs hc).2 hnone
  rw [hx] at hs'
  cases hs'

/-- The registry has room as long as it needs to. -/
theorem Ready.register (h : A.Ready groth16 s)
    (hx : Batch.exec (exec D groth16) s ((A.register payer).map (⟨⟨now, true⟩, ·⟩)) = .ok s') :
    A.Ready groth16 s' := by
  have hs' := (Later.of_exec hx).reachable h.reachable
  obtain ⟨r, hr, -⟩ := h.registry
  obtain ⟨x, hx', -⟩ := (Later.of_exec hx).extends _ _ hr
  have hfits := hs'.sound.fits A.registry_eq hx'
  cases x with
  | registry r' =>
    exact ⟨hs', r', hx', fun hnone =>
      absurd hnone ((registered_iff hs').1 (registered_of_exec hx))⟩
  | _ => exact hfits.elim

theorem Ready.create (h : A.Ready groth16 s)
    (hx : Batch.exec (exec D groth16) s ((A.create payer).map (⟨⟨now, true⟩, ·⟩)) = .ok s') :
    A.Ready groth16 s' := by
  have hs' := (Later.of_exec hx).reachable h.reachable
  obtain ⟨r, hr, hroom⟩ := h.registry
  obtain ⟨s₁, hx', hnil⟩ := Batch.exec_cons_ok.1 hx
  rw [List.map_nil, Batch.exec, Except.ok.injEq] at hnil
  subst hnil
  cases exec_eq_ok.1 hx' with
  | createMultisig g =>
    have hne := Pda.find_ne A.registry_eq A.multisig_eq (by simp)
    have hne' := Pda.find_ne A.contract_eq A.multisig_eq (by simp)
    refine ⟨hs', r, (Finmap.lookup_insert_of_ne _ hne).trans hr, fun hnone => hroom ?_⟩
    exact (Finmap.lookup_insert_of_ne _ hne').symm.trans hnone

/-- The requests a client makes to create the agreement. -/
inductive Expected (A : Site D hash t n) : Rpc → Prop
  | read (a : Pubkey) : Expected A (.getAccountInfo a)
  | register (payer : Pubkey) : Expected A (.send (A.register payer))
  | create (payer : Pubkey) : Expected A (.send (A.create payer))

variable {bytes : Account → List UInt8} {q : Rpc} {r : q.Reply}

theorem Ready.serve (h : A.Ready groth16 s) (hq : A.Expected q)
    (hs : Serve D groth16 bytes s q r s') : A.Ready groth16 s' := by
  cases hs with
  | sent hx =>
    cases hq with
    | register payer => exact h.register hx
    | create payer => exact h.create hx
  | _ => exact h

/-- How the store drifts while clients create the agreement. -/
def Drift (A : Site D hash t n) (groth16 : Groth16Verifier) (s s' : Store) : Prop :=
  Later D groth16 s s' ∧ (A.Ready groth16 s → A.Ready groth16 s')

theorem Drift.refl (s : Store) : A.Drift groth16 s s := ⟨.refl s, id⟩

theorem Drift.trans {s'' : Store} (h : A.Drift groth16 s s') (h' : A.Drift groth16 s' s'') :
    A.Drift groth16 s s'' :=
  ⟨h.1.trans h'.1, fun hr => h'.2 (h.2 hr)⟩

theorem Drift.serve (hq : A.Expected q) (hs : Serve D groth16 bytes s q r s') :
    A.Drift groth16 s s' :=
  ⟨hs.later, fun hr => hr.serve hq hs⟩

end Site

section Client

variable {D : Pda} {groth16 : Groth16Verifier} {hash : Bytes 32} {t n : UInt8}
  {A : Site D hash t n} {bytes : Account → List UInt8} {ε α γ : Type} {reject : String → ε}
  {a : Pubkey} {w : Store × List (Turn Rpc Rpc.Reply)} {s s' : Store}

/-- What a client ensures among the others, of the store and of its own requests. -/
abbrev Site.Among (A : Site D hash t n) (groth16 : Groth16Verifier) (bytes : Account → List UInt8)
    (d : Dialogue Rpc Rpc.Reply α) (P : α → Store × List (Turn Rpc Rpc.Reply) → Prop)
    (w : Store × List (Turn Rpc Rpc.Reply)) : Prop :=
  Ensures (recorded (Serve D groth16 bytes)) (aside (A.Drift groth16)) d P w

/-- The error is that of a request, and a read has failed. -/
structure Unread (reject : String → ε) (e : ε) (l : List (Turn Rpc Rpc.Reply)) : Prop where
  thrown : ∃ m, e = reject m
  read : ∃ a m, (⟨.getAccountInfo a, .error m⟩ : Turn Rpc Rpc.Reply) ∈ l

theorem among_getAccountInfo : A.Among groth16 bytes (getAccountInfo reject a).run
    (fun r w' => A.Drift groth16 w.1 w'.1 ∧ match r with
      | .ok info => Shows bytes w'.1 a info
      | .error e => Unread reject e w'.2) w := by
  rintro ⟨s₁, l₁⟩ ⟨hdrift, rfl⟩ r ⟨s₂, l₂⟩ ⟨hserve, rfl⟩
  cases hserve with
  | read hshow => exact ⟨hdrift, hshow⟩
  | @unread _ m => exact ⟨hdrift, ⟨m, rfl⟩, a, m, by simp⟩

/-- Whoever fails to initialize an account finds it initialized, unless the read fails. -/
theorem among_recovery {transaction : List Instruction}
    {readAccount : Option AccountInfo → ExceptT ε (Dialogue Rpc Rpc.Reply) (Option γ)}
    (Before Here : Store → Prop) (hexpected : A.Expected (.send transaction))
    (hbefore : ∀ s s', Before s → A.Drift groth16 s s' → Before s')
    (hhere : ∀ s s', Here s → Extends s s' → Here s')
    (hsent : ∀ s now s',
      Batch.exec (exec D groth16) s (transaction.map (⟨⟨now, true⟩, ·⟩)) = .ok s' → Here s')
    (hrejected : ∀ s now e, Before s →
      Batch.exec (exec D groth16) s (transaction.map (⟨⟨now, true⟩, ·⟩)) = .error e → Here s)
    (hread : ∀ s info, Before s → Here s → Shows bytes s a info →
      ∃ x, readAccount info = pure (some x))
    (hw : Before w.1) : A.Among groth16 bytes
      (initializeOrReadExisting (send reject transaction) (getAccountInfo reject a)
        readAccount).run
      (fun r w' => A.Drift groth16 w.1 w'.1 ∧ match r with
        | .ok none => Here w'.1
        | .ok (some sig) => Here w'.1 ∧ ⟨.send transaction, .ok sig⟩ ∈ w'.2
        | .error e => Unread reject e w'.2) w := by
  refine ensures_initializeOrReadExisting ?_
  rintro ⟨s₁, l₁⟩ ⟨hdrift, rfl⟩ r ⟨s₂, l₂⟩ ⟨hserve, rfl⟩
  have hdrift₂ : A.Drift groth16 w.1 s₂ := hdrift.trans (.serve hexpected hserve)
  have hthere : Here s₂ := by
    cases hserve with
    | sent hx => exact hsent _ _ _ hx
    | rejected hx => exact hrejected _ _ _ (hbefore _ _ hw hdrift) hx
  cases r with
  | ok sig => exact ⟨hdrift₂, hthere, by simp⟩
  | error m =>
    refine among_getAccountInfo.mono fun r w₃ ⟨hdrift₃, hr⟩ => ?_
    cases r with
    | error e => exact ⟨hdrift₂.trans hdrift₃, ⟨m, rfl⟩, hr.read⟩
    | ok info =>
      have hthere₃ := hhere _ _ hthere hdrift₃.1.extends
      obtain ⟨x, hx⟩ := hread _ info (hbefore _ _ hw (hdrift₂.trans hdrift₃)) hthere₃ hr
      show Ensures _ _ (readAccount info).run _ _
      rw [hx]
      exact ⟨hdrift₂.trans hdrift₃, hthere₃⟩

section Steps

variable {coder : Coder} {payer : Pubkey}

/-- A client that registers the contract finds it registered, if not by itself. -/
theorem among_register (henc : coder.Encodes bytes)
    {readAccount : Option AccountInfo → ExceptT ε (Dialogue Rpc Rpc.Reply) (Option Contract)}
    (hread : ∀ info x, readContractAccount coder info hash = .ok x → readAccount info = pure x)
    (hw : A.Ready groth16 w.1) : A.Among groth16 bytes
      (initializeOrReadExisting (send reject (A.register payer))
        (getAccountInfo reject A.contract.1) readAccount).run
      (fun r w' => A.Drift groth16 w.1 w'.1 ∧ match r with
        | .ok _ => A.Registered w'.1
        | .error e => Unread reject e w'.2) w := by
  refine (among_recovery (A.Ready groth16) A.Registered (.register payer)
    (fun s s' h hd => hd.2 h) (fun s s' h he => h.mono he)
    (fun s now s' hx => Site.registered_of_exec hx)
    (fun s now e h hx => Site.registered_of_error h hx)
    (fun s info h hthere hshow => ?_) hw).mono fun r w' hr => ?_
  · obtain ⟨x, hx⟩ := hthere
    have hok := hshow.readContractAccount henc h.reachable A.contract_eq
    rw [hx] at hok
    exact ⟨x, hread info _ hok⟩
  · rcases r with e | _ | sig
    · exact hr
    · exact hr
    · exact ⟨hr.1, hr.2.1⟩

/-- A client that creates the agreement finds it created, if not by itself. -/
theorem among_create (henc : coder.Encodes bytes)
    {readAccount : Option AccountInfo →
      ExceptT ε (Dialogue Rpc Rpc.Reply) (Option MultiSigContract)}
    (hread : ∀ info ms, readMultisigAccount coder info A.contract.1 = .ok (some ms) →
      ms.threshold = t → ms.maxSigners = n → readAccount info = pure (some ms))
    (hw : A.Ready groth16 w.1) (hc : A.Registered w.1) : A.Among groth16 bytes
      (initializeOrReadExisting (send reject (A.create payer))
        (getAccountInfo reject A.multisig.1) readAccount).run
      (fun r w' => A.Drift groth16 w.1 w'.1 ∧ match r with
        | .ok none => A.Created w'.1
        | .ok (some sig) => A.Created w'.1 ∧ ⟨.send (A.create payer), .ok sig⟩ ∈ w'.2
        | .error e => Unread reject e w'.2) w := by
  refine among_recovery (fun s => A.Ready groth16 s ∧ A.Registered s) A.Created (.create payer)
    (fun s s' h hd => ⟨hd.2 h.1, h.2.mono hd.1.extends⟩) (fun s s' h he => h.mono he)
    (fun s now s' hx => (Site.created_of_exec hx).2)
    (fun s now e h hx => Site.created_of_error h.1.reachable h.2 hx)
    (fun s info h hthere hshow => ?_) ⟨hw, hc⟩
  obtain ⟨ms, hms⟩ := hthere
  have hok := hshow.readMultisigAccount henc h.1.reachable A.contract_eq A.multisig_eq
  rw [hms] at hok
  obtain ⟨ht, hn⟩ : ms.threshold = t ∧ ms.maxSigners = n :=
    h.1.reachable.sound.fits A.multisig_eq hms
  exact ⟨ms, hread info ms hok ht hn⟩

/-- What a client makes of a first read of the contract. -/
theorem among_readContract (henc : coder.Encodes bytes) (hw : A.Ready groth16 w.1) :
    A.Among groth16 bytes (getAccountInfo reject A.contract.1).run
      (fun r w' => A.Drift groth16 w.1 w'.1 ∧ match r with
        | .ok info => ∃ x, readContractAccount coder info hash = .ok x
          ∧ (x.isSome = true → A.Registered w'.1)
        | .error e => Unread reject e w'.2) w := by
  refine among_getAccountInfo.mono fun r w' ⟨hdrift, hr⟩ => ⟨hdrift, ?_⟩
  cases r with
  | error e => exact hr
  | ok info =>
    refine ⟨_, hr.readContractAccount henc (hdrift.2 hw).reachable A.contract_eq, fun hsome => ?_⟩
    rw [Site.registered_iff (hdrift.2 hw).reachable]
    intro hnone
    simp [hnone] at hsome

/-- And of the agreement, which has the settings it is looked for with. -/
theorem among_readMultisig (henc : coder.Encodes bytes) (hw : A.Ready groth16 w.1) :
    A.Among groth16 bytes (getAccountInfo reject A.multisig.1).run
      (fun r w' => A.Drift groth16 w.1 w'.1 ∧ match r with
        | .ok info => ∃ x, readMultisigAccount coder info A.contract.1 = .ok x
          ∧ ∀ ms, x = some ms → A.Created w'.1 ∧ ms.threshold = t ∧ ms.maxSigners = n
        | .error e => Unread reject e w'.2) w := by
  refine among_getAccountInfo.mono fun r w' ⟨hdrift, hr⟩ => ⟨hdrift, ?_⟩
  cases r with
  | error e => exact hr
  | ok info =>
    refine ⟨_, hr.readMultisigAccount henc (hdrift.2 hw).reachable A.contract_eq A.multisig_eq,
      fun ms hms => ?_⟩
    obtain ⟨x, hx, hview⟩ := Option.bind_eq_some_iff.1 hms
    rw [Account.asMultisig_eq_some] at hview
    subst hview
    obtain ⟨ht, hn⟩ : ms.threshold = t ∧ ms.maxSigners = n :=
      (hdrift.2 hw).reachable.sound.fits A.multisig_eq hx
    exact ⟨⟨ms, hx⟩, ht, hn⟩

end Steps

section Sdk

variable {coder : Coder} {payer : Pubkey}

@[simp]
theorem Sdk.call_bind {β : Type} {x : α} {f : α → Sdk.Task β} : Sdk.call (.ok x) >>= f = f x := rfl

theorem assertMultisigConfig_eq_ok {ms : MultiSigContract} (ht : ms.threshold = t)
    (hn : ms.maxSigners = n) (hpos : 0 < t) (htn : t ≤ n) :
    assertMultisigConfig ms t.toNat n.toNat = .ok () := by
  have hvalid : validateMultisigConfig t.toNat n.toNat = .ok () :=
    validateMultisigConfig_eq_ok.2 ⟨hpos, htn⟩
  simp only [assertMultisigConfig, hvalid, Batch.ok_bind, ht, hn, ne_eq, not_true_eq_false,
    or_self, if_false]
  rfl

/-- A call for the agreement goes to its site. -/
theorem Sdk.registerContract_eq (A : Site D hash t n) :
    Sdk.registerContract D coder (some payer) hash = (do
      let existing ← getAccountInfo id A.contract.1
      if (← Sdk.call (readContractAccount coder existing hash)).isSome then
        return (A.contract.1, none)
      else
        let tx ← initializeOrReadExisting (send id (A.register payer))
          (getAccountInfo id A.contract.1)
          fun info => Sdk.call (readContractAccount coder info hash)
        return (A.contract.1, tx)) := by
  have hregistry : findProgramAddressSync D [Sdk.registrySeed] = .ok A.registry :=
    (findProgramAddressSync_seeds (d := .registry)).2 A.registry_eq
  have hcontract : findProgramAddressSync D [Sdk.contractSeed, hash.toList] = .ok A.contract :=
    (findProgramAddressSync_seeds (d := .contract hash)).2 A.contract_eq
  have hkey {β : Type} {f : Pubkey → Sdk.Task β} : Sdk.getKeypair (some payer) >>= f = f payer :=
    rfl
  simp only [Sdk.registerContract, hkey, hregistry, hcontract, Sdk.call_bind]
  rfl

theorem Sdk.createMultisig_eq (A : Site D hash t n) :
    Sdk.createMultisig D coder (some payer) hash t.toNat n.toNat = (do
      let info ← getAccountInfo id A.multisig.1
      match ← Sdk.call (readMultisigAccount coder info A.contract.1) with
      | some existing =>
        Sdk.call (assertMultisigConfig existing t.toNat n.toNat)
        return (A.multisig.1, none)
      | none =>
        let tx ← initializeOrReadExisting (send id (A.create payer))
          (getAccountInfo id A.multisig.1)
          fun info => do
            let account ← Sdk.call (readMultisigAccount coder info A.contract.1)
            account.elim (pure ()) fun existing =>
              Sdk.call (assertMultisigConfig existing t.toNat n.toNat)
            return account
        return (A.multisig.1, tx)) := by
  have hconfig : validateMultisigConfig t.toNat n.toNat = .ok () :=
    validateMultisigConfig_eq_ok.2 ⟨A.positive, A.capacity⟩
  have hcontract : findProgramAddressSync D [Sdk.contractSeed, hash.toList] = .ok A.contract :=
    (findProgramAddressSync_seeds (d := .contract hash)).2 A.contract_eq
  have hseeds : multisigSeeds hash t.toNat n.toNat = .ok (Derivation.multisig hash t n).seeds :=
    multisigSeeds_eq_ok.2 ⟨A.positive, A.capacity, rfl⟩
  have hkey {β : Type} {f : Pubkey → Sdk.Task β} : Sdk.getKeypair (some payer) >>= f = f payer :=
    rfl
  simp only [Sdk.createMultisig, hconfig, hkey, hcontract, hseeds, Sdk.call_bind,
    findProgramAddressSync_seeds.2 A.multisig_eq, Int.toNat_natCast, UInt8.ofNat_toNat]
  rfl

theorem Sdk.among_registerContract (henc : coder.Encodes bytes) (hw : A.Ready groth16 w.1) :
    A.Among groth16 bytes (Sdk.registerContract D coder (some payer) hash).run
      (fun r w' => A.Drift groth16 w.1 w'.1 ∧ match r with
        | .ok _ => A.Registered w'.1
        | .error e => Unread id e w'.2) w := by
  rw [Sdk.registerContract_eq A]
  refine (among_readContract henc hw).andThen (fun info w₁ ⟨hdrift, x, hx, hthere⟩ => ?_)
    fun e w₁ h => h
  rw [hx, Sdk.call_bind]
  split_ifs with hsome
  · exact ⟨hdrift, hthere hsome⟩
  · refine (among_register henc (fun info x hx => ?_) (hdrift.2 hw)).andThen
      (fun tx w₂ h => ⟨hdrift.trans h.1, h.2⟩) fun e w₂ h => ⟨hdrift.trans h.1, h.2⟩
    rw [hx]
    rfl

/-- What a client reports: the agreement is there, and a receipt is that of its own transaction. -/
def Site.Reported (A : Site D hash t n) (payer : Pubkey) (tx : Option Text)
    (w : Store × List (Turn Rpc Rpc.Reply)) : Prop :=
  A.Created w.1 ∧ ∀ sig, tx = some sig → ⟨.send (A.create payer), .ok sig⟩ ∈ w.2

theorem Sdk.among_createMultisig (henc : coder.Encodes bytes) (hw : A.Ready groth16 w.1)
    (hc : A.Registered w.1) : A.Among groth16 bytes
      (Sdk.createMultisig D coder (some payer) hash t.toNat n.toNat).run
      (fun r w' => match r with
        | .ok (p, tx) => p = A.multisig.1 ∧ A.Reported payer tx w'
        | .error e => Unread id e w'.2) w := by
  rw [Sdk.createMultisig_eq A]
  refine (among_readMultisig henc hw).andThen (fun info w₁ ⟨hdrift, x, hx, hthere⟩ => ?_)
    fun e w₁ h => h.2
  rw [hx, Sdk.call_bind]
  rcases x with _ | ms
  · refine (among_create henc (fun info ms hx ht hn => ?_) (hdrift.2 hw)
      (hc.mono hdrift.1.extends)).andThen (fun tx w₂ h => ?_) fun e w₂ h => h.2
    · rw [hx, Sdk.call_bind, Option.elim_some,
        assertMultisigConfig_eq_ok ht hn A.positive A.capacity]
      rfl
    · rcases tx with _ | sig
      · exact ⟨rfl, h.2, by simp⟩
      · exact ⟨rfl, h.2.1, fun sig' heq => (Option.some.inj heq) ▸ h.2.2⟩
  · obtain ⟨hcreated, ht, hn⟩ := hthere ms rfl
    simp only [assertMultisigConfig_eq_ok ht hn A.positive A.capacity, Sdk.call_bind]
    exact ⟨rfl, hcreated, by simp⟩

theorem Sdk.among_createAgreement (henc : coder.Encodes bytes) (hw : A.Ready groth16 w.1) :
    A.Among groth16 bytes (Sdk.createAgreement D coder (some payer) hash t.toNat n.toNat).run
      (fun r w' => match r with
        | .ok (p, tx) => p = A.multisig.1 ∧ A.Reported payer tx w'
        | .error e => Unread id e w'.2) w :=
  (Sdk.among_registerContract henc hw).andThen
    (fun _ _ h => Sdk.among_createMultisig henc (h.1.2 hw) h.2) fun _ _ h => h.2

end Sdk

end Client

end Oblivia

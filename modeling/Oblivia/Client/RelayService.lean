import Oblivia.Client.AgreementAnswers
import Oblivia.Lib.Service
import Oblivia.Relay.Http
/-!
# How the pages reach the relay

A request of a page is served by a route of the relay over a network that runs the program, unless
it is lost, on its way or at another server. What a signer is shown rests on a receipt that is on
the chain, of a proof that the verifier has accepted (`Reachable.proven`).
-/

namespace Oblivia

open Dialogue

/-- An answer as the client receives it. -/
def Relay.Response.sent (response : Relay.Response) : RelayAnswer :=
  .ok (response.status, response.body.stringify)

namespace Relay

/-- The relay works on a request: its route is passed, or the middleware refuses it. -/
def Offers (D : Pda) (coder : Coder) (base58 : Pubkey → Text)
    (fromSecretKey : List UInt8 → Except String Pubkey) (secretHex : Option Text)
    (request : Request) (d : Dialogue Rpc Rpc.Reply RelayAnswer) : Prop :=
  ∃ passage, d = Response.sent <$> serve D coder base58 fromSecretKey secretHex passage request

/-- The request failed, or something else than the relay says that it did. -/
def Lost : RelayAnswer → Prop
  | .error _ => True
  | .ok (status, _) => isOk status = false

/-- A text that is read is the text of what is read, unless it is empty. -/
theorem readBody_stringify {text : Text} {body body' : Json} (htext : text = body.stringify)
    (hbody : readBody text = .ok body') : body' = body := by
  subst htext
  unfold readBody at hbody
  split_ifs at hbody with hlimit hempty
  · obtain ⟨c, l, hstart, -⟩ := Json.stringify_starts body
    rw [hempty] at hstart
    cases hstart
  · rw [Json.parse_stringify] at hbody
    cases body <;> cases hbody <;> rfl

section Work

variable {σ : Type} {asked : σ → (q : Rpc) → q.Reply → σ → Prop} {drift : σ → σ → Prop} {s : σ}
  {D : Pda} {coder : Coder} {base58 : Pubkey → Text}
  {fromSecretKey : List UInt8 → Except String Pubkey} {secretHex : Option Text}
  {d : Dialogue Rpc Rpc.Reply RelayAnswer}

/-- The work on a body: it is an error, or the route's handler answers. -/
theorem ensures_offers {route : Route} {text : Text} {R : RelayAnswer → σ → Prop}
    (hd : Offers D coder base58 fromSecretKey secretHex (.ofText route text) d)
    (herror : ∀ f, R (sendRelayError f).sent s)
    (hbody : ∀ body keypair, readBody text = .ok body → Ensures asked drift
      (handler D coder base58 keypair route (some body)).run
      (fun r s => R (answer r).sent s) s) : Ensures asked drift d R s := by
  obtain ⟨passage, rfl⟩ := hd
  refine ensures_bind.2 ?_
  unfold Request.ofText
  rcases hread : readBody text with e | body
  · exact herror _
  cases passage with
  | limited => exact herror _
  | refused error => exact herror _
  | passed => exact ensures_respond.2 (hbody body _ hread)

end Work

end Relay

variable {D : Pda} {groth16 : Groth16Verifier} {s s' : Store} {h k : Bytes 32}

section Invariants

/-- Whatever is asked of the network, it runs the program. -/
theorem ensures_reachable {bytes : Account → List UInt8} {α : Type} (hs : Reachable D groth16 s)
    (d : Dialogue Rpc Rpc.Reply α) : Ensures (Serve D groth16 bytes) (Later D groth16) d
      (fun _ s => Reachable D groth16 s) s :=
  ensures_invariant (fun _ _ hl => hl.reachable) (fun _ _ _ _ hserve => hserve.later.reachable) d hs

/-- Of a request of which nothing is asked nothing is to be shown. -/
theorem ensures_trivial {bytes : Account → List UInt8} {α : Type} (d : Dialogue Rpc Rpc.Reply α) :
    Ensures (Serve D groth16 bytes) (Later D groth16) d (fun _ _ => True) s :=
  ensures_invariant (I := fun _ => True) (fun _ _ _ _ => trivial) (fun _ _ _ _ _ _ => trivial) d
    trivial

theorem yields_trivial {bytes : Account → List UInt8} {ε α : Type}
    (x : ExceptT ε (Dialogue Rpc Rpc.Reply) α) :
    Yields (Serve D groth16 bytes) (Later D groth16) x (fun _ _ => True) s :=
  (ensures_trivial x.run).mono fun _ _ _ _ _ => trivial

/-- What stays true while the program runs. -/
theorem yields_later {bytes : Account → List UInt8} {ε α : Type} {I : Store → Prop}
    (hI : ∀ s s', Later D groth16 s s' → I s → I s') (x : ExceptT ε (Dialogue Rpc Rpc.Reply) α)
    (hs : I s) : Yields (Serve D groth16 bytes) (Later D groth16) x (fun _ s => I s) s :=
  yields_invariant hI (fun s _ _ s' hserve => hI s s' hserve.later) x hs

end Invariants

section Agreements

variable {m : Pubkey}

/-- Settings that pass the check of the clients are those of the program. -/
theorem exists_settings {threshold maxSigners : ℤ} {u : Unit}
    (hvalid : validateMultisigConfig threshold maxSigners = .ok u) :
    ∃ t n : UInt8, 0 < t ∧ t ≤ n ∧ threshold = t.toNat ∧ maxSigners = n.toNat := by
  have hbound : 1 ≤ threshold ∧ threshold ≤ maxSigners ∧ maxSigners ≤ 255 := by
    unfold validateMultisigConfig at hvalid
    split_ifs at hvalid with h
    omega
  have hround (k : ℤ) (h : 1 ≤ k ∧ k ≤ 255) : k = (UInt8.ofNat k.toNat).toNat := by
    rw [UInt8.toNat_ofNat', Nat.mod_eq_of_lt (by omega)]
    omega
  have ht := hround threshold (by omega)
  have hn := hround maxSigners (by omega)
  refine ⟨_, _, UInt8.lt_iff_toNat_lt.2 ?_, UInt8.le_iff_toNat_le.2 ?_, ht, hn⟩ <;> simp <;> omega

theorem exists_multisig (h : ((s.lookup m).bind Account.asMultisig).isSome = true) :
    ∃ ms, s.lookup m = some (.multisig ms) := by
  obtain ⟨ms, hms⟩ := Option.isSome_iff_exists.1 h
  obtain ⟨x, hx, hview⟩ := Option.bind_eq_some_iff.1 hms
  exact ⟨ms, Account.asMultisig_eq_some.1 hview ▸ hx⟩

/-- A transaction that creates an agreement leaves it at its address. -/
theorem exists_multisig_of_exec {rt : Runtime} {create : CreateMultiSig} {t n : UInt8}
    (hexec : Batch.exec (exec D groth16) s [⟨rt, .createMultisig create h t n⟩] = .ok s') :
    ∃ ms, s'.lookup create.multisig.key = some (.multisig ms) := by
  obtain ⟨s₁, hx, hnil⟩ := Batch.exec_cons_ok.1 hexec
  rw [Batch.exec, Except.ok.injEq] at hnil
  subst hnil
  cases exec_eq_ok.1 hx with
  | createMultisig g => exact ⟨_, lookup_createStore⟩

end Agreements

section Recovery

variable {σ ε α β γ : Type} {asked : σ → (q : Rpc) → q.Reply → σ → Prop} {drift : σ → σ → Prop}
  {submit : ExceptT ε (Dialogue Rpc Rpc.Reply) α}
  {fetchAccount : ExceptT ε (Dialogue Rpc Rpc.Reply) β}
  {readAccount : β → ExceptT ε (Dialogue Rpc Rpc.Reply) (Option γ)} {P : Option α → σ → Prop}
  {R : σ → Prop} {w : σ}

/-- A result of the recovery was submitted, or is read. -/
theorem yields_initializeOrReadExisting
    (hsubmit : Ensures asked drift submit.run (fun r w => match r with
      | .ok a => P (some a) w
      | .error _ => R w) w)
    (hfetch : ∀ w, R w → Yields asked drift (fetchAccount >>= readAccount)
      (fun x w => x.isSome = true → P none w) w) :
    Yields asked drift (initializeOrReadExisting submit fetchAccount readAccount) P w := by
  refine ensures_initializeOrReadExisting (hsubmit.mono fun r w hr => ?_)
  rcases r with e | a
  · refine Ensures.mono (ensures_except_bind.1 (hfetch w hr)) fun r w hr => ?_
    rcases r with e' | info
    · exact fun _ h => (nomatch h)
    · refine Ensures.mono hr fun r w hr => ?_
      rcases r with e' | _ | x
      · exact fun _ h => (nomatch h)
      · exact fun _ h => (nomatch h)
      · exact fun y hy => Except.ok.inj hy ▸ hr _ rfl rfl
  · exact fun y hy => Except.ok.inj hy ▸ hr

/-- What is read is checked, if there is anything, and returned. -/
theorem yields_checked {x : Option γ} {check : γ → ExceptT ε (Dialogue Rpc Rpc.Reply) Unit}
    {P : Option γ → σ → Prop}
    (hcheck : ∀ a, Yields asked drift (check a) (fun _ w' => w' = w) w) (hP : P x w) :
    Yields asked drift (do
      x.elim (pure ()) check
      return x) P w := by
  refine Yields.bind (P := fun _ w' => w' = w) ?_ fun _ w' hw => yields_pure.2 (hw ▸ hP)
  rcases x with _ | a
  · exact yields_pure.2 rfl
  · exact hcheck a

end Recovery

namespace Relay

variable {σ α : Type} {asked : σ → (q : Rpc) → q.Reply → σ → Prop} {drift : σ → σ → Prop} {s : σ}
  {P : α → σ → Prop}

theorem yields_unclassified {x : Except String α} :
    Yields asked drift (unclassified x) P s ↔ ∀ a, x = .ok a → P a s := by
  cases x with
  | ok a =>
    exact ⟨fun h _ ha => h _ (Except.ok.inj ha ▸ rfl), fun h _ ha => h _ (Except.ok.inj ha ▸ rfl)⟩
  | error e => exact ⟨fun _ _ ha => (nomatch ha), fun _ _ ha => (nomatch ha)⟩

section Addresses

variable {D : Pda} {I : σ → Prop} {h : Bytes 32} {t n : UInt8}

/-- An address that a handler finds is one that the program derives. -/
theorem yields_find {d : Derivation} (hI : I s) :
    Yields asked drift (unclassified (findProgramAddressSync D d.seeds))
      (fun a s => D.findProgramAddress d = some a ∧ I s) s :=
  yields_unclassified.2 fun _ hd => ⟨findProgramAddressSync_seeds.1 hd, hI⟩

theorem yields_multisigSeeds (hI : I s) :
    Yields asked drift (unclassified (multisigSeeds h t.toNat n.toNat))
      (fun seeds s => (Derivation.multisig h t n).seeds = seeds ∧ I s) s :=
  yields_unclassified.2 fun _ hseeds => ⟨(multisigSeeds_eq_ok.1 hseeds).2.2, hI⟩

end Addresses

theorem yields_submit {transaction : List Instruction} {P : Text → σ → Prop}
    (h : ∀ s₁, drift s s₁ → ∀ sig s₂, asked s₁ (.send transaction) (.ok sig) s₂ → P sig s₂) :
    Yields asked drift (submit transaction) P s := by
  refine ensures_submit.2 fun s₁ h₁ r s₂ h₂ sig hsig => ?_
  rcases r with e | sig'
  · cases hsig
  · exact Except.ok.inj hsig ▸ h s₁ h₁ sig' s₂ h₂

theorem yields_fetchAccount {a : Pubkey} {P : Option AccountInfo → σ → Prop}
    (h : ∀ s₁, drift s s₁ → ∀ info s₂, asked s₁ (.getAccountInfo a) (.ok info) s₂ → P info s₂) :
    Yields asked drift (fetchAccount a) P s := by
  refine ensures_fetchAccount.2 fun s₁ h₁ r s₂ h₂ info hinfo => ?_
  rcases r with e | info'
  · cases hinfo
  · exact Except.ok.inj hinfo ▸ h s₁ h₁ info' s₂ h₂

end Relay

/-- The key has a receipt on the contract. -/
def HasReceipt (D : Pda) (s : Store) (h k : Bytes 32) : Prop := ∃ a sg, ReceiptFor D s h k a sg

/-- The key has its receipt on the contract, of the proof with this commitment. -/
def Receipted (D : Pda) (s : Store) (h k sc : Bytes 32) : Prop :=
  ∃ a sg, ReceiptFor D s h k a sg ∧ sg.signatureCommitment = sc

/-- The key has a receipt on the contract, and in every run that leads here the verifier has
accepted a proof of the key for the hash. -/
structure Proven (D : Pda) (groth16 : Groth16Verifier) (s : Store) (h k : Bytes 32) : Prop where
  receipt : HasReceipt D s h k
  accepted : ∀ txs, run D groth16 ∅ txs = s → ∃ e ∈ journal D groth16 ∅ txs, ∃ acc args,
    Accepted groth16 h acc args e ∧ args.keyCommitment = k

theorem HasReceipt.later (hl : Later D groth16 s s') (hk : HasReceipt D s h k) :
    HasReceipt D s' h k := by
  obtain ⟨a, sg, hsg, hkey, b, hcon⟩ := hk
  exact ⟨a, sg, hl.extends.signature hsg, hkey, b, hcon⟩

theorem HasReceipt.proven (hk : HasReceipt D s h k) : Proven D groth16 s h k := by
  refine ⟨hk, fun txs htxs => ?_⟩
  obtain ⟨a, sg, hsg, rfl, b, hcon⟩ := hk
  subst htxs
  obtain ⟨pre, e, post, acc, args, h', b', hj, hacc, -, hsc, hkey, -, hadr⟩ :=
    Path.receipt_accepted (Batch.path_run ∅ txs) (by simp) hsg
  have hd := (Pda.derivation_inj (hsc ▸ Pda.derive_of_find hcon) hadr).1
  rw [Derivation.contract.injEq] at hd
  exact ⟨e, by simp [hj], acc, args, hd ▸ hacc, hkey.symm⟩

section Receipted

variable {sc : Bytes 32} {rt : Runtime} {verify : VerifyGroth16V2} {proof : ProofArgs}
  {rest : List Call} {b : UInt8}

theorem Receipted.hasReceipt (hk : Receipted D s h k sc) : HasReceipt D s h k := by
  obtain ⟨a, sg, hsg, -⟩ := hk
  exact ⟨a, sg, hsg⟩

theorem Receipted.later (hl : Later D groth16 s s') (hk : Receipted D s h k sc) :
    Receipted D s' h k sc := by
  obtain ⟨a, sg, ⟨hsg, hkey, hcon⟩, hsc⟩ := hk
  exact ⟨a, sg, ⟨hl.extends.signature hsg, hkey, hcon⟩, hsc⟩

/-- A transaction that verifies a proof leaves its receipt. -/
theorem receipted_of_exec
    (hc : D.findProgramAddress (.contract h) = some (verify.contract.key, b))
    (hexec : Batch.exec (exec D groth16) s (⟨rt, .verifyGroth16V2 verify proof⟩ :: rest)
      = .ok s') : Receipted D s' h proof.keyCommitment proof.signatureCommitment := by
  obtain ⟨s₁, hv, hrest⟩ := Batch.exec_cons_ok.1 hexec
  cases exec_eq_ok.1 hv with
  | verifyGroth16V2 g =>
    exact Receipted.later (Later.of_exec hrest) ⟨_, _, ⟨g.lookup_signature, rfl, b, hc⟩, rfl⟩

end Receipted

section Sample

/-- The contract of the sample, registered. -/
def sampleRegistered : Store := run samplePda sampleVerifier ∅ (sampleSetup.take 2)

/-- Every text has the hash of the sample. -/
def sampleHashes (_ : List UInt8) : Bytes 32 := sampleHash

/-- The proof of the sample, as the prover returns it. -/
def sampleGroth : Groth16Proof × (Fin 4 → Text) :=
  let zero := ['0']
  (⟨(zero, decimal fieldModulus.toNat), ((zero, zero), (zero, zero)), (zero, zero)⟩,
    fun i => decimal ((((sampleProof 1).pubInputs.toList.drop (32 * i)).take 32).foldl
      (fun m b => 256 * m + b.toNat) 0))

def sampleSignature : Text := List.replicate 64 '2'

def sampleVerify : List Instruction :=
  match samplePda.findProgramAddress (.signature sampleContract (sampleKey 1) (sampleSig 1)),
    samplePda.findProgramAddress (.signerRecord sampleHash (sampleKey 1)) with
  | some (sg, _), some (sr, _) =>
    [.verifyGroth16V2 (.of sampleRegistry sampleContract sg sr samplePayer) (sampleProof 1)]
  | _, _ => []

def sampleTurns : List (Turn Rpc Rpc.Reply) :=
  [⟨.getAccountInfo sampleContract, .ok (some (accountInfo (Account.bytes (.contract
      ⟨sampleHash, 1700000000, 0, true, 255⟩))))⟩,
    ⟨.send sampleVerify, .ok sampleSignature⟩]

/-- The contract is read and the proof is accepted. -/
theorem serves_sampleTurns : ∃ s', Pool.Serves (Serve samplePda sampleVerifier Account.bytes)
    sampleRegistered sampleTurns s' := by
  have hcontract : sampleRegistered.lookup sampleContract
      = some (.contract ⟨sampleHash, 1700000000, 0, true, 255⟩) := by decide +kernel
  obtain ⟨s', hverify⟩ : ∃ s', Batch.exec (exec samplePda sampleVerifier) sampleRegistered
      (sampleVerify.map (⟨sampleRuntime, ·⟩)) = .ok s' :=
    ⟨_, Batch.exec_eq_commit (by decide +kernel)⟩
  exact ⟨s', .cons (.read (Shows.account hcontract)) (.cons (.sent hverify) (.nil _))⟩

end Sample

end Oblivia

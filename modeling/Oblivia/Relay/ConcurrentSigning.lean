import Oblivia.Chain.CoSign
import Oblivia.Client.SdkPromises
import Oblivia.Relay.ConcurrentCreation
/-!
# Concurrent signing

Any number of requests to the relay and calls of the SDK sign one agreement at the same time,
interleaved in any way, and any of their answers may be lost. Each of them sends at most one
transaction; a signature that is reported is counted, and is the only one that is reported of its
key; and the agreement has collected the distinct keys of the accepted proofs that have been sent,
up to its threshold (`signing_accounted`).
-/

namespace Oblivia

open Dialogue

variable {D : Pda} {groth16 : Groth16Verifier} {h : Bytes 32} {t n : UInt8}

/-- The instructions that sign the agreement. -/
def SignAccounts.instructions {proof : ProofArgs}
    (A : SignAccounts D h t n proof.keyCommitment proof.signatureCommitment) (payer : Pubkey) :
    List Instruction :=
  [.verifyGroth16V2 (A.verify payer) proof,
    .recordVerifiedMultisig (A.record payer) h proof.keyCommitment]

namespace Signing

def isSend : Rpc → Bool
  | .send _ => true
  | _ => false

/-- The proof that a request submits. -/
def submittedProof : Rpc → Option ProofArgs
  | .send (.verifyGroth16V2 _ proof :: _) => some proof
  | _ => none

/-- The proofs that have been submitted, in this order. -/
def submitted {ι : Type} (log : List (ι × Turn Rpc Rpc.Reply)) : List ProofArgs :=
  log.filterMap fun e => submittedProof e.2.1

/-- The keys of the proofs that the program accepts for the contract. -/
def acceptedKeys (groth16 : Groth16Verifier) (h : Bytes 32) (proofs : List ProofArgs) :
    List (Bytes 32) :=
  (proofs.filter fun proof => verifyContractBoundProof groth16 h proof = .ok ()).map
    (·.keyCommitment)

/-- If the request is a transaction, it signs the agreement. -/
def Signs (D : Pda) (h : Bytes 32) (t n : UInt8) (q : Rpc) : Prop :=
  ∀ tx, q = .send tx → ∃ (proof : ProofArgs)
    (A : SignAccounts D h t n proof.keyCommitment proof.signatureCommitment) (payer : Pubkey),
    tx = A.instructions payer

section Signatory

/-- Nothing is sent. -/
def Quiet (l : List (Turn Rpc Rpc.Reply)) : Prop := ∀ e ∈ l, isSend e.1 = false

/-- How a signatory ends: nothing was sent, or its transaction was, and it has the signature of the
transaction if it was told. -/
inductive Ends (D : Pda) (h : Bytes 32) (t n : UInt8) (proof : ProofArgs) :
    Option Text → List (Turn Rpc Rpc.Reply) → Prop
  | idle {l : List (Turn Rpc Rpc.Reply)} : Quiet l → Ends D h t n proof none l
  | sent {l l' : List (Turn Rpc Rpc.Reply)}
      (A : SignAccounts D h t n proof.keyCommitment proof.signatureCommitment) (payer : Pubkey)
      (reply : Except String Text) : Quiet l → Quiet l' →
      Ends D h t n proof reply.toOption (l ++ ⟨.send (A.instructions payer), reply⟩ :: l')

variable {proof : ProofArgs} {tx : Option Text} {l l' : List (Turn Rpc Rpc.Reply)}

theorem Quiet.nil : Quiet [] := by simp [Quiet]

theorem Quiet.snoc {q : Rpc} {r : q.Reply} (hl : Quiet l) (hq : isSend q = false) :
    Quiet (l ++ [⟨q, r⟩]) := by
  intro e he
  rcases List.mem_append.1 he with he | he
  · exact hl e he
  · rw [List.mem_singleton.1 he]
    exact hq

theorem Quiet.countP (hl : Quiet l) : l.countP (fun e => isSend e.1) = 0 := by
  rw [List.countP_eq_zero]
  exact fun e he => by simp [hl e he]

theorem Ends.countP_le (h' : Ends D h t n proof tx l) : l.countP (fun e => isSend e.1) ≤ 1 := by
  cases h' with
  | idle hl => exact hl.countP.trans_le (Nat.zero_le 1)
  | sent A payer reply hl hl' =>
    rw [List.countP_append, List.countP_cons, hl.countP, hl'.countP]
    simp [isSend]

/-- What was sent is the signature. -/
theorem Ends.of_mem {transaction : List Instruction} {reply : Except String Text}
    (h' : Ends D h t n proof tx l) (hmem : ⟨.send transaction, reply⟩ ∈ l) :
    (∃ (A : SignAccounts D h t n proof.keyCommitment proof.signatureCommitment) (payer : Pubkey),
      transaction = A.instructions payer) ∧ tx = reply.toOption := by
  cases h' with
  | idle hl => cases hl _ hmem
  | sent A payer reply' hl hl' =>
    rcases List.mem_append.1 hmem with hmem | hmem
    · cases hl _ hmem
    · rcases List.mem_cons.1 hmem with heq | hmem
      · cases heq
        exact ⟨⟨A, payer, rfl⟩, rfl⟩
      · cases hl' _ hmem

theorem Ends.signs (h' : Ends D h t n proof tx l) : ∀ e ∈ l, Signs D h t n e.1 := by
  rintro ⟨q, r⟩ he transaction rfl
  obtain ⟨⟨A, payer, htx⟩, -⟩ := h'.of_mem he
  exact ⟨proof, A, payer, htx⟩

/-- A signature that is reported was confirmed. -/
theorem Ends.confirmed {sig : Text} (h' : Ends D h t n proof (some sig) l) :
    ∃ transaction, ⟨.send transaction, .ok sig⟩ ∈ l
      ∧ submittedProof (.send transaction) = some proof := by
  generalize htx : some sig = tx at h'
  cases h' with
  | idle => cases htx
  | sent A payer reply =>
    rcases reply with e | sig'
    · cases htx
    · cases htx
      exact ⟨A.instructions payer, by simp, rfl⟩

end Signatory

section Rules

variable {ε β : Type} {reject : String → ε} {R : Except ε β → List (Turn Rpc Rpc.Reply) → Prop}
  {l : List (Turn Rpc Rpc.Reply)}

/-- Building an instruction sends nothing. -/
theorem ensures_build_bind {ix : Instruction}
    {f : Unit → ExceptT ε (Dialogue Rpc Rpc.Reply) β} (hl : Quiet l)
    (hok : ∀ l, Quiet l → Ensures noted Eq (f ()).run R l)
    (herror : ∀ m l, Quiet l → R (.error (reject m)) l) :
    Ensures noted Eq (await reject (.request (Rpc.build ix)) >>= f).run R l := by
  rintro _ rfl r _ rfl
  rcases r with m | ⟨⟩
  · exact herror m _ (hl.snoc rfl)
  · exact hok _ (hl.snoc rfl)

theorem ensures_send_bind {transaction : List Instruction}
    {f : Text → ExceptT ε (Dialogue Rpc Rpc.Reply) β}
    (hok : ∀ sig, Ensures noted Eq (f sig).run R (l ++ [⟨.send transaction, .ok sig⟩]))
    (herror : ∀ m, R (.error (reject m)) (l ++ [⟨.send transaction, .error m⟩])) :
    Ensures noted Eq (send reject transaction >>= f).run R l := by
  rintro _ rfl r _ rfl
  rcases r with m | sig
  · exact herror m
  · exact hok sig

end Rules

section Requests

variable {payer : Pubkey} {body : Option Json} {proof : ProofArgs} {sha256 : List UInt8 → Bytes 32}
  {P : Snarkjs} {secret : ByteSource} {data : Sdk.ContractData} {timestamp : Text}

/-- A success as it is reported: the signature of the transaction. -/
def reported (response : Relay.Response) : Option Text :=
  match response.body.field "transaction" with
  | some (.string tx) => if response.status = 200 then some tx else none
  | _ => none

theorem ensures_postMultisigSign
    (hreq : Relay.multisigSignRequest body = .ok ((t.toNat, n.toNat), h, proof)) :
    Ensures noted Eq (Relay.postMultisigSign D (some payer) body).run
      (fun r l => Ends D h t n proof (reported (Relay.answer r)) l) [] := by
  have herror : ∀ (m : String) l, Quiet l →
      Ends D h t n proof (reported (Relay.sendRelayError (.other m))) l := fun m l hl => .idle hl
  unfold Relay.postMultisigSign
  rw [hreq, Relay.classified_bind]
  show Ensures _ _ ((Relay.unclassified _ >>= _ : Relay.Handler _)).run _ _
  refine Relay.ensures_unclassified_bind (fun ⟨registry, b₁⟩ h₁ => ?_) fun m => herror m _ .nil
  refine Relay.ensures_unclassified_bind (fun ⟨contract, b₂⟩ h₂ => ?_) fun m => herror m _ .nil
  refine Relay.ensures_unclassified_bind (fun ⟨signature, b₃⟩ h₃ => ?_) fun m => herror m _ .nil
  refine Relay.ensures_unclassified_bind (fun seeds hseeds => ?_) fun m => herror m _ .nil
  obtain ⟨-, -, rfl⟩ := multisigSeeds_eq_ok.1 hseeds
  refine Relay.ensures_unclassified_bind (fun ⟨multisig, b₄⟩ h₄ => ?_) fun m => herror m _ .nil
  refine Relay.ensures_unclassified_bind (fun ⟨member, b₅⟩ h₅ => ?_) fun m => herror m _ .nil
  refine Relay.ensures_unclassified_bind (fun ⟨signerRecord, b₆⟩ h₆ => ?_)
    fun m => herror m _ .nil
  have find (d : Derivation) (p : Pubkey × UInt8) :=
    findProgramAddressSync_seeds (D := D) (d := d) (p := p)
  let A : SignAccounts D h t n proof.keyCommitment proof.signatureCommitment :=
    ⟨_, _, _, _, _, _, (find .registry _).1 h₁, (find (.contract h) _).1 h₂,
      (find (.signature _ _ _) _).1 h₃, (find (.signerRecord _ _) _).1 h₆, (find _ _).1 h₄,
      (find (.member _ _) _).1 h₅⟩
  refine ensures_build_bind .nil (fun l hl => ?_) fun m l hl => herror m _ hl
  rw [h₆, Relay.unclassified_bind]
  refine ensures_build_bind hl (fun l hl => ?_) fun m l hl => herror m _ hl
  rw [Relay.submit_eq]
  refine ensures_send_bind (fun sig => ?_) fun m =>
    .sent A payer (.error m) hl .nil
  have hends : ∀ r, Ends D h t n proof (some sig) (l ++ [⟨.send (A.instructions payer), .ok sig⟩]
      ++ [⟨.fetchMultisig multisig, r⟩]) := fun r => by
    rw [List.append_assoc]
    exact .sent A payer (.ok sig) hl (Quiet.nil.snoc rfl)
  refine ensures_tryCatch.2 ?_
  rintro _ rfl r _ rfl
  rcases r with m | ms <;> exact hends _

theorem ensures_call_bind {α β : Type} {x : Except String α} {f : α → Sdk.Task β}
    {R : Except String β → List (Turn Rpc Rpc.Reply) → Prop} {l : List (Turn Rpc Rpc.Reply)}
    (hok : ∀ a, x = .ok a → Ensures noted Eq (f a).run R l) (herror : ∀ m, R (.error m) l) :
    Ensures noted Eq (Sdk.call x >>= f).run R l := by
  rcases x with m | a
  · exact herror m
  · exact hok a rfl

theorem ensures_signMultiSig
    (hproof : Sdk.generateDataProof sha256 P secret data timestamp = .ok (h, proof)) :
    Ensures noted Eq
      (Sdk.signMultiSig D (some payer) sha256 P secret data t.toNat n.toNat timestamp).run
      (fun r l => Ends D h t n proof (r.toOption.map (·.transaction)) l) [] := by
  have herror : ∀ l, Quiet l → ∀ m : String,
      Ends D h t n proof ((Except.error m : Except String Sdk.Signature).toOption.map
        (·.transaction)) l := fun l hl m => .idle hl
  refine ensures_call_bind (fun _ _ => ?_) (herror _ .nil)
  rw [hproof]
  refine Ensures.andThen (P := fun r l => Ends D h t n proof r.toOption l) ?_
    (fun tx l hl => hl) fun m l hl => hl
  unfold Sdk.sendVerifiedMultiSig
  refine ensures_call_bind (x := .ok payer) (fun _ hpayer => ?_) fun m => .idle .nil
  obtain rfl := Except.ok.inj hpayer
  refine ensures_call_bind (fun calls hcalls => ?_) fun m => .idle .nil
  obtain ⟨-, -, A, rfl⟩ := submitVerifiedMultiSig_eq_ok.1 hcalls
  refine Ensures.andThen (P := fun _ l => Quiet l) ?_ (fun _ l hl => ?_) fun m l hl => .idle hl
  · refine ensures_build_bind .nil (fun l hl => ?_) fun m l hl => hl
    exact ensures_build_bind hl (fun l hl => hl) fun m l hl => hl
  · rintro _ rfl r _ rfl
    rcases r with m | sig
    · exact .sent A payer (.error m) hl .nil
    · exact .sent A payer (.ok sig) hl .nil

end Requests

/-- Somebody who signs the agreement: a request to the relay, or a call of the SDK. -/
inductive Signatory
  | relay (payer : Pubkey) (body : Option Json)
  | sdk (payer : Pubkey) (secret : ByteSource) (data : Sdk.ContractData) (timestamp : Text)

/-- The answer of the relay, or how the call ends. -/
abbrev Signatory.Result := Relay.Response ⊕ Except String Sdk.Signature

def Signatory.Result.report : Signatory.Result → Option Text
  | .inl response => reported response
  | .inr r => r.toOption.map (·.transaction)

namespace Signatory

section Talk

variable (D : Pda) (coder : Coder) (base58 : Pubkey → Text) (sha256 : List UInt8 → Bytes 32)
  (P : Snarkjs) (h : Bytes 32) (t n : UInt8)

/-- It signs this agreement with this proof. -/
def Submits (proof : ProofArgs) : Signatory → Prop
  | relay _ body => Relay.multisigSignRequest body = .ok ((t.toNat, n.toNat), h, proof)
  | sdk _ secret data timestamp =>
    Sdk.generateDataProof sha256 P secret data timestamp = .ok (h, proof)

/-- What it asks of the network, the relay's limits not reached. -/
def talk : Signatory → Dialogue Rpc Rpc.Reply Result
  | relay payer body => Sum.inl <$> Relay.sponsored .passed
      (Relay.handler D coder base58 (some payer) .multisigSign body)
  | sdk payer secret data timestamp => Sum.inr <$>
      (Sdk.signMultiSig D (some payer) sha256 P secret data t.toNat n.toNat timestamp).run

end Talk

variable {coder : Coder} {base58 : Pubkey → Text} {sha256 : List UInt8 → Bytes 32} {P : Snarkjs}
  {proof : ProofArgs} {x : Signatory} {d : Dialogue Rpc Rpc.Reply Result}
  {l : List (Turn Rpc Rpc.Reply)}

theorem ensures_talk (hx : x.Submits sha256 P h t n proof) :
    Ensures noted Eq (x.talk D coder base58 sha256 P t n)
      (fun o l => Ends D h t n proof o.report l) [] := by
  cases x with
  | relay payer body =>
    exact ensures_bind.2 (Relay.ensures_respond.2 (ensures_postMultisigSign hx))
  | sdk payer secret data timestamp =>
    exact ensures_bind.2 (ensures_signMultiSig hx)

/-- It comes to an end, in which what it has asked is as it should be. -/
theorem exists_ends (hx : x.Submits sha256 P h t n proof)
    (hf : Follows (x.talk D coder base58 sha256 P t n) l d) :
    ∃ l' tx, Ends D h t n proof tx (l ++ l') ∧ asked l d <+: (l ++ l').map Sigma.fst := by
  obtain ⟨l', o, hdone, hprefix⟩ := hf.exists_complete
  have hends := (ensures_talk hx).of_follows hdone
  rw [List.nil_append] at hends
  exact ⟨l', _, hends, hprefix⟩

theorem countP_asked_le (hx : x.Submits sha256 P h t n proof)
    (hf : Follows (x.talk D coder base58 sha256 P t n) l d) : (asked l d).countP isSend ≤ 1 := by
  obtain ⟨l', tx, hends, hprefix⟩ := exists_ends hx hf
  refine hprefix.sublist.countP_le.trans ?_
  rw [List.countP_map]
  exact hends.countP_le

theorem signs (hx : x.Submits sha256 P h t n proof) {q : Rpc}
    {next : q.Reply → Dialogue Rpc Rpc.Reply Result}
    (hf : Follows (x.talk D coder base58 sha256 P t n) l (.ask q next)) : Signs D h t n q := by
  exact hf.asks ((ensures_talk hx).mono fun o l hends => hends.signs)

/-- What it has sent submits its proof. -/
theorem submittedProof_of_mem (hx : x.Submits sha256 P h t n proof)
    (hf : Follows (x.talk D coder base58 sha256 P t n) l d) {transaction : List Instruction}
    {reply : Except String Text} (hmem : ⟨.send transaction, reply⟩ ∈ l) :
    submittedProof (.send transaction) = some proof := by
  obtain ⟨l', tx, hends, -⟩ := exists_ends hx hf
  obtain ⟨⟨A, payer, rfl⟩, -⟩ := hends.of_mem (List.mem_append_left l' hmem)
  rfl

/-- A signature that is reported was confirmed. -/
theorem confirmed {o : Result} {sig : Text} (hx : x.Submits sha256 P h t n proof)
    (hf : Follows (x.talk D coder base58 sha256 P t n) l (.done o)) (ho : o.report = some sig) :
    ∃ transaction, ⟨.send transaction, .ok sig⟩ ∈ l
      ∧ submittedProof (.send transaction) = some proof := by
  have hends := (ensures_talk hx).of_follows hf
  rw [List.nil_append, ho] at hends
  exact hends.confirmed

end Signatory

section Pool

variable {ι : Type} {bytes : Account → List UInt8} {s s' : Store} {q : Quorum (Bytes 32)}
  {log : List (ι × Turn Rpc Rpc.Reply)} {i j : ι} {proof proof' : ProofArgs}

/-- The transaction that submits the proof was confirmed to the signatory. -/
def Confirmed (log : List (ι × Turn Rpc Rpc.Reply)) (i : ι) (proof : ProofArgs) : Prop :=
  ∃ transaction sig, (i, ⟨.send transaction, .ok sig⟩) ∈ log
    ∧ submittedProof (.send transaction) = some proof

/-- The store holds the quorum that has taken the accepted keys in the order they were sent, with
those that were confirmed, to one signatory each. -/
structure Progress (D : Pda) (groth16 : Groth16Verifier) (h : Bytes 32) (t n : UInt8)
    (q : Quorum (Bytes 32)) (s : Store) (log : List (ι × Turn Rpc Rpc.Reply)) : Prop where
  collecting : Collecting D groth16 h t n s (q.signAll (acceptedKeys groth16 h (submitted log)))
  counted : ∀ i proof, Confirmed log i proof → proof.keyCommitment ∉ q.keys
    ∧ proof.keyCommitment ∈ (q.signAll (acceptedKeys groth16 h (submitted log))).keys
  unique : ∀ i j proof proof', Confirmed log i proof → Confirmed log j proof' →
    proof.keyCommitment = proof'.keyCommitment → i = j

theorem submitted_append {rq : Rpc} {r : rq.Reply} :
    submitted (log ++ [(i, ⟨rq, r⟩)]) = submitted log ++ (submittedProof rq).toList := by
  rw [submitted, List.filterMap_append]
  cases hp : submittedProof rq <;> simp [hp, submitted]

theorem acceptedKeys_append {proofs : List ProofArgs} :
    acceptedKeys groth16 h (proofs ++ [proof]) = acceptedKeys groth16 h proofs
      ++ if verifyContractBoundProof groth16 h proof = .ok () then [proof.keyCommitment]
        else [] := by
  rw [acceptedKeys, List.filter_append, List.map_append]
  split_ifs with ha <;> simp [ha, acceptedKeys]

/-- One more key. -/
theorem signAll_acceptedKeys (proofs : List ProofArgs) (proof : ProofArgs) :
    q.signAll (acceptedKeys groth16 h (proofs ++ [proof]))
      = if verifyContractBoundProof groth16 h proof = .ok ()
        then ((q.signAll (acceptedKeys groth16 h proofs)).sign proof.keyCommitment).getD
          (q.signAll (acceptedKeys groth16 h proofs))
        else q.signAll (acceptedKeys groth16 h proofs) := by
  rw [acceptedKeys_append, Quorum.signAll_append]
  split_ifs <;> rfl

theorem confirmed_append {rq : Rpc} {r : rq.Reply}
    (hc : Confirmed (log ++ [(i, ⟨rq, r⟩)]) j proof) : Confirmed log j proof
      ∨ j = i ∧ ∃ transaction sig, (⟨rq, r⟩ : Turn Rpc Rpc.Reply) = ⟨.send transaction, .ok sig⟩
        ∧ submittedProof (.send transaction) = some proof := by
  obtain ⟨transaction, sig, hmem, hproof⟩ := hc
  rcases List.mem_append.1 hmem with hmem | hmem
  · exact .inl ⟨transaction, sig, hmem, hproof⟩
  · obtain ⟨rfl, heq⟩ := Prod.mk.inj (List.mem_singleton.1 hmem)
    exact .inr ⟨rfl, transaction, sig, heq.symm, hproof⟩

/-- A request that leaves the store and confirms nothing. -/
theorem Progress.idle {rq : Rpc} {r : rq.Reply} (hp : Progress D groth16 h t n q s log)
    (hrq : submittedProof rq = none) : Progress D groth16 h t n q s (log ++ [(i, ⟨rq, r⟩)]) := by
  have hold : ∀ j proof, Confirmed (log ++ [(i, ⟨rq, r⟩)]) j proof → Confirmed log j proof := by
    intro j proof hc
    rcases confirmed_append hc with hc | ⟨-, transaction, sig, heq, hproof⟩
    · exact hc
    · cases heq
      rw [hrq] at hproof
      cases hproof
  have hsub : submitted (log ++ [(i, ⟨rq, r⟩)]) = submitted log := by
    rw [submitted_append, hrq, Option.toList_none, List.append_nil]
  refine ⟨hsub ▸ hp.collecting, fun j proof hc => ?_, fun j k proof proof' hc hc' =>
    hp.unique j k proof proof' (hold j proof hc) (hold k proof' hc')⟩
  rw [hsub]
  exact hp.counted j proof (hold j proof hc)

/-- A transaction is one more key of the quorum, if it is taken. -/
theorem Progress.send {now : Int64} {payer : Pubkey} {reply : Except String Text}
    {A : SignAccounts D h t n proof.keyCommitment proof.signatureCommitment}
    (hp : Progress D groth16 h t n q s log)
    (hcommit : commit D groth16 s (A.transaction payer ⟨now, true⟩) = s')
    (hreply : ∀ sig, reply = .ok sig →
      Batch.exec (exec D groth16) s (A.transaction payer ⟨now, true⟩) = .ok s') :
    Progress D groth16 h t n q s'
      (log ++ [(i, ⟨.send (A.instructions payer), reply⟩)]) := by
  have hsub : submitted (log ++ [(i, ⟨.send (A.instructions payer), reply⟩)])
      = submitted log ++ [proof] := submitted_append
  let x : CoSigner D h t n := ⟨proof, A, payer, ⟨now, true⟩, rfl⟩
  have hsign := @signAll_acceptedKeys groth16 h q (submitted log) proof
  have hcollecting : Collecting D groth16 h t n s'
      (q.signAll (acceptedKeys groth16 h (submitted log ++ [proof]))) := by
    have hstep := hp.collecting.step x
    rw [show commit D groth16 s x.transaction = s' from hcommit] at hstep
    rw [hsign]
    simpa [x, CoSigner.accepted] using hstep
  have hgrows : ∀ k, k ∈ (q.signAll (acceptedKeys groth16 h (submitted log))).keys →
      k ∈ (q.signAll (acceptedKeys groth16 h (submitted log ++ [proof]))).keys := by
    intro k hk
    rw [acceptedKeys_append, Quorum.signAll_append]
    exact Quorum.mem_signAll_of_mem _ hk
  -- a key that is confirmed now was not taken before, and is now
  have hnow : ∀ transaction sig proof', (⟨.send (A.instructions payer), reply⟩ :
      Turn Rpc Rpc.Reply) = ⟨.send transaction, .ok sig⟩ →
      submittedProof (.send transaction) = some proof' → proof' = proof
        ∧ proof.keyCommitment ∉ (q.signAll (acceptedKeys groth16 h (submitted log))).keys
        ∧ proof.keyCommitment
          ∈ (q.signAll (acceptedKeys groth16 h (submitted log ++ [proof]))).keys := by
    intro transaction sig proof' heq hproof
    cases heq
    obtain ⟨_, _, _, g, -⟩ := (SignAccounts.exec_transaction_eq_ok (A := A)
      hp.collecting.reachable).1 (hreply sig rfl)
    obtain ⟨ha, q', hk⟩ := hp.collecting.sign x g
    obtain ⟨hnew, -, -, hkeys⟩ := Quorum.sign_eq_some.1 hk
    refine ⟨(Option.some.inj hproof).symm, hnew, ?_⟩
    rw [hsign, if_pos (of_decide_eq_true ha), hk, Option.getD_some, hkeys]
    exact Finset.mem_insert_self ..
  refine ⟨hsub ▸ hcollecting, fun j proof' hc => ?_, fun j k proof₁ proof₂ hc hc' heq => ?_⟩
  · rw [hsub]
    rcases confirmed_append hc with hc | ⟨-, transaction, sig, heq, hproof⟩
    · obtain ⟨hnew, hk⟩ := hp.counted j proof' hc
      exact ⟨hnew, hgrows _ hk⟩
    · obtain ⟨rfl, hnew, hk⟩ := hnow transaction sig proof' heq hproof
      exact ⟨fun hq => hnew (Quorum.mem_signAll_of_mem _ hq), hk⟩
  · rcases confirmed_append hc with hold | ⟨hj, transaction, sig, heq₁, hproof₁⟩ <;>
      rcases confirmed_append hc' with hold' | ⟨hk, transaction', sig', heq₂, hproof₂⟩
    · exact hp.unique j k proof₁ proof₂ hold hold' heq
    · obtain ⟨rfl, hnew, -⟩ := hnow transaction' sig' proof₂ heq₂ hproof₂
      exact absurd (heq ▸ (hp.counted j proof₁ hold).2) hnew
    · obtain ⟨rfl, hnew, -⟩ := hnow transaction sig proof₁ heq₁ hproof₁
      exact absurd (heq ▸ (hp.counted k proof₂ hold').2) hnew
    · exact hj.trans hk.symm

theorem Progress.serve {rq : Rpc} {r : rq.Reply} (hp : Progress D groth16 h t n q s log)
    (hrq : Signs D h t n rq) (hs : Serve D groth16 bytes s rq r s') :
    Progress D groth16 h t n q s' (log ++ [(i, ⟨rq, r⟩)]) := by
  cases hs with
  | sent hexec =>
    obtain ⟨proof, A, payer, rfl⟩ := hrq _ rfl
    exact hp.send (Batch.commit_of_ok hexec) fun _ _ => hexec
  | rejected hexec =>
    obtain ⟨proof, A, payer, rfl⟩ := hrq _ rfl
    exact hp.send (Batch.commit_of_error hexec) fun _ heq => (nomatch heq)
  | _ => exact hp.idle rfl

/-- The agreement counts the keys of the quorum. -/
theorem coSigned_iff (hq : Collecting D groth16 h t n s q) {k : Bytes 32} :
    CoSigned D s h t n k ↔ k ∈ q.keys := by
  obtain ⟨⟨m, b⟩, ms, hm, hms, hrep⟩ := hq.multisig
  rw [hrep.mem_keys]
  constructor
  · rintro ⟨m', b', mm, hm', a, b'', ha, hx⟩
    rw [hm, Option.some.injEq, Prod.mk.injEq] at hm'
    obtain ⟨rfl, rfl⟩ := hm'
    obtain ⟨mm', hmm, hmultisig, hkey⟩ := hq.reachable.sound.member_of_lookup ha hx
    cases hmm
    exact ⟨a, mm, hx, hmultisig, hkey⟩
  · rintro ⟨a, mm, hx, hmultisig, rfl⟩
    obtain ⟨⟨b', ha⟩, -⟩ := (hq.reachable.tallied m).member a mm hx hmultisig
    exact ⟨m, b, mm, hm, a, b', ha, hx⟩

theorem threshold_of_collecting (hq : Collecting D groth16 h t n s q) :
    q.threshold = t.toNat := by
  obtain ⟨⟨m, b⟩, ms, hm, hms, hrep⟩ := hq.multisig
  rw [hrep.threshold, (hq.reachable.sound.fits hm hms).1]

variable {coder : Coder} {base58 : Pubkey → Text} {sha256 : List UInt8 → Bytes 32} {P : Snarkjs}

/-- However the signatories are interleaved, and whichever answers are lost: each of them sends no
more than one transaction; a signature that is reported is counted, of a key that had not signed,
and of two signatories with one key no more than one reports it; the agreement has collected the
keys that it had and the distinct keys of the accepted proofs that were sent, up to its threshold,
and is final exactly when there are as many; and an accepted proof that was sent is counted,
whatever the answer, unless the agreement is final. -/
theorem signing_accounted [DecidableEq ι] (hq : Collecting D groth16 h t n s q)
    (signatories : ι → Signatory) (proofs : ι → ProofArgs)
    (hsubmits : ∀ i, (signatories i).Submits sha256 P h t n (proofs i))
    {p : Pool ι Rpc Rpc.Reply Signatory.Result Store}
    (hruns : Pool.Runs (Serve D groth16 bytes)
      (Pool.start s fun i => (signatories i).talk D coder base58 sha256 P t n) p) :
    (∀ i, (asked (Pool.turns p.log i) (p.talks i)).countP isSend ≤ 1)
    ∧ (∀ i o sig, p.talks i = .done o → o.report = some sig →
      (proofs i).keyCommitment ∉ q.keys ∧ CoSigned D p.world h t n (proofs i).keyCommitment)
    ∧ (∀ i j o o' sig sig', p.talks i = .done o → p.talks j = .done o' → o.report = some sig →
      o'.report = some sig' → (proofs i).keyCommitment = (proofs j).keyCommitment → i = j)
    ∧ ∃ ms, StoredAt D p.world (.multisig h t n) (.multisig ms)
      ∧ ms.signaturesCollected.toNat = min t.toNat
        (q.keys ∪ (acceptedKeys groth16 h (submitted p.log)).toFinset).card
      ∧ (ms.finalized = true ↔ t.toNat
        ≤ (q.keys ∪ (acceptedKeys groth16 h (submitted p.log)).toFinset).card)
      ∧ (∀ k, CoSigned D p.world h t n k →
        k ∈ q.keys ∨ k ∈ acceptedKeys groth16 h (submitted p.log))
      ∧ ∀ i transaction reply, (i, ⟨.send transaction, reply⟩) ∈ p.log →
        verifyContractBoundProof groth16 h (proofs i) = .ok () →
        CoSigned D p.world h t n (proofs i).keyCommitment ∨ ms.finalized = true := by
  have hfollows i := Pool.follows hruns i
  have hasks : ∀ i l rq next, Follows ((signatories i).talk D coder base58 sha256 P t n) l
      (.ask rq next) → Signs D h t n rq := fun i l rq next hf => Signatory.signs (hsubmits i) hf
  have hprogress : Progress D groth16 h t n q p.world p.log := by
    refine Pool.invariant (Progress D groth16 h t n q) ⟨hq, ?_, ?_⟩ hasks
      (fun s log i rq r s' hp hrq hs => hp.serve hrq hs) hruns
    · rintro i proof ⟨_, _, hmem, -⟩
      cases hmem
    · rintro i j proof proof' ⟨_, _, hmem, -⟩
      cases hmem
  have hconfirmed : ∀ i o sig, p.talks i = .done o → o.report = some sig →
      Confirmed p.log i (proofs i) := by
    intro i o sig hdone hreport
    obtain ⟨transaction, hmem, hproof⟩ :=
      Signatory.confirmed (hsubmits i) (hdone ▸ hfollows i) hreport
    exact ⟨transaction, sig, Pool.mem_turns.1 hmem, hproof⟩
  have hthreshold := threshold_of_collecting hq
  obtain ⟨ms, _, _, hms, -, hcollected, hfinal, -⟩ := hprogress.collecting.outcome
  refine ⟨fun i => Signatory.countP_asked_le (hsubmits i) (hfollows i),
    fun i o sig hdone hreport => ?_, fun i j o o' sig sig' hi hj hr hr' => ?_, ms, hms, ?_, ?_,
    fun k hk => ?_, fun i transaction reply hmem ha => ?_⟩
  · obtain ⟨hnew, hk⟩ := hprogress.counted i _ (hconfirmed i o sig hdone hreport)
    exact ⟨hnew, (coSigned_iff hprogress.collecting).2 hk⟩
  · exact hprogress.unique i j _ _ (hconfirmed i o sig hi hr) (hconfirmed j o' sig' hj hr')
  · rw [hcollected, Quorum.card_signAll, hthreshold]
  · rw [hfinal, Quorum.complete_signAll, hthreshold]
  · exact Quorum.mem_or_mem_of_mem_signAll _ ((coSigned_iff hprogress.collecting).1 hk)
  · rw [coSigned_iff hprogress.collecting, hfinal]
    refine Quorum.mem_signAll_or_complete (List.mem_map.2 ⟨proofs i, ?_, rfl⟩)
    refine List.mem_filter.2 ⟨List.mem_filterMap.2 ⟨_, hmem, ?_⟩, decide_eq_true ha⟩
    exact Signatory.submittedProof_of_mem (hsubmits i) (hfollows i) (Pool.mem_turns.2 hmem)

end Pool

section Sample

/-- The second key signs by the relay, and the first by the SDK. -/
def sampleInstructions (relay : Bool) : List Instruction :=
  match sampleCoSigners with
  | second :: first :: _ => (if relay then second else first).accounts.instructions samplePayer
  | _ => []

def sampleSignatory : Bool → Signatory
  | true => .relay samplePayer
      (some (MultisigPage.requestBody sampleHash.toList 2 3 (sampleProof 2)))
  | false => .sdk samplePayer Sdk.sampleSecret (.bytes []) []

/-- Both transactions take effect, and only the relay is told. -/
def sampleSigningLog : List (Bool × Turn Rpc Rpc.Reply) :=
  (sampleInstructions true).map (fun ix => (true, ⟨.build ix, .ok ()⟩))
    ++ (sampleInstructions false).map (fun ix => (false, ⟨.build ix, .ok ()⟩))
    ++ [(false, ⟨.send (sampleInstructions false), .error "timeout"⟩),
      (true, ⟨.send (sampleInstructions true), .ok sampleSignature⟩),
      (true, ⟨.fetchMultisig sampleMultisig, .error "timeout"⟩)]

theorem serves_sampleSigningLog : ∃ s', Pool.Serves
    (Serve samplePda sampleVerifier Account.bytes) (run samplePda sampleVerifier ∅ sampleSetup)
    (sampleSigningLog.map Prod.snd) s' := by
  obtain ⟨s₁, h₁⟩ : ∃ s₁, Batch.exec (exec samplePda sampleVerifier)
      (run samplePda sampleVerifier ∅ sampleSetup)
      ((sampleInstructions false).map (⟨sampleRuntime, ·⟩)) = .ok s₁ :=
    ⟨_, Batch.exec_eq_commit (by decide +kernel)⟩
  obtain ⟨s₂, h₂⟩ : ∃ s₂, Batch.exec (exec samplePda sampleVerifier)
      (Batch.commit (exec samplePda sampleVerifier) (run samplePda sampleVerifier ∅ sampleSetup)
        ((sampleInstructions false).map (⟨sampleRuntime, ·⟩)))
      ((sampleInstructions true).map (⟨sampleRuntime, ·⟩)) = .ok s₂ :=
    ⟨_, Batch.exec_eq_commit (by decide +kernel)⟩
  rw [Batch.commit_of_ok h₁] at h₂
  exact ⟨s₂, .cons .built (.cons .built (.cons .built (.cons .built (.cons (.sent h₁)
    (.cons (.sent h₂) (.cons .unfetched (.nil _)))))))⟩

/-- One of the two signatures is reported, and the agreement is final. -/
theorem signing_accounted_sample :
    ∃ (p : Pool Bool Rpc Rpc.Reply Signatory.Result Store) (ms : MultiSigContract),
      (∃ o, p.talks true = .done o ∧ o.report = some sampleSignature)
      ∧ (∃ o, p.talks false = .done o ∧ o.report = none)
      ∧ StoredAt samplePda p.world (.multisig sampleHash 2 3) (.multisig ms)
      ∧ ms.signaturesCollected.toNat = 2 ∧ ms.finalized = true := by
  have hplay : ∀ i, ((play ((sampleSignatory i).talk samplePda idlCoder toBase58 sampleHashes
      Sdk.sampleProver 2 3) (Pool.turns sampleSigningLog i)).map Signatory.Result.report)
        = some (if i then some sampleSignature else none) := by
    have hrelay : (play ((sampleSignatory true).talk samplePda idlCoder toBase58 sampleHashes
        Sdk.sampleProver 2 3) (Pool.turns sampleSigningLog true)).map Signatory.Result.report
          = some (some sampleSignature) := by decide +kernel
    have hsdk : (play ((sampleSignatory false).talk samplePda idlCoder toBase58 sampleHashes
        Sdk.sampleProver 2 3) (Pool.turns sampleSigningLog false)).map Signatory.Result.report
          = some none := by decide +kernel
    exact fun i => by cases i <;> [exact hsdk; exact hrelay]
  have hdone : ∀ i, ∃ o, play ((sampleSignatory i).talk samplePda idlCoder toBase58 sampleHashes
      Sdk.sampleProver 2 3) (Pool.turns sampleSigningLog i) = some o
        ∧ o.report = if i then some sampleSignature else none := fun i =>
    Option.map_eq_some_iff.1 (hplay i)
  choose o ho hreport using hdone
  obtain ⟨s', hserves⟩ := serves_sampleSigningLog
  have hruns := Pool.runs_of_follows sampleSigningLog
    (p := Pool.start (run samplePda sampleVerifier ∅ sampleSetup) fun i =>
      (sampleSignatory i).talk samplePda idlCoder toBase58 sampleHashes Sdk.sampleProver 2 3)
    hserves fun i => follows_of_play (ho i)
  have hsubmits : ∀ i, (sampleSignatory i).Submits sampleHashes Sdk.sampleProver sampleHash 2 3
      (sampleProof (if i then 2 else 1)) := by
    have hrelay : Relay.multisigSignRequest
        (some (MultisigPage.requestBody sampleHash.toList 2 3 (sampleProof 2)))
          = .ok (((2 : UInt8).toNat, (3 : UInt8).toNat), sampleHash, sampleProof 2) := by
      decide +kernel
    have hsdk : Sdk.generateDataProof sampleHashes Sdk.sampleProver Sdk.sampleSecret (.bytes []) []
        = .ok (sampleHash, sampleProof 1) := by decide +kernel
    intro i
    cases i
    · exact hsdk
    · exact hrelay
  have hr : StoredAt samplePda (run samplePda sampleVerifier ∅ sampleSetup) .registry
      (.registry ⟨samplePayer, 1, 0, 250⟩) :=
    ⟨sampleRegistry, 250, by decide +kernel, by decide +kernel⟩
  have hc : StoredAt samplePda (run samplePda sampleVerifier ∅ sampleSetup) (.contract sampleHash)
      (.contract ⟨sampleHash, 1700000000, 0, true, 255⟩) :=
    ⟨sampleContract, 255, by decide +kernel, by decide +kernel⟩
  have hm : StoredAt samplePda (run samplePda sampleVerifier ∅ sampleSetup)
      (.multisig sampleHash 2 3) (.multisig ⟨sampleContract, 2, 0, 3, false, 0, 254⟩) :=
    ⟨sampleMultisig, 254, by decide +kernel, by decide +kernel⟩
  obtain ⟨q, hempty, -, hq⟩ :=
    Collecting.fresh ⟨sampleSetup, rfl⟩ hr (by decide) hc rfl hm rfl rfl
  obtain ⟨-, -, -, ms, hms, hcollected, hfinal, -⟩ :=
    signing_accounted hq sampleSignatory _ hsubmits hruns
  have hkeys : (acceptedKeys sampleVerifier sampleHash
      (submitted ([] ++ sampleSigningLog))).toFinset.card = 2 := by decide +kernel
  have hcard := Finset.empty_union (acceptedKeys sampleVerifier sampleHash
    (submitted ([] ++ sampleSigningLog))).toFinset ▸ hkeys
  rw [hempty] at hcollected hfinal
  exact ⟨_, ms, ⟨o true, rfl, hreport true⟩, ⟨o false, rfl, hreport false⟩, hms,
    hcollected.trans (congrArg (min 2) hcard), hfinal.2 hcard.ge⟩

end Sample

end Signing

end Oblivia

import Oblivia.Chain.Agreements
import Oblivia.Chain.Receipts
import Oblivia.Client.AccountLayout
/-!
# The network

How the requests of the clients are answered: a read by the account that is there now, if by
anything, and a transaction takes effect exactly when the program accepts it, which its answer may
fail to say. Whatever the network does, it runs the program (`Serve.later`).
-/

namespace Oblivia

variable (D : Pda) (groth16 : Groth16Verifier) (bytes : Account → List UInt8)

/-- What an address without an account of the program shows: nothing, or the lamports that have
been sent there. -/
def Uninitialized : Option AccountInfo → Prop
  | none => True
  | some info => info = ⟨false, some [], some systemProgramId⟩

/-- What the network shows of an address. -/
def Shows (s : Store) (a : Pubkey) (info : Option AccountInfo) : Prop :=
  match s.lookup a with
  | some x => info = some (accountInfo (bytes x))
  | none => Uninitialized info

/-- An answer of the network, and the store after it. The payers hold the rent. -/
inductive Serve (s : Store) : (q : Rpc) → q.Reply → Store → Prop
  | read {a : Pubkey} {info : Option AccountInfo} :
      Shows bytes s a info → Serve s (.getAccountInfo a) (.ok info) s
  | unread {a : Pubkey} {m : String} : Serve s (.getAccountInfo a) (.error m) s
  /-- The transaction took effect, whether or not that is confirmed. -/
  | sent {transaction : List Instruction} {now : Int64} {reply : Except String Text} {s' : Store} :
      Batch.exec (exec D groth16) s (transaction.map (⟨⟨now, true⟩, ·⟩)) = .ok s' →
      Serve s (.send transaction) reply s'
  | rejected {transaction : List Instruction} {now : Int64} {e : ErrorCode} {m : String} :
      Batch.exec (exec D groth16) s (transaction.map (⟨⟨now, true⟩, ·⟩)) = .error e →
      Serve s (.send transaction) (.error m) s
  | built {ix : Instruction} {reply : Except String Unit} : Serve s (.build ix) reply s
  | fetched {a : Pubkey} {ms : MultiSigContract} :
      s.lookup a = some (.multisig ms) → Serve s (.fetchMultisig a) (.ok ms) s
  | unfetched {a : Pubkey} {m : String} : Serve s (.fetchMultisig a) (.error m) s

/-- The program has been run from `s` to `s'`. -/
def Later (s s' : Store) : Prop := ∃ js, Path D groth16 s js s'

section Later

variable {D groth16} {bytes} {s s' s'' : Store} {q : Rpc} {r : q.Reply}

theorem Later.refl (s : Store) : Later D groth16 s s := ⟨[], .nil⟩

theorem Later.trans (h : Later D groth16 s s') (h' : Later D groth16 s' s'') :
    Later D groth16 s s'' := by
  obtain ⟨js, hp⟩ := h
  obtain ⟨js', hp'⟩ := h'
  exact ⟨_, Batch.Path.trans hp hp'⟩

theorem Later.extends (h : Later D groth16 s s') : Extends s s' := by
  obtain ⟨js, hp⟩ := h
  exact Path.extends hp

theorem Later.reachable (h : Later D groth16 s s') (hs : Reachable D groth16 s) :
    Reachable D groth16 s' := by
  obtain ⟨js, hp⟩ := reachable_iff.1 hs
  obtain ⟨js', hp'⟩ := h
  exact reachable_iff.2 ⟨_, Batch.Path.trans hp hp'⟩

theorem Later.of_exec {b : List Call} (h : Batch.exec (exec D groth16) s b = .ok s') :
    Later D groth16 s s' :=
  ⟨_, Batch.path_exec b .nil h⟩

theorem Serve.later (h : Serve D groth16 bytes s q r s') : Later D groth16 s s' := by
  cases h with
  | sent hexec => exact .of_exec hexec
  | _ => exact .refl s

end Later

section Reads

variable {bytes} {s : Store} {a : Pubkey} {info : Option AccountInfo} {coder : Coder}

/-- An address without an account, to which no lamports have been sent. -/
theorem Shows.nothing (h : s.lookup a = none) : Shows bytes s a none := by
  rw [Shows, h]
  exact trivial

theorem Shows.account {x : Account} (h : s.lookup a = some x) :
    Shows bytes s a (some (accountInfo (bytes x))) := by
  rw [Shows, h]

theorem initializedAccount_uninitialized {α : Type} {coder : AccountCoder α}
    (h : Uninitialized info) : initializedAccount coder info = .ok none := by
  cases info with
  | none => rfl
  | some info =>
    obtain rfl : info = _ := h
    rfl

/-- What the coder makes of a read, at an address that holds accounts of its type only. -/
theorem Shows.initialized {α : Type} {coder : AccountCoder α} {view : Account → Option α}
    (hcoder : ∀ x y, view x = some y →
      (bytes x).length = coder.size ∧ coder.decode (bytes x) = some y)
    (h : Shows bytes s a info) (hs : ∀ x, s.lookup a = some x → (view x).isSome) :
    initializedAccount coder info = .ok ((s.lookup a).bind view) := by
  unfold Shows at h
  rcases hx : s.lookup a with _ | x <;> rw [hx] at h
  · exact initializedAccount_uninitialized h
  · obtain ⟨y, hy⟩ := Option.isSome_iff_exists.1 (hs x hx)
    obtain ⟨hsize, hdecode⟩ := hcoder x y hy
    obtain rfl : info = _ := h
    rw [initializedAccount_accountInfo hsize hdecode, Option.bind_some, hy]

theorem Shows.contract (henc : coder.Encodes bytes) (h : Shows bytes s a info)
    (hs : ∀ x, s.lookup a = some x → x.asContract.isSome) :
    initializedAccount coder.contract info = .ok ((s.lookup a).bind Account.asContract) := by
  refine h.initialized (fun x c hx => ?_) hs
  rw [Account.asContract_eq_some.1 hx]
  exact ⟨henc.contract_size c, henc.contract c⟩

theorem Shows.multisig (henc : coder.Encodes bytes) (h : Shows bytes s a info)
    (hs : ∀ x, s.lookup a = some x → x.asMultisig.isSome) :
    initializedAccount coder.multisig info = .ok ((s.lookup a).bind Account.asMultisig) := by
  refine h.initialized (fun x ms hx => ?_) hs
  rw [Account.asMultisig_eq_some.1 hx]
  exact ⟨henc.multisig_size ms, henc.multisig ms⟩

variable {D : Pda} {groth16 : Groth16Verifier} {h : Bytes 32} {t n : UInt8} {c m : Pubkey}
  {b b' : UInt8}

/-- The reader of contracts accepts the contract that is there, and only fails to see one where
there is none. -/
theorem Shows.readContractAccount (henc : coder.Encodes bytes) (hs : Reachable D groth16 s)
    (hc : D.findProgramAddress (.contract h) = some (c, b)) (hshow : Shows bytes s c info) :
    readContractAccount coder info h = .ok ((s.lookup c).bind Account.asContract) := by
  have hfits := fun x => hs.sound.fits (x := x) hc
  have hread := hshow.contract henc fun x hx => by
    have := hfits x hx
    cases x <;> first | rfl | exact this.elim
  rcases hx : s.lookup c with _ | x <;> rw [hx] at hread
  · exact readContractAccount_none hread
  · have hh := hfits x hx
    cases x with
    | contract x =>
      obtain rfl : x.contractHash = h := hh
      exact readContractAccount_some hread
    | _ => exact hh.elim

/-- The agreement at the address of a hash is on the contract of that hash. -/
theorem Sound.multisig_contract {ms : MultiSigContract} (hs : Sound D s)
    (hc : D.findProgramAddress (.contract h) = some (c, b))
    (hm : D.findProgramAddress (.multisig h t n) = some (m, b'))
    (hx : s.lookup m = some (.multisig ms)) : ms.contract = c := by
  cases hs.placed m _ hx with
  | @multisig _ c' hcon hadr =>
    have hd := Pda.find_inj hadr hm
    rw [Derivation.multisig.injEq] at hd
    cases hs.placed _ _ hcon with
    | contract hcadr _ _ =>
      rw [hd.1, hc, Option.some.injEq, Prod.mk.injEq] at hcadr
      exact hcadr.1.symm

/-- The reader of agreements accepts the agreement that is there. -/
theorem Shows.readMultisigAccount (henc : coder.Encodes bytes) (hs : Reachable D groth16 s)
    (hc : D.findProgramAddress (.contract h) = some (c, b))
    (hm : D.findProgramAddress (.multisig h t n) = some (m, b'))
    (hshow : Shows bytes s m info) :
    readMultisigAccount coder info c = .ok ((s.lookup m).bind Account.asMultisig) := by
  have hfits := fun x => hs.sound.fits (x := x) hm
  have hread := hshow.multisig henc fun x hx => by
    have := hfits x hx
    cases x <;> first | rfl | exact this.elim
  rcases hx : s.lookup m with _ | x <;> rw [hx] at hread
  · exact readMultisigAccount_none hread
  · have hh := hfits x hx
    cases x with
    | multisig ms =>
      obtain ⟨q, hq⟩ := (hs.tallied m).agreement ms hx
      obtain rfl : ms.contract = c := hs.sound.multisig_contract hc hm hx
      exact readMultisigAccount_some hread ⟨UInt8.lt_iff_toNat_lt.2
        (UInt8.le_iff_toNat_le.1 hq.positive), hq.capacity⟩
        (UInt8.le_trans hq.collected_le hq.capacity)
    | _ => exact hh.elim

end Reads

end Oblivia

import Oblivia.Client.SignerKey
import Oblivia.Lib.Base64
/-!
# The IDs of passkeys

A passkey is known by its credential ID, bytes that are kept as a text in base64url and turned back
into bytes to ask for the same passkey again.
-/

namespace Oblivia

namespace Passkey

def replaceChar (a b c : Char) : Char := if c = a then b else c

/-- `replace` with a pattern that is a character, wherever it stands. -/
def replaceAll (a b : Char) (t : Text) : Text := t.map (replaceChar a b)

def toBase64Url (bytes : List UInt8) : Except String Text := do
  let base64 ← Base64.btoa (Base64.binary bytes)
  return (replaceAll '/' '_' (replaceAll '+' '-' base64)).rdropWhile (· = '=')

def fromBase64Url (value : Text) : Except String (List UInt8) := do
  let base64 := replaceAll '_' '/' (replaceAll '-' '+' value)
  let binary ← Base64.atob (base64 ++ List.replicate ((4 - base64.length % 4) % 4) '=')
  return binary.map fun c => UInt8.ofNat c.toNat

/-- The characters of base64url, none of them padding. -/
def IsBase64Url (c : Char) : Prop :=
  ('A' ≤ c ∧ c ≤ 'Z') ∨ ('a' ≤ c ∧ c ≤ 'z') ∨ ('0' ≤ c ∧ c ≤ '9') ∨ c = '-' ∨ c = '_'

instance : DecidablePred IsBase64Url := fun c => by unfold IsBase64Url; infer_instance

/-- A digit with the two substitutions. -/
def urlDigit (n : ℕ) : Char := replaceChar '/' '_' (replaceChar '+' '-' (Base64.digit n))

theorem urlDigit_spec : ∀ n < 64, IsBase64Url (urlDigit n) ∧ urlDigit n ≠ '=' := by
  decide +kernel

/-- The substitutions are taken back. -/
theorem digit_of_urlDigit : ∀ n < 64,
    replaceChar '_' '/' (replaceChar '-' '+' (urlDigit n)) = Base64.digit n := by
  decide +kernel

theorem rdropWhile_padding {cs : List Char} (h : ∀ c ∈ cs, c ≠ '=') :
    ∀ n, (cs ++ List.replicate n '=').rdropWhile (· = '=') = cs
  | 0 => by
    rw [List.replicate_zero, List.append_nil, List.rdropWhile_eq_self_iff]
    exact fun hne => by simpa using h _ (List.getLast_mem hne)
  | n + 1 => by
    rw [List.replicate_succ', ← List.append_assoc, List.rdropWhile_concat_pos _ _ _ (by simp),
      rdropWhile_padding h n]

theorem replaceAll_digits (ds : List ℕ) :
    replaceAll '/' '_' (replaceAll '+' '-' (ds.map Base64.digit)) = ds.map urlDigit := by
  unfold replaceAll
  rw [List.map_map, List.map_map]
  rfl

theorem replaceAll_urlDigits {ds : List ℕ} (hds : ∀ n ∈ ds, n < 64) :
    replaceAll '_' '/' (replaceAll '-' '+' (ds.map urlDigit)) = ds.map Base64.digit := by
  unfold replaceAll
  rw [List.map_map, List.map_map]
  refine List.map_congr_left fun n hn => ?_
  rw [Function.comp_apply, Function.comp_apply]
  exact digit_of_urlDigit n (hds n hn)

theorem toBase64Url_eq (bytes : List UInt8) :
    toBase64Url bytes = .ok ((Base64.sextets bytes).map urlDigit) := by
  have hne : ∀ c ∈ (Base64.sextets bytes).map urlDigit, c ≠ '=' := by
    intro c hc
    obtain ⟨n, hn, rfl⟩ := List.mem_map.1 hc
    exact (urlDigit_spec n (Base64.sextets_lt bytes n hn)).2
  have hpadding (k : ℕ) : replaceAll '/' '_' (replaceAll '+' '-'
      ((Base64.sextets bytes).map Base64.digit ++ List.replicate k '='))
      = (Base64.sextets bytes).map urlDigit ++ List.replicate k '=' := by
    rw [← replaceAll_digits]
    simp [replaceAll, replaceChar]
  unfold toBase64Url
  rw [Base64.btoa_binary, Base64.encode_eq, Batch.ok_bind, hpadding, rdropWhile_padding hne]
  rfl

theorem fromBase64Url_digits {ds : List ℕ} (hds : ∀ n ∈ ds, n < 64) (hlength : ds.length % 4 ≠ 1) :
    fromBase64Url (ds.map urlDigit) = .ok (Base64.octets ds) := by
  have hatob : Base64.atob (ds.map Base64.digit
      ++ List.replicate ((4 - (ds.map Base64.digit).length % 4) % 4) '=')
      = .ok (Base64.binary (Base64.octets ds)) := by
    rw [Base64.atob, List.length_map, Base64.decode_padded hds hlength]
  unfold fromBase64Url
  rw [replaceAll_urlDigits hds]
  dsimp only
  rw [hatob, Batch.ok_bind, Base64.map_binary]
  rfl

theorem fromBase64Url_toBase64Url (bytes : List UInt8) :
    fromBase64Url ((Base64.sextets bytes).map urlDigit) = .ok bytes := by
  rw [fromBase64Url_digits (Base64.sextets_lt bytes) (Base64.length_sextets_mod bytes).1,
    Base64.octets_sextets]

/-- Every credential ID has a text in base64url, without padding, and is what this text is read
as; so different IDs have different texts. -/
theorem base64Url_roundTrip :
    (∀ bytes, ∃ text, toBase64Url bytes = .ok text ∧ (∀ c ∈ text, IsBase64Url c)
      ∧ fromBase64Url text = .ok bytes)
    ∧ Function.Injective toBase64Url := by
  refine ⟨fun bytes => ⟨_, toBase64Url_eq bytes, fun c hc => ?_, fromBase64Url_toBase64Url bytes⟩,
    fun b b' h => ?_⟩
  · obtain ⟨n, hn, rfl⟩ := List.mem_map.1 hc
    exact (urlDigit_spec n (Base64.sextets_lt bytes n hn)).1
  · have htext := Except.ok.inj ((toBase64Url_eq b).symm.trans (h.trans (toBase64Url_eq b')))
    have hbytes := fromBase64Url_toBase64Url b
    rw [htext, fromBase64Url_toBase64Url] at hbytes
    exact (Except.ok.inj hbytes).symm

/-- The padding of all three lengths, and both substitutions. -/
example : toBase64Url [251, 255, 1] = .ok "-_8B".toList ∧ toBase64Url [251] = .ok "-w".toList
    ∧ toBase64Url [251, 255] = .ok "-_8".toList := by
  decide +kernel

end Passkey

end Oblivia

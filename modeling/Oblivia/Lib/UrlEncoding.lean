import Mathlib.Data.List.TakeWhile
import Oblivia.Lib.Numerals
import Oblivia.Lib.Utf8
/-!
# Texts in the query of a URL

The percent-encoding of texts and the reading of a query as form data, a list of names and values.
A text comes back from a query of which it is a value, whichever characters its encoder keeps as
long as they are not the ones that a reader treats in a special way.
-/

namespace UrlEncoding

open Numeral

/-- `%XX`. -/
def percentByte (b : UInt8) : List Char :=
  ['%', (Nat.digitChar (b.toNat / 16)).toUpper, (Nat.digitChar (b.toNat % 16)).toUpper]

/-- A character as it is, or the bytes of its UTF-8. -/
def percentEncode (keep : Char → Bool) (c : Char) : List Char :=
  if keep c then [c] else (String.utf8EncodeChar c).flatMap percentByte

/-- What `encodeURIComponent` keeps. -/
def isUnreserved (c : Char) : Bool := c.isAlphanum || "-_.!~*'()".toList.contains c

/-- What a URL parser keeps in a query: all but the special-query percent-encode set. -/
def isQueryChar (c : Char) : Bool :=
  0x20 < c.toNat && c.toNat < 0x7F && !"\"#<>'".toList.contains c

def percentDecode : List UInt8 → List UInt8
  | x :: a :: b :: l =>
    let hi := digitVal (Char.ofNat a.toNat)
    let lo := digitVal (Char.ofNat b.toNat)
    if x = 0x25 ∧ hi < 16 ∧ lo < 16 then UInt8.ofNat (16 * hi + lo) :: percentDecode l
    else x :: percentDecode (a :: b :: l)
  | l => l

/-- A plus sign is a space. -/
def spaceOf (b : UInt8) : UInt8 := if b = 0x2B then 0x20 else b

def formBytes (l : List UInt8) : List UInt8 := percentDecode (l.map spaceOf)

/-- A name or a value. -/
def formText (l : List UInt8) : List Char := Utf8.decode (formBytes l)

/-- `name=value`; without an equals sign the value is empty. -/
def formPair (l : List UInt8) : List Char × List Char :=
  (formText (l.takeWhile (· ≠ 0x3D)), formText ((l.dropWhile (· ≠ 0x3D)).tail))

/-- `new URLSearchParams(query)`, of a query with its question mark or without. -/
def searchParams (query : List Char) : List (List Char × List Char) :=
  let input := if query.head? = some '?' then query.tail else query
  (((input.flatMap String.utf8EncodeChar).splitOn 0x26).filter (· ≠ [])).map formPair

/-- The query of a URL, with its question mark, or nothing: `location.search`. -/
def search (url : List Char) : List Char :=
  match (url.takeWhile (· ≠ '#')).dropWhile (· ≠ '?') with
  | '?' :: c :: l => '?' :: (c :: l).flatMap (percentEncode isQueryChar)
  | _ => []

/-- What a reader of a query takes for what separates its parts. -/
def isSeparator (c : Char) : Bool := "+&=#".toList.contains c

/-- The texts of an encoder that keeps these characters. -/
def encode (keep : Char → Bool) (cs : List Char) : List Char := cs.flatMap (percentEncode keep)

/-- The query of names and values. -/
def join (keep : Char → Bool) (pairs : List (List Char × List Char)) : List Char :=
  ['&'].intercalate (pairs.map fun p => encode keep p.1 ++ '=' :: encode keep p.2)

section Decode

/-- An encoder keeps characters of one byte, none of which are special to a reader. -/
def KeepsPlain (keep : Char → Bool) : Prop :=
  ∀ c, keep c = true → c.toNat < 0x80 ∧ isSeparator c = false ∧ c ≠ '%'

theorem keepsPlain_isUnreserved : KeepsPlain isUnreserved := by
  have hascii : ∀ n < 0x80, isUnreserved (Char.ofNat n) = true →
      isSeparator (Char.ofNat n) = false ∧ Char.ofNat n ≠ '%' := by decide
  intro c hc
  have hlt : c.toNat < 0x80 := by
    by_contra hge
    have hval : c.toNat = c.val.toNat := rfl
    have hmarks : "-_.!~*'()".toList.contains c = false := by
      refine Bool.eq_false_iff.2 fun hmem => ?_
      have hall : "-_.!~*'()".toList.all (fun d => d.toNat < 0x80) = true := by decide
      exact hge (by simpa using List.all_eq_true.1 hall c (by simpa using hmem))
    have hclasses : c.isAlphanum = (decide (65 ≤ c.val ∧ c.val ≤ 90)
        || (97 ≤ c.val && c.val ≤ 122) || (48 ≤ c.val && c.val ≤ 57)) := rfl
    simp only [isUnreserved, hmarks, Bool.or_false, hclasses, Bool.or_eq_true, Bool.and_eq_true,
      decide_eq_true_eq, UInt32.le_iff_toNat_le] at hc
    simp only [UInt32.reduceToNat] at hc
    omega
  have hchar := hascii c.toNat hlt
  rw [Char.ofNat_toNat] at hchar
  exact ⟨hlt, hchar hc⟩

theorem utf8EncodeChar_ascii {c : Char} (h : c.toNat < 0x80) :
    String.utf8EncodeChar c = [UInt8.ofNat c.toNat] := by
  have hc : c.val.toNat = c.toNat := rfl
  unfold String.utf8EncodeChar
  simp only [hc]
  rw [if_pos (by omega)]

theorem toNat_byte {c : Char} (h : c.toNat < 0x80) : (UInt8.ofNat c.toNat).toNat = c.toNat :=
  Utf8.toNat_ofNat (by omega)

theorem ofNat_byte {c d : Char} (hc : c.toNat < 0x80) (hd : d.toNat < 0x80) (h : c ≠ d) :
    UInt8.ofNat c.toNat ≠ UInt8.ofNat d.toNat := by
  intro heq
  have htoNat := congrArg UInt8.toNat heq
  rw [toNat_byte hc, toNat_byte hd] at htoNat
  exact h (Char.ext (UInt32.toNat_inj.1 htoNat))

theorem percentDecode_cons {x : UInt8} (hx : x ≠ 0x25) :
    ∀ l, percentDecode (x :: l) = x :: percentDecode l
  | [] => rfl
  | [_] => rfl
  | a :: b :: l => by simp [percentDecode, hx]

theorem spaceOf_byte {c : Char} (hc : c.toNat < 0x80) (hsep : isSeparator c = false) :
    spaceOf (UInt8.ofNat c.toNat) = UInt8.ofNat c.toNat := by
  refine if_neg (ofNat_byte (d := '+') hc (by decide) ?_)
  rintro rfl
  exact absurd hsep (by decide)

/-- A character that was kept is read as itself. -/
theorem formBytes_plain {c : Char} (hc : c.toNat < 0x80) (hsep : isSeparator c = false)
    (hpercent : c ≠ '%') (l : List UInt8) :
    formBytes (String.utf8EncodeChar c ++ l) = String.utf8EncodeChar c ++ formBytes l := by
  rw [utf8EncodeChar_ascii hc]
  simp only [formBytes, List.singleton_append, List.map_cons, spaceOf_byte hc hsep]
  exact percentDecode_cons (ofNat_byte (d := '%') hc (by decide) hpercent) _

theorem upper_digit : ∀ d < 16, let c := (Nat.digitChar d).toUpper
    digitVal c = d ∧ c.toNat < 0x80 ∧ isSeparator c = false ∧ isQueryChar c = true := by
  decide

/-- `%XX` is read as the byte. -/
theorem formBytes_percentByte (b : UInt8) (l : List UInt8) :
    formBytes ((percentByte b).flatMap String.utf8EncodeChar ++ l) = b :: formBytes l := by
  have hb := b.toNat_lt
  obtain ⟨hhi, hhi', hhi'', -⟩ := upper_digit (b.toNat / 16) (by omega)
  obtain ⟨hlo, hlo', hlo'', -⟩ := upper_digit (b.toNat % 16) (by omega)
  have hpercent : String.utf8EncodeChar '%' = [0x25] := by decide
  have hsum : 16 * (b.toNat / 16) + b.toNat % 16 = b.toNat := by omega
  have hspace : spaceOf 0x25 = 0x25 := by decide
  simp only [percentByte, List.flatMap_cons, List.flatMap_nil, utf8EncodeChar_ascii hhi',
    utf8EncodeChar_ascii hlo', hpercent, List.append_nil, List.cons_append, List.nil_append,
    formBytes, List.map_cons, spaceOf_byte hhi' hhi'', spaceOf_byte hlo' hlo'', hspace]
  rw [percentDecode]
  simp only [toNat_byte hhi', toNat_byte hlo', Char.ofNat_toNat]
  rw [hhi, hlo, hsum, if_pos ⟨trivial, by omega, by omega⟩, UInt8.ofNat_toNat]

variable {keep : Char → Bool} (hkeep : KeepsPlain keep)
include hkeep

theorem formBytes_percentEncode (c : Char) (l : List UInt8) :
    formBytes ((percentEncode keep c).flatMap String.utf8EncodeChar ++ l)
      = String.utf8EncodeChar c ++ formBytes l := by
  have hbytes (bs : List UInt8) : formBytes
      ((bs.flatMap percentByte).flatMap String.utf8EncodeChar ++ l) = bs ++ formBytes l := by
    induction bs with
    | nil => rfl
    | cons b bs ih =>
      rw [List.flatMap_cons, List.flatMap_append, List.append_assoc, formBytes_percentByte, ih,
        List.cons_append]
  unfold percentEncode
  split_ifs with hc
  · obtain ⟨hlt, hsep, hpercent⟩ := hkeep c hc
    rw [List.flatMap_singleton, formBytes_plain hlt hsep hpercent]
  · exact hbytes _

theorem formText_encode (cs : List Char) :
    formText ((encode keep cs).flatMap String.utf8EncodeChar) = cs := by
  have hbytes : formBytes ((encode keep cs).flatMap String.utf8EncodeChar)
      = cs.flatMap String.utf8EncodeChar := by
    induction cs with
    | nil => rfl
    | cons c cs ih =>
      have h := formBytes_percentEncode hkeep c ((encode keep cs).flatMap String.utf8EncodeChar)
      rw [ih] at h
      rw [encode, List.flatMap_cons, List.flatMap_append, List.flatMap_cons]
      exact h
  rw [formText, hbytes, Utf8.decode_encode]

theorem not_isSeparator_encode {cs : List Char} {c : Char} (hc : c ∈ encode keep cs) :
    c.toNat < 0x80 ∧ isSeparator c = false := by
  obtain ⟨d, -, hc⟩ := List.mem_flatMap.1 hc
  unfold percentEncode at hc
  split_ifs at hc with hd
  · rw [List.mem_singleton.1 hc]
    exact ⟨(hkeep d hd).1, (hkeep d hd).2.1⟩
  · obtain ⟨b, -, hc⟩ := List.mem_flatMap.1 hc
    have hb := b.toNat_lt
    simp only [percentByte, List.mem_cons, List.not_mem_nil, or_false] at hc
    rcases hc with rfl | rfl | rfl
    · decide
    · obtain ⟨-, hlt, hsep, -⟩ := upper_digit (b.toNat / 16) (by omega)
      exact ⟨hlt, hsep⟩
    · obtain ⟨-, hlt, hsep, -⟩ := upper_digit (b.toNat % 16) (by omega)
      exact ⟨hlt, hsep⟩

end Decode

section Query

theorem flatMap_intercalate {α β : Type} (f : α → List β) (sep : List α) :
    ∀ ls : List (List α), (sep.intercalate ls).flatMap f
      = (sep.flatMap f).intercalate (ls.map fun l => l.flatMap f)
  | [] => rfl
  | [l] => by simp
  | l :: l' :: ls => by
    rw [List.intercalate_cons_cons, List.flatMap_append, List.flatMap_append, List.map_cons,
      List.map_cons, List.intercalate_cons_cons, flatMap_intercalate f sep (l' :: ls),
      List.map_cons]

variable {keep : Char → Bool} (hkeep : KeepsPlain keep)
include hkeep

theorem not_mem_utf8 (cs : List Char) {d : Char} (hd : isSeparator d = true)
    (hd' : d.toNat < 0x80) :
    UInt8.ofNat d.toNat ∉ (encode keep cs).flatMap String.utf8EncodeChar := by
  intro hmem
  obtain ⟨c, hc, hmem⟩ := List.mem_flatMap.1 hmem
  obtain ⟨hlt, hsep⟩ := not_isSeparator_encode hkeep hc
  rw [utf8EncodeChar_ascii hlt, List.mem_singleton] at hmem
  refine ofNat_byte hd' hlt ?_ hmem
  rintro rfl
  rw [hd] at hsep
  cases hsep

/-- The bytes of a name and a value are read as these. -/
theorem formPair_encode (p : List Char × List Char) :
    formPair ((encode keep p.1 ++ '=' :: encode keep p.2).flatMap String.utf8EncodeChar) = p := by
  have hequals : String.utf8EncodeChar '=' = [0x3D] := by decide
  have hname : ∀ b ∈ (encode keep p.1).flatMap String.utf8EncodeChar, decide (b ≠ 0x3D) = true := by
    intro b hb
    refine decide_eq_true ?_
    rintro rfl
    exact not_mem_utf8 hkeep p.1 (d := '=') (by decide) (by decide) hb
  rw [List.flatMap_append, List.flatMap_cons, hequals, List.singleton_append, formPair,
    List.takeWhile_append_of_pos hname, List.dropWhile_append_of_pos hname]
  simp only [ne_eq, not_true_eq_false, decide_false, Bool.false_eq_true, not_false_eq_true,
    List.takeWhile_cons_of_neg, List.dropWhile_cons_of_neg, List.append_nil, List.tail_cons]
  rw [formText_encode hkeep, formText_encode hkeep]

/-- A query of encoded names and values is read as these. -/
theorem searchParams_join {pairs : List (List Char × List Char)} (hne : pairs ≠ []) :
    searchParams ('?' :: join keep pairs) = pairs := by
  have hamp : ['&'].flatMap String.utf8EncodeChar = [0x26] := by decide
  let part (p : List Char × List Char) :=
    (encode keep p.1 ++ '=' :: encode keep p.2).flatMap String.utf8EncodeChar
  have hequals : String.utf8EncodeChar '=' = [0x3D] := by decide
  have hbytes : (join keep pairs).flatMap String.utf8EncodeChar
      = [0x26].intercalate (pairs.map part) := by
    rw [join, flatMap_intercalate, hamp, List.map_map]
    rfl
  have hsplit : ([0x26].intercalate (pairs.map part)).splitOn 0x26 = pairs.map part := by
    refine List.splitOn_intercalate _ (fun l hl => ?_) (by simpa using hne)
    obtain ⟨p, -, rfl⟩ := List.mem_map.1 hl
    have hname := not_mem_utf8 hkeep p.1 (d := '&') (by decide) (by decide)
    have hvalue := not_mem_utf8 hkeep p.2 (d := '&') (by decide) (by decide)
    simp only [part, List.flatMap_append, List.flatMap_cons, hequals, List.mem_append,
      List.mem_singleton, not_or]
    exact ⟨hname, by decide, hvalue⟩
  have hfilter : (pairs.map part).filter (· ≠ []) = pairs.map part := by
    refine List.filter_eq_self.2 fun l hl => ?_
    obtain ⟨p, -, rfl⟩ := List.mem_map.1 hl
    simp [part, hequals]
  have hpair (p : List Char × List Char) : formPair (part p) = p := formPair_encode hkeep p
  simp only [searchParams, List.head?_cons, if_true, List.tail_cons, hbytes, hsplit, hfilter,
    List.map_map]
  refine (List.map_congr_left fun p _ => ?_).trans pairs.map_id
  exact hpair p

end Query

section Url

variable {keep : Char → Bool} (hkeep : KeepsPlain keep)

theorem forall_mem_intercalate {α : Type} {P : α → Prop} {sep : List α} (hsep : ∀ x ∈ sep, P x) :
    ∀ {ls : List (List α)}, (∀ l ∈ ls, ∀ x ∈ l, P x) → ∀ x ∈ sep.intercalate ls, P x
  | [], _ => by simp
  | [l], h => by simpa using h l
  | l :: l' :: ls, h => by
    have ih := forall_mem_intercalate hsep fun m hm => h m (List.mem_cons_of_mem l hm)
    intro x hx
    rw [List.intercalate_cons_cons] at hx
    rcases List.mem_append.1 hx with hx | hx
    · rcases List.mem_append.1 hx with hx | hx
      · exact h l List.mem_cons_self x hx
      · exact hsep x hx
    · exact ih x hx

/-- What a URL parser keeps of what an encoder keeps. -/
def keptQuery (keep : Char → Bool) (c : Char) : Bool := keep c && isQueryChar c

include hkeep in
theorem KeepsPlain.keptQuery : KeepsPlain (keptQuery keep) :=
  fun c hc => hkeep c (Bool.and_eq_true_iff.1 hc).1

theorem encode_encode (cs : List Char) :
    (encode keep cs).flatMap (percentEncode isQueryChar) = encode (keptQuery keep) cs := by
  have hbyte (b : UInt8) : (percentByte b).flatMap (percentEncode isQueryChar) = percentByte b := by
    have hb := b.toNat_lt
    obtain ⟨-, -, -, hhi⟩ := upper_digit (b.toNat / 16) (by omega)
    obtain ⟨-, -, -, hlo⟩ := upper_digit (b.toNat % 16) (by omega)
    have hpercent : isQueryChar '%' = true := by decide
    simp [percentByte, percentEncode, hhi, hlo, hpercent]
  unfold encode
  rw [List.flatMap_assoc]
  refine List.flatMap_congr fun c _ => ?_
  unfold percentEncode keptQuery
  by_cases hc : keep c = true
  · simp [hc]
  · simp only [hc, Bool.false_and, Bool.false_eq_true, if_false, List.flatMap_assoc]
    exact List.flatMap_congr fun b _ => hbyte b

theorem join_encode (pairs : List (List Char × List Char)) :
    (join keep pairs).flatMap (percentEncode isQueryChar) = join (keptQuery keep) pairs := by
  have hamp : ['&'].flatMap (percentEncode isQueryChar) = ['&'] := by decide
  have hequals : percentEncode isQueryChar '=' = ['='] := by decide
  unfold join
  rw [flatMap_intercalate, hamp, List.map_map]
  congr 2
  funext p
  simp [List.flatMap_cons, encode_encode, hequals]

include hkeep in
theorem not_mem_join (pairs : List (List Char × List Char)) : ∀ c ∈ join keep pairs, c ≠ '#' := by
  have hencode (cs : List Char) : ∀ c ∈ encode keep cs, c ≠ '#' := by
    rintro c hc rfl
    exact absurd (not_isSeparator_encode hkeep hc).2 (by decide)
  refine forall_mem_intercalate (by simp) fun l hl c hc => ?_
  obtain ⟨p, -, rfl⟩ := List.mem_map.1 hl
  rcases List.mem_append.1 hc with hc | hc
  · exact hencode p.1 c hc
  · rcases List.mem_cons.1 hc with rfl | hc
    · decide
    · exact hencode p.2 c hc

include hkeep in
/-- The query of a link is read as the names and values that were put into it. -/
theorem searchParams_search {base : List Char} (hbase : ∀ c ∈ base, c ≠ '?' ∧ c ≠ '#')
    {pairs : List (List Char × List Char)} (hne : pairs ≠ []) :
    searchParams (search (base ++ '?' :: join keep pairs)) = pairs := by
  have hhash : (base ++ '?' :: join keep pairs).takeWhile (· ≠ '#')
      = base ++ '?' :: join keep pairs := by
    refine List.takeWhile_eq_self_iff.2 fun c hc => decide_eq_true ?_
    rcases List.mem_append.1 hc with hc | hc
    · exact (hbase c hc).2
    · rcases List.mem_cons.1 hc with rfl | hc
      · decide
      · exact not_mem_join hkeep pairs c hc
  have hdrop : (base ++ '?' :: join keep pairs).dropWhile (· ≠ '?') = '?' :: join keep pairs := by
    rw [List.dropWhile_append_of_pos fun c hc => decide_eq_true (hbase c hc).1]
    simp
  have hjoin : join keep pairs ≠ [] := by
    intro hnil
    have h := searchParams_join hkeep hne
    rw [hnil] at h
    exact hne (h.symm.trans (by decide))
  obtain ⟨c, l, hcl⟩ := List.exists_cons_of_ne_nil hjoin
  have hsearch : search (base ++ '?' :: join keep pairs) = '?' :: join (keptQuery keep) pairs := by
    unfold search
    rw [hhash, hdrop, hcl]
    simp only
    rw [← hcl, join_encode]
  rw [hsearch, searchParams_join hkeep.keptQuery hne]

end Url

end UrlEncoding

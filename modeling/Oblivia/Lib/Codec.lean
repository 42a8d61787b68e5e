import Oblivia.Lib.Bytes
/-!
# Codecs of a fixed width

Records written field after field, without lengths: byte strings, flags and little-endian words. A
codec carries the proof that it writes its width and reads back what it wrote.
-/

structure Codec (α : Type) where
  size : ℕ
  encode : α → List UInt8
  decode : List UInt8 → Option α
  length_encode : ∀ a, (encode a).length = size
  decode_encode : ∀ a, decode (encode a) = some a

namespace Codec

variable {α β : Type}

def bytes (n : ℕ) : Codec (Bytes n) where
  size := n
  encode b := b.toList
  decode l := if h : l.length = n then some ⟨l, h⟩ else none
  length_encode := Bytes.length_toList
  decode_encode b := dif_pos (Bytes.length_toList b)

def u8 : Codec UInt8 where
  size := 1
  encode b := [b]
  decode l := match l with
    | [b] => some b
    | _ => none
  length_encode _ := rfl
  decode_encode _ := rfl

def bool : Codec Bool where
  size := 1
  encode b := [if b then 1 else 0]
  decode l := match l with
    | [0] => some false
    | [1] => some true
    | _ => none
  length_encode _ := rfl
  decode_encode b := by cases b <;> rfl

/-- Eight bytes, the least significant one first. -/
def u64 : Codec UInt64 where
  size := 8
  encode x := (Bytes.beList 8 x.toNat).reverse
  decode l := if l.length = 8 then some (.ofNat (Bytes.beVal l.reverse)) else none
  length_encode x := by rw [List.length_reverse, Bytes.length_beList]
  decode_encode x := by
    have hx : x.toNat % 256 ^ 8 = x.toNat := Nat.mod_eq_of_lt x.toNat_lt
    rw [if_pos (by rw [List.length_reverse, Bytes.length_beList]), List.reverse_reverse,
      Bytes.beVal_beList, hx, UInt64.ofNat_toNat]

/-- A type whose values are written as those of another. -/
def via (c : Codec α) (f : β → α) (g : α → β) (h : ∀ b, g (f b) = b) : Codec β where
  size := c.size
  encode b := c.encode (f b)
  decode l := (c.decode l).map g
  length_encode b := c.length_encode (f b)
  decode_encode b := by rw [c.decode_encode, Option.map_some, h]

def i64 : Codec Int64 := u64.via Int64.toUInt64 UInt64.toInt64 fun _ => rfl

/-- One field, and those after it. -/
def pair (c : Codec α) (d : Codec β) : Codec (α × β) where
  size := c.size + d.size
  encode p := c.encode p.1 ++ d.encode p.2
  decode l := do return (← c.decode (l.take c.size), ← d.decode (l.drop c.size))
  length_encode p := by rw [List.length_append, c.length_encode, d.length_encode]
  decode_encode p := by
    have hsize : c.size = (c.encode p.1).length := (c.length_encode p.1).symm
    rw [hsize, List.take_left, List.drop_left, c.decode_encode, d.decode_encode]
    rfl

/-- The tag of a type, and then its value. -/
def tagged (tag : List UInt8) (c : Codec α) : Codec α where
  size := tag.length + c.size
  encode a := tag ++ c.encode a
  decode l := if l.take tag.length = tag then c.decode (l.drop tag.length) else none
  length_encode a := by rw [List.length_append, c.length_encode]
  decode_encode a := by rw [List.take_left, List.drop_left, if_pos rfl, c.decode_encode]

/-- Bytes that one tagged type wrote are not those of a type with another tag. -/
theorem decode_tagged_ne {tag tag' : List UInt8} (hl : tag.length = tag'.length) (h : tag ≠ tag')
    (c : Codec α) (d : Codec β) (a : α) :
    (d.tagged tag').decode ((c.tagged tag).encode a) = none := by
  refine if_neg ?_
  show (tag ++ c.encode a).take tag'.length ≠ tag'
  rwa [← hl, List.take_left]

end Codec

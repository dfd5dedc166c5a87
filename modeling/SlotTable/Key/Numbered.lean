import SlotTable.Key.Binary64
import SlotTable.Key.Integer

/-!
# Numbers of keys

Arithmetic hash schemes and match rules work on one word per key: an integer modulo 2^64, a
character's code point, the length of a text or list, the first part of a pair, the bits of a
floating-point key. Different keys may share a number.
-/
namespace SlotTable

class Numbered (K : Type) where
  number : K → UInt64

instance {type : IntegerType} : Numbered (FixedInt type) where
  number n := UInt64.ofInt n.value

instance : Numbered Bool where
  number b := if b then 1 else 0

instance : Numbered Char where
  number c := UInt64.ofNat c.toNat

/-- The length in bytes. -/
instance : Numbered String where
  number s := UInt64.ofNat s.utf8ByteSize

instance : Numbered Unit where
  number _ := 0

instance {A B : Type} [Numbered A] : Numbered (A × B) where
  number pair := Numbered.number pair.1

instance {A : Type} [Numbered A] : Numbered (Option A) where
  number
    | none => 0
    | some key => Numbered.number key + 1

instance {A : Type} : Numbered (List A) where
  number keys := UInt64.ofNat keys.length

instance : Numbered Binary64 where
  number x := x.bits

end SlotTable

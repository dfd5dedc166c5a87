import SlotTable.Bytes
import SlotTable.Key.Integer

/-!
# Feeds: the bytes of a key

A key writes its bytes into a running hash in chunks. Numbers are little-endian and as wide as their
type; a list writes its length first, an optional key says which case it is, and a string ends with
a byte that UTF-8 never uses. Floating-point keys have no feed.
-/
namespace SlotTable

class Feed (K : Type) where
  chunks : K → List Bytes

/-- All bytes that a key writes. -/
def feed {K : Type} [Feed K] (key : K) : Bytes := (Feed.chunks key).flatten

instance {type : IntegerType} : Feed (FixedInt type) where
  chunks n := [Bytes.encode (type.bits / 8) n.pattern.toNat]

instance : Feed UInt8 where
  chunks byte := [[byte]]

instance : Feed Bool where
  chunks b := [[if b then 1 else 0]]

instance : Feed Char where
  chunks c := [Bytes.encode 4 c.toNat]

instance : Feed String where
  chunks s := [s.toUTF8.data.toList, [0xff]]

instance : Feed Unit where
  chunks _ := []

instance {A B : Type} [Feed A] [Feed B] : Feed (A × B) where
  chunks pair := Feed.chunks pair.1 ++ Feed.chunks pair.2

/-- The case is a whole word. -/
instance {A : Type} [Feed A] : Feed (Option A) where
  chunks
    | none => [Bytes.encode 8 0]
    | some key => Bytes.encode 8 1 :: Feed.chunks key

/-- The length is a whole word. -/
instance {A : Type} [Feed A] : Feed (List A) where
  chunks keys := Bytes.encode 8 keys.length :: keys.flatMap Feed.chunks

end SlotTable

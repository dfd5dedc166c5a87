import SlotTable.Key.Binary64
import SlotTable.Key.Integer

/-!
# Equality up to the case of letters

Characters and strings compare without regard to the case of ASCII letters, and of no others. Keys
of all other types keep their own equality.
-/
namespace SlotTable

class Caseless (K : Type) [BEq K] where
  sameLetters : K → K → Bool := fun a b => a == b

instance : Caseless Char where
  sameLetters a b := a.toLower == b.toLower

instance : Caseless String where
  sameLetters a b := a.toList.map Char.toLower == b.toList.map Char.toLower

instance {type : IntegerType} : Caseless (FixedInt type) where

instance : Caseless Bool where

instance : Caseless Unit where

instance : Caseless Binary64 where

instance {A B : Type} [BEq A] [BEq B] : Caseless (A × B) where

instance {A : Type} [BEq A] : Caseless (Option A) where

instance {A : Type} [BEq A] : Caseless (List A) where

end SlotTable

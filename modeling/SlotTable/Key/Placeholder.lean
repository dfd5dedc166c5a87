import SlotTable.Key.Binary64
import SlotTable.Key.Integer

/-!
# Placeholders: the key in a cell that holds none

Every key type has one value for cells that are empty: zero, false, the empty text or list, or the
placeholders of the parts.
-/
namespace SlotTable

class Placeholder (K : Type) where
  placeholder : K

instance {type : IntegerType} : Placeholder (FixedInt type) where
  placeholder := ⟨0⟩

instance : Placeholder Bool where
  placeholder := false

instance : Placeholder Char where
  placeholder := '\x00'

instance : Placeholder String where
  placeholder := ""

instance : Placeholder Unit where
  placeholder := ()

instance {A B : Type} [Placeholder A] [Placeholder B] : Placeholder (A × B) where
  placeholder := (Placeholder.placeholder, Placeholder.placeholder)

instance {A : Type} : Placeholder (Option A) where
  placeholder := none

instance {A : Type} : Placeholder (List A) where
  placeholder := []

instance : Placeholder Binary64 where
  placeholder := ⟨0⟩

end SlotTable

import SlotTable.Key.Integer
import SlotTable.Text.Quoted
import SlotTable.Text.Shortest

/-!
# Debug text of keys

Every key type has a text form for its values and a name for the type itself. Strings and characters
are quoted, compound keys are written with brackets.
-/
namespace SlotTable

class DebugText (K : Type) where
  debugText : K → String
  typeName : String

/-- Texts between brackets, separated by commas. -/
def bracketed (texts : List String) : String :=
  "[" ++ String.intercalate ", " texts ++ "]"

instance {type : IntegerType} : DebugText (FixedInt type) where
  debugText n := toString n.value
  typeName := type.name

instance : DebugText UInt8 where
  debugText byte := toString byte.toNat
  typeName := "u8"

instance : DebugText Bool where
  debugText b := if b then "true" else "false"
  typeName := "bool"

instance : DebugText Char where
  debugText := Quoted.character
  typeName := "char"

instance : DebugText String where
  debugText := Quoted.string
  typeName := "alloc::string::String"

instance : DebugText Unit where
  debugText _ := "()"
  typeName := "()"

instance {A B : Type} [DebugText A] [DebugText B] : DebugText (A × B) where
  debugText pair := s!"({DebugText.debugText pair.1}, {DebugText.debugText pair.2})"
  typeName := s!"({DebugText.typeName A}, {DebugText.typeName B})"

/-- Text of a cell that may be empty. -/
def optionText {A : Type} (text : A → String) : Option A → String
  | none => "None"
  | some value => s!"Some({text value})"

instance {A : Type} [DebugText A] : DebugText (Option A) where
  debugText := optionText DebugText.debugText
  typeName := s!"core::option::Option<{DebugText.typeName A}>"

instance {A : Type} [DebugText A] : DebugText (List A) where
  debugText keys := bracketed (keys.map DebugText.debugText)
  typeName := s!"alloc::vec::Vec<{DebugText.typeName A}>"

instance : DebugText Binary64 where
  debugText := Binary64.debugText
  typeName := "f64"

end SlotTable

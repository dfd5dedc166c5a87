import SlotTable.Hash.Scheme
import SlotTable.Table.Dynamic
import SlotTable.Table.Fixed
import SlotTable.Text.Debug

/-!
# Debug text of storages and tables

A table's text shows its cells, the name of its hash scheme, the natural match rule and the name of
its key type. Empty flagged cells show the placeholder.
-/
namespace SlotTable

/-- A name followed by fields in braces. -/
def recordText (name : String) (fields : List (String × String)) : String :=
  let shown := fields.map fun field => field.1 ++ ": " ++ field.2
  name ++ " \x7b " ++ String.intercalate ", " shown ++ " \x7d"

def OptionalSlots.debugText {K : Type} [DebugText K] (slots : OptionalSlots K) : String :=
  recordText "VecSlots" [("slots", bracketed (slots.cells.toList.map DebugText.debugText))]

def FlaggedSlots.debugText {K : Type} {n : Nat} [DebugText K] (slots : FlaggedSlots K n) :
    String :=
  recordText "ArraySlots" [("slots", bracketed (slots.cells.toList.map DebugText.debugText))]

/-- The text of a table under the natural match rule. -/
def LinearTable.debugText {K S : Type} [DebugText K] (slotsText : S → String)
    (scheme : ByteScheme) (table : LinearTable K S) : String :=
  recordText "ProbeTable"
    [("slots", slotsText table.slots), ("hasher", scheme.debugText),
      ("comparator", "NaturalEq"), ("_key", s!"PhantomData<{DebugText.typeName K}>")]

def DynamicTable.debugText {K : Type} [DebugText K] (scheme : ByteScheme)
    (table : DynamicTable K) : String :=
  recordText "HashAdaptor" [("table", table.core.debugText OptionalSlots.debugText scheme)]

def FixedTable.debugText {K : Type} {n : Nat} [DebugText K] (scheme : ByteScheme)
    (table : FixedTable K n) : String :=
  recordText "StaticHashAdaptor" [("table", table.core.debugText FlaggedSlots.debugText scheme)]

end SlotTable

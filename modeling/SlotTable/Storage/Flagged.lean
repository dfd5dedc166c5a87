import SlotTable.Key.Placeholder
import SlotTable.Storage.Basic

/-!
# Flagged slots

Each cell is a key with an occupied flag; the number of cells is part of the type. An empty cell
holds the placeholder key, and clearing puts it back. The placeholder is not seen through `keyAt`,
but `==` compares whole cells.
-/
namespace SlotTable

structure FlaggedSlots (K : Type) (n : Nat) where
  cells : Vector (K × Bool) n
  deriving Repr, BEq

namespace FlaggedSlots

variable {K : Type} {n : Nat}

/-- The content of an empty cell. -/
def emptyCell [Placeholder K] : K × Bool := (Placeholder.placeholder, false)

def empty [Placeholder K] : FlaggedSlots K n := ⟨Vector.replicate n emptyCell⟩

def cell (slots : FlaggedSlots K n) (index : Nat) : Except Fault (K × Bool) :=
  if inside : index < n then .ok slots.cells[index] else .error (.indexOutOfBounds n index)

def setCell (slots : FlaggedSlots K n) (index : Nat) (content : K × Bool) :
    Except Fault (FlaggedSlots K n) :=
  if inside : index < n then .ok ⟨slots.cells.set index content⟩
  else .error (.indexOutOfBounds n index)

/-- The key of a cell, if its flag is set. -/
def held (content : K × Bool) : Option K := if content.2 then some content.1 else none

theorem held_true (key : K) : held (key, true) = some key := rfl

theorem isSome_held (content : K × Bool) : (held content).isSome = content.2 := by
  rcases content with ⟨key, _ | _⟩ <;> rfl

instance [Placeholder K] : Storage (FlaggedSlots K n) K where
  capacity _ := n
  keyAt slots index := held <$> slots.cell index
  isOccupied slots index := (·.2) <$> slots.cell index
  write slots index key := slots.setCell index (key, true)
  clear slots index := do
    let content ← slots.cell index
    return (held content, ← slots.setCell index emptyCell)

end FlaggedSlots

end SlotTable

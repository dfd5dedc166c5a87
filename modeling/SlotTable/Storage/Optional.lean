import SlotTable.Storage.Basic

/-!
# Optional slots

Each cell is `none` or `some key`; the number of cells is chosen when the storage is made. Two
storages are equal when their cells are, one by one.
-/
namespace SlotTable

structure OptionalSlots (K : Type) where
  cells : Array (Option K)
  deriving Repr, BEq

namespace OptionalSlots

variable {K : Type}

/-- All cells empty. -/
def empty (capacity : Nat) : OptionalSlots K := ⟨Array.replicate capacity none⟩

def cell (slots : OptionalSlots K) (index : Nat) : Except Fault (Option K) :=
  if inside : index < slots.cells.size then .ok slots.cells[index]
  else .error (.indexOutOfBounds slots.cells.size index)

def setCell (slots : OptionalSlots K) (index : Nat) (content : Option K) :
    Except Fault (OptionalSlots K) :=
  if inside : index < slots.cells.size then .ok ⟨slots.cells.set index content⟩
  else .error (.indexOutOfBounds slots.cells.size index)

instance : Storage (OptionalSlots K) K where
  capacity slots := slots.cells.size
  keyAt := cell
  write slots index key := slots.setCell index (some key)
  clear slots index := do
    let held ← slots.cell index
    return (held, ← slots.setCell index none)

end OptionalSlots

end SlotTable

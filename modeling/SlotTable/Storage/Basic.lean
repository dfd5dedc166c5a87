import SlotTable.Fault

/-!
# Storage: a fixed array of slots

A slot is empty or holds one key. Tables see a storage only through this interface, and every access
by index is partial: an index at or past the capacity is a fault and leaves the storage as it is.
-/
namespace SlotTable

class Storage (S : Type) (K : outParam Type) where
  capacity : S → Nat
  /-- The key in a slot, if the slot is occupied. -/
  keyAt : S → Nat → Except Fault (Option K)
  isOccupied : S → Nat → Except Fault Bool := fun slots index => do
    return (← keyAt slots index).isSome
  /-- Puts a key into a slot, whatever was there. -/
  write : S → Nat → K → Except Fault S
  /-- Empties a slot and hands back the key that it held. -/
  clear : S → Nat → Except Fault (Option K × S)

namespace Storage

variable {S K : Type} [Storage S K]

/-- The number of occupied slots, from a scan of all of them. -/
def occupiedCount (slots : S) : Except Fault Nat := do
  let flags ← (List.range (capacity slots)).mapM (isOccupied slots)
  return flags.count true

/-- The occupied slots and their keys, in slot order. -/
def entries (slots : S) : Except Fault (List (Nat × K)) := do
  let found ← (List.range (capacity slots)).mapM fun index => do
    return (← keyAt slots index).map fun key => (index, key)
  return found.filterMap id

/-- Empties every slot, the first one first. -/
def clearAll (slots : S) : Except Fault S :=
  (List.range (capacity slots)).foldlM (fun slots index => do
    let (_, cleared) ← clear slots index
    return cleared) slots

end Storage

end SlotTable

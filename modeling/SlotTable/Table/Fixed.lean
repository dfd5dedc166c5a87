import SlotTable.Storage.Flagged
import SlotTable.Table.Index
import SlotTable.Table.Linear

/-!
# Fixed table: capacity in the type

A linear table over flagged slots. A table whose size is known beforehand should be sized right, so
inserting a new key into a full one is a fault that ends the program.
-/
namespace SlotTable

structure FixedTable (K : Type) (n : Nat) where
  core : LinearTable K (FlaggedSlots K n)

namespace FixedTable

variable {K : Type} {n : Nat} [Placeholder K]

/-- An empty table; that it has slots is known when the program is written. -/
def create (_positive : 0 < n) (hash : K → UInt64) (matching : K → K → Bool) :
    Logged (FixedTable K n) := do
  return ⟨← LinearTable.create FlaggedSlots.empty hash matching⟩

def capacity (_table : FixedTable K n) : Nat := n

def insert (table : FixedTable K n) (key : K) : Logged (Nat × FixedTable K n) := do
  match ← table.core.insert key with
  | (some slot, core) => return (slot, ⟨core⟩)
  | (none, _) =>
    Logged.emit (.fixedFull n)
    Logged.fail (.slotsExhausted n)

def erase (table : FixedTable K n) (key : K) : Logged (Option Nat × FixedTable K n) := do
  let (slot, core) ← table.core.erase key
  return (slot, ⟨core⟩)

def slotFor? (table : FixedTable K n) (key : K) : Logged (Option Nat) := table.core.slotFor? key

def indexOf? (table : FixedTable K n) (key : K) : Logged (Option Nat) := table.core.indexOf? key

def contains (table : FixedTable K n) (key : K) : Logged Bool := table.core.contains key

def count (table : FixedTable K n) (key : K) : Logged Nat := do
  return (← table.contains key).toNat

def size (table : FixedTable K n) : Except Fault Nat := table.core.size

def isEmpty (table : FixedTable K n) : Except Fault Bool := do
  return (← table.size) == 0

def isFull (table : FixedTable K n) : Except Fault Bool := do
  return (← table.size) == n

def clear (table : FixedTable K n) : Logged (FixedTable K n) := do
  let core ← table.core.clear
  Logged.emit (.fixedCleared n)
  return ⟨core⟩

def entries (table : FixedTable K n) : Except Fault (List (Nat × K)) := table.core.entries

/-- The table's own operations as data. -/
def interface : Interface (FixedTable K n) K where
  slotFor? := slotFor?
  indexOf? := indexOf?
  erase := erase
  contains := contains
  count := count
  size := size
  isEmpty := isEmpty
  isFull := isFull
  capacity := capacity
  clear := clear

instance : KeyIndex (FixedTable K n) K where
  slotFor? := slotFor?
  indexOf? := indexOf?
  erase := erase
  contains := contains
  size := size
  capacity := capacity
  clear := clear

end FixedTable

end SlotTable

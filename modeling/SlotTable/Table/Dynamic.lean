import SlotTable.Storage.Optional
import SlotTable.Table.Index
import SlotTable.Table.Linear

/-!
# Dynamic table: capacity chosen at run time

A linear table over optional slots. The capacity is fixed once the table is made; inserting a new
key into a full table is an error value and changes nothing. To grow, `rebuild` inserts the stored
keys, in slot order, into a new table.
-/
namespace SlotTable

/-- Every slot holds a key that does not match the one to insert. -/
inductive InsertError where
  | full (capacity : Nat)
  deriving DecidableEq, Repr

namespace InsertError

def message : InsertError → String
  | full capacity => s!"Hash table is full (capacity {capacity})"

def debugText : InsertError → String
  | full capacity => s!"CapacityExhausted \x7b capacity: {capacity} \x7d"

end InsertError

structure DynamicTable (K : Type) where
  core : LinearTable K (OptionalSlots K)

namespace DynamicTable

variable {K : Type}

/-- An empty table; a capacity of zero is refused before anything else happens. -/
def create (capacity : Nat) (hash : K → UInt64) (matching : K → K → Bool) :
    Logged (DynamicTable K) :=
  if capacity = 0 then Logged.fail .zeroCapacity
  else do
    Logged.emit (.dynamicCreated capacity)
    return ⟨← LinearTable.create (OptionalSlots.empty capacity) hash matching⟩

def capacity (table : DynamicTable K) : Nat := table.core.capacity

def insert (table : DynamicTable K) (key : K) :
    Logged (Except InsertError Nat × DynamicTable K) := do
  match ← table.core.insert key with
  | (some slot, core) => return (.ok slot, ⟨core⟩)
  | (none, core) =>
    Logged.emit (.dynamicFull core.capacity)
    return (.error (.full core.capacity), ⟨core⟩)

def erase (table : DynamicTable K) (key : K) : Logged (Option Nat × DynamicTable K) := do
  let (slot, core) ← table.core.erase key
  return (slot, ⟨core⟩)

def slotFor? (table : DynamicTable K) (key : K) : Logged (Option Nat) := table.core.slotFor? key

def indexOf? (table : DynamicTable K) (key : K) : Logged (Option Nat) := table.core.indexOf? key

def contains (table : DynamicTable K) (key : K) : Logged Bool := table.core.contains key

def count (table : DynamicTable K) (key : K) : Logged Nat := do
  return (← table.contains key).toNat

def size (table : DynamicTable K) : Except Fault Nat := table.core.size

def isEmpty (table : DynamicTable K) : Except Fault Bool := do
  return (← table.size) == 0

def isFull (table : DynamicTable K) : Except Fault Bool := do
  return (← table.size) == table.capacity

def clear (table : DynamicTable K) : Logged (DynamicTable K) := do
  return ⟨← table.core.clear⟩

def entries (table : DynamicTable K) : Except Fault (List (Nat × K)) := table.core.entries

/-- The table's own operations as data. -/
def interface : Interface (DynamicTable K) K where
  slotFor? := slotFor?
  indexOf? := indexOf?
  erase := erase
  contains := contains
  count := count
  size := size
  isEmpty := isEmpty
  isFull := isFull
  capacity := capacity
  clear := clear

instance : KeyIndex (DynamicTable K) K where
  slotFor? := slotFor?
  indexOf? := indexOf?
  erase := erase
  contains := contains
  size := size
  capacity := capacity
  clear := clear

/-- Inserts keys in order; the answers come in the same order. -/
def insertAll (table : DynamicTable K) :
    List K → Logged (List (Except InsertError Nat) × DynamicTable K)
  | [] => return ([], table)
  | key :: rest => do
    let (answer, table) ← table.insert key
    let (answers, table) ← table.insertAll rest
    return (answer :: answers, table)

/-- The stored keys in slot order, inserted into a new table of another capacity under the same
hash and match rule. Each old slot comes with the answer to its key's insert. -/
def rebuild (table : DynamicTable K) (capacity : Nat) :
    Logged (List (Nat × Except InsertError Nat) × DynamicTable K) := do
  let stored ← table.entries
  let fresh ← create capacity table.core.hash table.core.matching
  let (answers, rebuilt) ← fresh.insertAll (stored.map (·.2))
  return ((stored.map (·.1)).zip answers, rebuilt)

end DynamicTable

end SlotTable

import SlotTable.Log.Logged

/-!
# Index: what all tables can do alike

`KeyIndex` holds the operations that do not depend on what a full table does; counting and the two
comparisons of size and capacity follow from them. `Interface` is the same list as plain data, so
that a table's own operations and the shared ones can be run by the same code.
-/
namespace SlotTable

class KeyIndex (T : Type) (K : outParam Type) where
  slotFor? : T → K → Logged (Option Nat)
  indexOf? : T → K → Logged (Option Nat)
  erase : T → K → Logged (Option Nat × T)
  contains : T → K → Logged Bool
  size : T → Except Fault Nat
  capacity : T → Nat
  clear : T → Logged T

structure Interface (T K : Type) where
  slotFor? : T → K → Logged (Option Nat)
  indexOf? : T → K → Logged (Option Nat)
  erase : T → K → Logged (Option Nat × T)
  contains : T → K → Logged Bool
  count : T → K → Logged Nat
  size : T → Except Fault Nat
  isEmpty : T → Except Fault Bool
  isFull : T → Except Fault Bool
  capacity : T → Nat
  clear : T → Logged T

namespace KeyIndex

variable {T K : Type} [KeyIndex T K]

/-- One if a key matches, otherwise zero. -/
def count (table : T) (key : K) : Logged Nat := do
  return (← contains table key).toNat

def isEmpty (table : T) : Except Fault Bool := do
  return (← size table) == 0

def isFull (table : T) : Except Fault Bool := do
  return (← size table) == capacity table

/-- The shared operations as data. -/
def interface : Interface T K where
  slotFor? := slotFor?
  indexOf? := indexOf?
  erase := erase
  contains := contains
  count := count
  size := size
  isEmpty := isEmpty
  isFull := isFull
  capacity := capacity
  clear := clear

end KeyIndex

end SlotTable

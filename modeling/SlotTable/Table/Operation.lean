import SlotTable.Table.Dynamic
import SlotTable.Table.Fixed

/-!
# Operations: the calls on a table as data

`Op` lists the calls that every table understands, and `Op.perform` makes one. A call goes either to
the table itself or through the shared index; inserting and listing exist on the table only.
-/
namespace SlotTable

inductive Op (K : Type) where
  | insert (key : K)
  | erase (key : K)
  | slotFor (key : K)
  | indexOf (key : K)
  | contains (key : K)
  | count (key : K)
  | size
  | isEmpty
  | isFull
  | capacity
  | clear
  | entries
  deriving DecidableEq, Repr

inductive Answer (K : Type) where
  | done
  | slot (index : Option Nat)
  | rejected (error : InsertError)
  | flag (value : Bool)
  | number (value : Nat)
  | entries (content : List (Nat × K))
  | landing (value : Landing)
  | rebuilt (moves : List (Nat × Except InsertError Nat))
  deriving Repr

inductive Route where
  | direct
  | throughIndex
  deriving DecidableEq, Repr

/-- What a table adds to the shared index. -/
class Table (T : Type) (K : outParam Type) extends KeyIndex T K where
  own : Interface T K
  insert : T → K → Logged (Answer K × T)
  entries : T → Except Fault (List (Nat × K))

namespace LinearTable

variable {K S : Type} [Storage S K]

instance : KeyIndex (LinearTable K S) K where
  slotFor? := slotFor?
  indexOf? := indexOf?
  erase := erase
  contains := contains
  size := size
  capacity := capacity
  clear := clear

instance : Table (LinearTable K S) K where
  own := KeyIndex.interface
  insert table key := do
    let (slot, table) ← table.insert key
    return (.slot slot, table)
  entries := entries

end LinearTable

instance {K : Type} : Table (DynamicTable K) K where
  own := DynamicTable.interface
  insert table key := do
    match ← table.insert key with
    | (.ok slot, table) => return (.slot (some slot), table)
    | (.error error, table) => return (.rejected error, table)
  entries := DynamicTable.entries

instance {K : Type} {n : Nat} [Placeholder K] : Table (FixedTable K n) K where
  own := FixedTable.interface
  insert table key := do
    let (slot, table) ← table.insert key
    return (.slot (some slot), table)
  entries := FixedTable.entries

namespace Op

variable {T K : Type}

/-- One of the shared calls; `insert` and `entries` are the table's own business. -/
def performOn [Table T K] (interface : Interface T K) (table : T) :
    Op K → Logged (Answer K × T)
  | insert key => Table.insert table key
  | erase key => do
    let (slot, table) ← interface.erase table key
    return (.slot slot, table)
  | slotFor key => return (.slot (← interface.slotFor? table key), table)
  | indexOf key => return (.slot (← interface.indexOf? table key), table)
  | contains key => return (.flag (← interface.contains table key), table)
  | count key => return (.number (← interface.count table key), table)
  | size => return (.number (← interface.size table), table)
  | isEmpty => return (.flag (← interface.isEmpty table), table)
  | isFull => return (.flag (← interface.isFull table), table)
  | capacity => return (.number (interface.capacity table), table)
  | clear => return (.done, ← interface.clear table)
  | entries => return (.entries (← Table.entries table), table)

def perform [Table T K] (route : Route) (op : Op K) (table : T) : Logged (Answer K × T) :=
  match route with
  | .direct => performOn Table.own table op
  | .throughIndex => performOn KeyIndex.interface table op

end Op

end SlotTable

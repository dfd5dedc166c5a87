import SlotTable.Log.Logged
import SlotTable.Walk

/-!
# Linear table: slots, a hash and a match rule

The core that both public tables share. Every operation on a key is one walk; `locate` runs it and
emits the only event of a lookup. Inserting fills the empty slot where the walk stopped, erasing
empties the slot where it matched, and nothing is left behind: a key stored past an emptied slot is
not found again until the slot is refilled.
-/
namespace SlotTable

structure LinearTable (K S : Type) where
  slots : S
  hash : K → UInt64
  /-- Whether a stored key, given first, answers to a probed one. -/
  matching : K → K → Bool

namespace LinearTable

variable {K S : Type} [Storage S K]

/-- A table over a given storage, which needs at least one slot. -/
def create (slots : S) (hash : K → UInt64) (matching : K → K → Bool) :
    Logged (LinearTable K S) :=
  if Storage.capacity slots = 0 then Logged.fail .noSlots else pure ⟨slots, hash, matching⟩

def capacity (table : LinearTable K S) : Nat := Storage.capacity table.slots

/-- Where the walk for a key stops. -/
def locate (table : LinearTable K S) (key : K) : Logged Landing := do
  let hash := table.hash key
  let walk ← Walk.ofHash table.slots table.matching hash key
  Logged.emit (.probed hash table.capacity walk.landing)
  return walk.landing

/-- The slot that now holds a matching key; `none` if the table is full and no key matches. -/
def insert (table : LinearTable K S) (key : K) : Logged (Option Nat × LinearTable K S) := do
  match ← table.locate key with
  | .vacant slot =>
    let slots ← Storage.write table.slots slot key
    Logged.emit (.inserted slot)
    return (some slot, { table with slots })
  | .occupied slot => return (some slot, table)
  | .exhausted => return (none, table)

/-- The slot that was emptied, if a key matched. -/
def erase (table : LinearTable K S) (key : K) : Logged (Option Nat × LinearTable K S) := do
  match ← table.locate key with
  | .occupied slot =>
    let (_, slots) ← Storage.clear table.slots slot
    Logged.emit (.erased slot)
    return (some slot, { table with slots })
  | _ => return (none, table)

/-- The slot that an insert would use: the matching one or the empty one. -/
def slotFor? (table : LinearTable K S) (key : K) : Logged (Option Nat) := do
  return (← table.locate key).slot?

/-- The slot whose key matches. -/
def indexOf? (table : LinearTable K S) (key : K) : Logged (Option Nat) := do
  match ← table.locate key with
  | .occupied slot => return some slot
  | _ => return none

def contains (table : LinearTable K S) (key : K) : Logged Bool := do
  return (← table.locate key).isOccupied

/-- The number of occupied slots. -/
def size (table : LinearTable K S) : Except Fault Nat := Storage.occupiedCount table.slots

/-- The occupied slots and their keys, in slot order. -/
def entries (table : LinearTable K S) : Except Fault (List (Nat × K)) :=
  Storage.entries table.slots

def clear (table : LinearTable K S) : Logged (LinearTable K S) := do
  let slots ← Storage.clearAll table.slots
  Logged.emit (.cleared (Storage.capacity slots))
  return { table with slots }

end LinearTable

end SlotTable

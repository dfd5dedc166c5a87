import SlotTable.Storage.Basic

/-!
# Access scripts: a storage under a sequence of calls

`Access` lists the calls on a storage. A call that faults answers with its fault and leaves the
storage as it was, so a script always runs to its end.
-/
namespace SlotTable

inductive Access (K : Type) where
  | write (index : Nat) (key : K)
  | clear (index : Nat)
  | keyAt (index : Nat)
  | isOccupied (index : Nat)
  | occupiedCount
  | capacity
  deriving DecidableEq, Repr

inductive AccessAnswer (K : Type) where
  | done
  | held (key : Option K)
  | flag (value : Bool)
  | number (value : Nat)
  deriving DecidableEq, Repr

namespace Access

variable {S K : Type} [Storage S K]

def perform (slots : S) : Access K → Except Fault (AccessAnswer K × S)
  | write index key => do return (.done, ← Storage.write slots index key)
  | clear index => do
    let (key, cleared) ← Storage.clear slots index
    return (.held key, cleared)
  | keyAt index => do return (.held (← Storage.keyAt slots index), slots)
  | isOccupied index => do return (.flag (← Storage.isOccupied slots index), slots)
  | occupiedCount => do return (.number (← Storage.occupiedCount slots), slots)
  | capacity => .ok (.number (Storage.capacity slots), slots)

/-- A fault is an answer too, and changes nothing. -/
def attempt (slots : S) (access : Access K) : Except Fault (AccessAnswer K) × S :=
  match access.perform slots with
  | .ok (answer, after) => (.ok answer, after)
  | .error fault => (.error fault, slots)

/-- The answers of a script, in order, and the storage after it. -/
def replay (slots : S) : List (Access K) → List (Except Fault (AccessAnswer K)) × S
  | [] => ([], slots)
  | access :: rest =>
    let (answer, after) := access.attempt slots
    let (answers, last) := replay after rest
    (answer :: answers, last)

end Access

end SlotTable

import SlotTable.Storage.Flagged
import SlotTable.Storage.Optional

/-!
# Lawful storage: a list of optional keys

`LawfulStorage` says what a storage does to its contents, a list with one entry per slot: reading is
reading the list, writing and clearing set one entry, and an index past the end is the same fault
everywhere. Both storages are lawful. The contents do not show the placeholder of a flagged cell.
-/
namespace SlotTable

variable {K : Type}

/-- An entry of the contents, or the fault of an index past the end. -/
def entryAt (contents : List (Option K)) (index : Nat) : Except Fault (Option K) :=
  if inside : index < contents.length then .ok contents[index]
  else .error (.indexOutOfBounds contents.length index)

/-- The contents with one entry replaced, or the fault of an index past the end. -/
def setEntry (contents : List (Option K)) (index : Nat) (entry : Option K) :
    Except Fault (List (Option K)) :=
  if index < contents.length then .ok (contents.set index entry)
  else .error (.indexOutOfBounds contents.length index)

class LawfulStorage (S : Type) (K : outParam Type) [Storage S K] where
  contents : S → List (Option K)
  capacity_eq (slots : S) : Storage.capacity slots = (contents slots).length
  keyAt_eq (slots : S) (index : Nat) :
    Storage.keyAt slots index = entryAt (contents slots) index
  isOccupied_eq (slots : S) (index : Nat) :
    Storage.isOccupied slots index = Option.isSome <$> entryAt (contents slots) index
  write_eq (slots : S) (index : Nat) (key : K) :
    contents <$> Storage.write slots index key = setEntry (contents slots) index (some key)
  clear_fst (slots : S) (index : Nat) :
    Prod.fst <$> Storage.clear slots index = entryAt (contents slots) index
  clear_snd (slots : S) (index : Nat) :
    (fun cleared => contents cleared.2) <$> Storage.clear slots index =
      setEntry (contents slots) index none

namespace OptionalSlots

instance : LawfulStorage (OptionalSlots K) K where
  contents slots := slots.cells.toList
  capacity_eq slots := Array.length_toList.symm
  keyAt_eq slots index := by
    simp [Storage.keyAt, cell, entryAt]
  isOccupied_eq slots index := by
    by_cases inside : index < slots.cells.size <;>
      simp [Storage.isOccupied, cell, entryAt, inside, bind, Except.bind, pure, Except.pure,
        Functor.map, Except.map]
  write_eq slots index key := by
    by_cases inside : index < slots.cells.size <;>
      simp [Storage.write, setCell, setEntry, inside, Functor.map, Except.map]
  clear_fst slots index := by
    by_cases inside : index < slots.cells.size <;>
      simp [Storage.clear, cell, setCell, entryAt, inside, bind, Except.bind, pure, Except.pure,
        Functor.map, Except.map]
  clear_snd slots index := by
    by_cases inside : index < slots.cells.size <;>
      simp [Storage.clear, cell, setCell, setEntry, inside, bind, Except.bind, pure, Except.pure,
        Functor.map, Except.map]

theorem contents_empty (capacity : Nat) :
    LawfulStorage.contents (empty capacity : OptionalSlots K) = List.replicate capacity none := by
  simp [LawfulStorage.contents, empty]

end OptionalSlots

namespace FlaggedSlots

variable {n : Nat} [Placeholder K]

theorem held_emptyCell : held (emptyCell : K × Bool) = none := rfl

instance : LawfulStorage (FlaggedSlots K n) K where
  contents slots := slots.cells.toList.map held
  capacity_eq slots := by simp [Storage.capacity]
  keyAt_eq slots index := by
    by_cases inside : index < n <;>
      simp [Storage.keyAt, cell, entryAt, inside, Functor.map, Except.map]
  isOccupied_eq slots index := by
    by_cases inside : index < n <;>
      simp [Storage.isOccupied, cell, entryAt, inside, isSome_held, Functor.map, Except.map]
  write_eq slots index key := by
    by_cases inside : index < n <;>
      simp [Storage.write, setCell, setEntry, inside, held_true, Functor.map, Except.map,
        Vector.toList_set]
  clear_fst slots index := by
    by_cases inside : index < n <;>
      simp [Storage.clear, cell, setCell, entryAt, inside, bind, Except.bind, pure, Except.pure,
        Functor.map, Except.map]
  clear_snd slots index := by
    by_cases inside : index < n <;>
      simp [Storage.clear, cell, setCell, setEntry, inside, held_emptyCell, bind, Except.bind,
        pure, Except.pure, Functor.map, Except.map, Vector.toList_set]

theorem contents_empty :
    LawfulStorage.contents (empty : FlaggedSlots K n) = List.replicate n none := by
  simp [LawfulStorage.contents, empty, held_emptyCell]

end FlaggedSlots

end SlotTable

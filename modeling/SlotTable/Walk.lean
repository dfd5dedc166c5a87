import SlotTable.Home
import SlotTable.Landing
import SlotTable.Storage.Basic

/-!
# Walk: linear probing with wraparound

The walk for a hash begins at its home slot, goes up to the last slot and on from the first one, and
visits every slot at most once. It stops at the first slot that is empty or whose key matches. The
comparison is asked with the stored key first, and the walk keeps the stored keys that it asked
about.
-/
namespace SlotTable

structure Walk (K : Type) where
  landing : Landing
  compared : List K
  deriving DecidableEq, Repr

/-- All slots below `capacity`, from `start` to the last one and then from the first one. -/
def visitOrder (start capacity : Nat) : List Nat :=
  List.range' start (capacity - start) ++ List.range start

theorem length_visitOrder {start capacity : Nat} (below : start ≤ capacity) :
    (visitOrder start capacity).length = capacity := by
  simp [visitOrder]
  omega

theorem mem_visitOrder {start capacity slot : Nat} (below : start ≤ capacity) :
    slot ∈ visitOrder start capacity ↔ slot < capacity := by
  simp only [visitOrder, List.mem_append, List.mem_range'_1, List.mem_range]
  omega

/-- The slot at distance `distance` from the start, counted around the end. -/
theorem getElem?_visitOrder {start capacity distance : Nat} (below : start < capacity)
    (near : distance < capacity) :
    (visitOrder start capacity)[distance]? = some ((start + distance) % capacity) := by
  by_cases first : distance < capacity - start
  · rw [visitOrder, List.getElem?_append_left (by simpa using first), List.getElem?_range' first,
      Nat.mod_eq_of_lt (by omega), Nat.one_mul]
  · have wrapped : (start + distance) % capacity = distance - (capacity - start) := by
      rw [Nat.mod_eq_sub_mod (by omega), Nat.mod_eq_of_lt (by omega)]
      omega
    rw [visitOrder, List.getElem?_append_right (by simp; omega), List.length_range',
      List.getElem?_range (by omega), wrapped]

namespace Walk

variable {S K : Type} [Storage S K]

/-- The walk over the given slots, in their order. -/
def along (slots : S) (matching : K → K → Bool) (key : K) : List Nat → Except Fault (Walk K)
  | [] => .ok ⟨.exhausted, []⟩
  | index :: rest => do
    match ← Storage.keyAt slots index with
    | none => return ⟨.vacant index, []⟩
    | some stored =>
      if matching stored key then
        return ⟨.occupied index, [stored]⟩
      else
        let walk ← along slots matching key rest
        return ⟨walk.landing, stored :: walk.compared⟩

/-- The walk for a key whose hash is `hash`. -/
def ofHash (slots : S) (matching : K → K → Bool) (hash : UInt64) (key : K) :
    Except Fault (Walk K) := do
  let start ← home hash (Storage.capacity slots)
  along slots matching key (visitOrder start (Storage.capacity slots))

end Walk

end SlotTable

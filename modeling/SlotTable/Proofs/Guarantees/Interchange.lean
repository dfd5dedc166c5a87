import Mathlib.Logic.Function.Basic
import SlotTable.Proofs.Storage.Script

/-!
# The two storages are interchangeable

Optional and flagged slots keep different cells, and a flagged one is tested for a key without being
read. No script of calls tells the two apart, whichever slots it names: each answer is the same, be
it a key, a count or the fault of a slot that is not there, and depends on the writes and clears of
the script alone.
-/
namespace SlotTable

open Function (update)

variable {K S : Type}

/-- Reading shows these keys in the slots. -/
def Reads [Storage S K] (n : Nat) (held : Nat → Option K) (slots : S) : Prop :=
  ∀ index < n, (Access.keyAt index).attempt slots = (.ok (.held (held index)), slots)

/-- What a storage with `n` slots, which a script of calls has left with these keys, answers. -/
structure RecallsWrites [Storage S K] (n : Nat) (script : List (Access K))
    (held : Nat → Option K) (slots : S) : Prop where
  held_iff : ∀ index < n, ∀ key, held index = some key ↔ Access.LastWritten script index key
  keyAt : Reads n held slots
  isOccupied : ∀ index < n,
    (Access.isOccupied index).attempt slots = (.ok (.flag (held index).isSome), slots)
  occupiedCount : Access.occupiedCount.attempt slots =
    (.ok (.number ((List.range n).countP fun index => (held index).isSome)), slots)
  capacity : Access.capacity.attempt slots = (.ok (.number n), slots)
  write : ∀ index < n, ∀ key, ∃ after,
    (Access.write index key).attempt slots = (.ok .done, after) ∧
      Reads n (update held index (some key)) after
  clear : ∀ index < n, ∃ after,
    (Access.clear index).attempt slots = (.ok (.held (held index)), after) ∧
      Reads n (update held index none) after
  past : ∀ access index, Access.index? access = some index → n ≤ index →
    access.attempt slots = (.error (.indexOutOfBounds n index), slots)

section Storage

variable [Storage S K] [LawfulStorage S K] {n : Nat} {held : Nat → Option K} {slots : S}

theorem reads_of_slotOf (sized : Storage.capacity slots = n) (holds : slotOf slots = held) :
    Reads n held slots := by
  intro index inside
  rw [Access.attempt_keyAt (sized ▸ inside), holds]

theorem Changes.reads {after : S} {index : Nat} {entry : Option K}
    (change : Changes slots after index entry) :
    Reads (Storage.capacity slots) (update (slotOf slots) index entry) after := by
  refine reads_of_slotOf change.capacity_eq (funext fun other => ?_)
  rw [change.slotOf_eq, Function.update_apply]

/-- That is so of every storage that began without keys and follows its laws. -/
theorem recallsWrites {empty : S} (sized : Storage.capacity empty = n)
    (vacant : slotOf empty = fun _ => none) (script : List (Access K)) :
    RecallsWrites n script (slotOf (Access.replay empty script).2)
      (Access.replay empty script).2 := by
  have left : Storage.capacity (Access.replay empty script).2 = n :=
    (kept_capacity n).replay sized script
  constructor
  case held_iff =>
    intro index inside key
    rw [Access.slotOf_replay_iff (sized ▸ inside), vacant]
    simp
  case keyAt => exact reads_of_slotOf left rfl
  case isOccupied =>
    intro index inside
    exact Access.attempt_isOccupied (left ▸ inside)
  case occupiedCount => rw [Access.attempt_occupiedCount, left]
  case capacity => rw [Access.attempt_capacity, left]
  case write =>
    intro index inside key
    obtain ⟨after, done, change⟩ := Access.attempt_write (left ▸ inside) key
    exact ⟨after, done, left ▸ change.reads⟩
  case clear =>
    intro index inside
    obtain ⟨after, done, change⟩ := Access.attempt_clear (left ▸ inside)
    exact ⟨after, done, left ▸ change.reads⟩
  case past =>
    intro access index about beyond
    rw [Access.attempt_past about (left ▸ beyond), left]

end Storage

/-- New optional and new flagged slots, as many of the one as of the other, answer every script of
calls alike. After it, both have in each slot the key of the last write to it, if no clear of it
came later. A read gives this key, a clear gives it too and empties this slot alone, a write puts a
new one in its place, a slot is occupied if it has one, and the count is the number of slots that
have one. A call on a slot past the end is a fault that tells the number of slots and the one asked
for, and leaves the storage as it was. -/
theorem storages_interchangeable [Placeholder K] (n : Nat) (script : List (Access K)) :
    (Access.replay (OptionalSlots.empty n : OptionalSlots K) script).1 =
        (Access.replay (FlaggedSlots.empty : FlaggedSlots K n) script).1 ∧
      ∃ held : Nat → Option K,
        RecallsWrites n script held
          (Access.replay (OptionalSlots.empty n : OptionalSlots K) script).2 ∧
        RecallsWrites n script held
          (Access.replay (FlaggedSlots.empty : FlaggedSlots K n) script).2 := by
  have sized := OptionalSlots.capacity_empty (K := K) n
  have vacant := OptionalSlots.slotOf_empty (K := K) n
  have vacantFlagged := FlaggedSlots.slotOf_empty (K := K) (n := n)
  have same : SameKeys (OptionalSlots.empty n : OptionalSlots K)
      (FlaggedSlots.empty : FlaggedSlots K n) := ⟨sized, vacant.trans vacantFlagged.symm⟩
  obtain ⟨answers, left⟩ := same.replay script
  refine ⟨answers, _, recallsWrites sized vacant script, ?_⟩
  rw [left.slotOf_eq]
  exact recallsWrites rfl vacantFlagged script

example : (Access.replay (FlaggedSlots.empty : FlaggedSlots Bool 2)
    [.write 1 false, .write 1 true, .clear 2, .keyAt 0, .clear 1, .isOccupied 1]).1 =
      [.ok .done, .ok .done, .error (.indexOutOfBounds 2 2), .ok (.held none),
        .ok (.held (some true)), .ok (.flag false)] := rfl

end SlotTable

import SlotTable.Proofs.Rules.Entries
import SlotTable.Proofs.Table.Trace
import SlotTable.Proofs.Table.Wraps

/-!
# No access past the end

Reducing a hash and reading or changing a slot are partial, and every operation composes them. On a
table that its constructor made nothing of this fails, whatever happened to the table before: homes,
the slots that a walk visits, the slots of all answers and those of every scan are below the
capacity, which stays what it was.
-/
namespace SlotTable

variable {T K S : Type}

/-- The slots that an answer names; of a rebuild, those of the table before it. -/
def Answer.slots : Answer K → List Nat
  | .slot index => index.toList
  | .entries content => content.map Prod.fst
  | .landing value => value.slot?.toList
  | .rebuilt moves => moves.map Prod.fst
  | _ => []

/-- A storage that can be read and changed below a capacity and nowhere else. -/
structure Fenced [Storage S K] (capacity : Nat) (slots : S) : Prop where
  capacity_eq : Storage.capacity slots = capacity
  keyAt_ok : ∀ index < capacity, ∃ held, Storage.keyAt slots index = .ok held
  isOccupied_ok : ∀ index < capacity, ∃ flag, Storage.isOccupied slots index = .ok flag
  write_ok : ∀ index < capacity, ∀ key, ∃ after, Storage.write slots index key = .ok after ∧
    Storage.capacity after = capacity
  clear_ok : ∀ index < capacity, ∃ held after, Storage.clear slots index = .ok (held, after) ∧
    Storage.capacity after = capacity
  outside : ∀ index, capacity ≤ index →
    Storage.keyAt slots index = .error (.indexOutOfBounds capacity index) ∧
    Storage.isOccupied slots index = .error (.indexOutOfBounds capacity index) ∧
    (∀ key, Storage.write slots index key = .error (.indexOutOfBounds capacity index)) ∧
    Storage.clear slots index = .error (.indexOutOfBounds capacity index)

/-- A table of this capacity on which every operation ends without a fault, but for the ones that
are listed, and names no slot past the end. An access past the end is a fault, and a fault ends the
operation, so an operation that ends without one has made no such access. -/
structure StaysInBounds [Storage S K] [LawfulStorage S K] [Table T K] [Ruled T K] [Wraps T K S]
    (capacity : Nat) (faults : List Fault) (table : T) : Prop where
  capacity_eq : KeyIndex.capacity table = capacity
  fenced : Fenced capacity (Wraps.core table).slots
  homes : ∀ hash : UInt64, ∃ start < capacity,
    home hash (Storage.capacity (Wraps.core table).slots) = .ok start ∧
    ∀ slot ∈ visitOrder start (Storage.capacity (Wraps.core table).slots), slot < capacity
  walks : ∀ (hash : UInt64) (matching : K → K → Bool) (key : K), ∃ walk,
    Walk.ofHash (Wraps.core table).slots matching hash key = .ok walk ∧
    ∀ slot, walk.landing.slot? = some slot → slot < capacity
  counted : ∃ count ≤ capacity, Storage.occupiedCount (Wraps.core table).slots = .ok count
  listed : ∃ entries, Storage.entries (Wraps.core table).slots = .ok entries ∧
    ∀ entry ∈ entries, entry.1 < capacity
  emptied : ∃ after, Storage.clearAll (Wraps.core table).slots = .ok after ∧
    Storage.capacity after = capacity
  located : ∀ (key : K) (limit : Threshold), ∃ landing,
    ((Wraps.core table).locate key).result limit = .ok landing ∧
    ∀ slot, landing.slot? = some slot → slot < capacity
  performed : ∀ (op : Op K) (route : Route) (limit : Threshold),
    (∃ answer after, (op.perform route table).result limit = .ok (answer, after) ∧
      ∀ slot ∈ answer.slots, slot < capacity) ∨
    ∃ fault ∈ faults, (op.perform route table).result limit = .error fault

section Access

variable [Storage S K] [LawfulStorage S K]

/-- That is what the laws of a storage say. -/
theorem fenced_capacity (slots : S) : Fenced (Storage.capacity slots) slots where
  capacity_eq := rfl
  keyAt_ok _ inside := ⟨_, keyAt_eq_slotOf inside⟩
  isOccupied_ok _ inside := ⟨_, isOccupied_eq_slotOf inside⟩
  write_ok _ inside key := by
    obtain ⟨after, written, change⟩ := write_changes inside key
    exact ⟨after, written, change.capacity_eq⟩
  clear_ok _ inside := by
    obtain ⟨after, emptied, change⟩ := clear_changes inside
    exact ⟨_, after, emptied, change.capacity_eq⟩
  outside _ past := ⟨keyAt_past past, isOccupied_past past, write_past past, clear_past past⟩

theorem home_inside (hash : UInt64) {capacity : Nat} (positive : 0 < capacity) :
    ∃ start < capacity, home hash capacity = .ok start :=
  ⟨_, homeIndex_lt hash positive, if_neg (Nat.ne_of_gt positive)⟩

/-- Every walk over a storage with slots ends, and inside the storage if it finds a slot. -/
theorem Walk.ofHash_inside (slots : S) (positive : 0 < Storage.capacity slots)
    (matching : K → K → Bool) (hash : UInt64) (key : K) :
    ∃ walk, Walk.ofHash slots matching hash key = .ok walk ∧
      ∀ slot, walk.landing.slot? = some slot → slot < Storage.capacity slots := by
  refine ⟨_, Walk.ofHash_eq slots positive matching hash key, fun slot stopped => ?_⟩
  dsimp only at stopped
  exact (Walk.mem_order hash positive).mp (Walk.mem_of_stop stopped)

end Access

namespace Rules

variable {rules : Rules K} {slots after : Slots K} {op : Op K} {answer : Answer K}

/-- Each slot that an answer names, a listing apart, is one at which a walk ends. -/
theorem landing_of_answer (performed : rules.perform slots op = .ok (answer, after))
    (unlisted : op ≠ .entries) :
    ∀ slot ∈ answer.slots, ∃ key, (rules.landing slots key).slot? = some slot := by
  intro slot member
  cases op with
  | insert key =>
    cases landed : rules.landing slots key with
    | exhausted =>
      rw [perform_insert_exhausted landed] at performed
      cases refusal : rules.refusal <;> rw [refusal] at performed <;> cases performed <;>
        exact absurd member List.not_mem_nil
    | vacant index =>
      rw [perform_insert_vacant landed] at performed
      cases performed
      exact ⟨key, by rw [landed, List.mem_singleton.mp member, Landing.slot?]⟩
    | occupied index =>
      rw [perform_insert_occupied landed] at performed
      cases performed
      exact ⟨key, by rw [landed, List.mem_singleton.mp member, Landing.slot?]⟩
  | erase key =>
    cases found : rules.indexOf slots key with
    | none =>
      rw [perform_erase_missed found] at performed
      cases performed
      exact absurd member List.not_mem_nil
    | some index =>
      have landed := indexOf_eq_some_iff.mp found
      rw [perform_erase_found landed] at performed
      cases performed
      exact ⟨key, by rw [landed, List.mem_singleton.mp member, Landing.slot?]⟩
  | slotFor key =>
    cases performed
    exact ⟨key, Option.mem_toList.mp member⟩
  | indexOf key =>
    cases performed
    exact ⟨key, by rw [indexOf_eq_some_iff.mp (Option.mem_toList.mp member), Landing.slot?]⟩
  | entries => exact absurd rfl unlisted
  | _ =>
    cases performed
    exact absurd member List.not_mem_nil

/-- No answer names a slot past the end. -/
theorem slots_lt (performed : rules.perform slots op = .ok (answer, after)) :
    ∀ slot ∈ answer.slots, slot < rules.capacity := by
  intro slot member
  by_cases lists : op = .entries
  · subst lists
    cases performed
    exact (mem_entries_map_fst.mp member).1
  · obtain ⟨key, landed⟩ := landing_of_answer performed lists slot member
    exact landing_slot_lt landed

end Rules

theorem Ruled.staysInBounds [Storage S K] [LawfulStorage S K] [Table T K] [Ruled T K] [Wraps T K S]
    {rules : Rules K} {slots : Slots K} {table : T} {faults : List Fault}
    (shows : Ruled.Shows rules slots table) (positive : 0 < rules.capacity)
    (listed : rules.refusal = .fatal → .slotsExhausted rules.capacity ∈ faults) :
    StaysInBounds rules.capacity faults table := by
  have inner := Wraps.shows_core shows
  have sized := inner.capacity_eq
  rw [← sized] at positive
  constructor
  case capacity_eq => exact Ruled.capacity shows
  case fenced =>
    rw [← sized]
    exact fenced_capacity _
  case homes =>
    intro hash
    obtain ⟨start, below, begins⟩ := home_inside hash positive
    refine ⟨start, sized ▸ below, begins, fun slot member => ?_⟩
    rw [← sized]
    exact (mem_visitOrder (Nat.le_of_lt below)).mp member
  case walks =>
    intro hash matching key
    rw [← sized]
    exact Walk.ofHash_inside _ positive matching hash key
  case counted => exact ⟨_, Rules.size_le rules slots, inner.size⟩
  case listed =>
    refine ⟨_, inner.entries, fun entry member => ?_⟩
    exact (Rules.mem_entries_map_fst.mp (List.mem_map_of_mem member)).1
  case emptied =>
    obtain ⟨after, emptied, kept, -⟩ := clearAll_empties (Wraps.core table).slots
    exact ⟨after, emptied, kept.trans sized⟩
  case located =>
    intro key limit
    exact ⟨_, inner.locate key, fun slot landed => Rules.landing_slot_lt landed⟩
  case performed =>
    intro op route limit
    cases ruled : rules.perform slots op with
    | ok pair =>
      obtain ⟨later, answered, -⟩ := Ruled.perform_ok shows ruled route limit
      exact .inl ⟨_, later, answered, Rules.slots_lt ruled⟩
    | error fault =>
      have fatal := Rules.fatal_of_error ruled
      rw [Rules.perform_error_eq ruled] at ruled
      exact .inr ⟨_, listed fatal, Ruled.perform_error shows ruled route limit⟩

/-- Every constructor with room for a slot makes a table. Whatever calls are made on it after, under
any hash and any match rule: it keeps its number of slots, no operation reduces a hash by zero or
reaches past the last slot, and none names a slot that is not there. Only an insert into a full
fixed table has no answer. No dynamic table without slots is ever made. -/
theorem stays_in_bounds (hash : K → UInt64) (matching : K → K → Bool) (history : History K) :
    (∀ (capacity : Nat), 0 < capacity →
      (∀ limit, ∃ fresh, (DynamicTable.create capacity hash matching).result limit = .ok fresh) ∧
      ∀ table, Trace (DynamicTable.create capacity hash matching) history table →
        StaysInBounds capacity [] table) ∧
    (∀ (n : Nat) [Placeholder K] (positive : 0 < n),
      (∀ limit, ∃ fresh, (FixedTable.create positive hash matching).result limit = .ok fresh) ∧
      ∀ table, Trace (FixedTable.create positive hash matching) history table →
        StaysInBounds n [.slotsExhausted n] table) ∧
    (∀ (S : Type) [Storage S K] [LawfulStorage S K] (given : S), 0 < Storage.capacity given →
      (∀ limit, ∃ fresh, (LinearTable.create given hash matching).result limit = .ok fresh) ∧
      ∀ table, Trace (LinearTable.create given hash matching) history table →
        StaysInBounds (Storage.capacity given) [] table) ∧
    (∀ limit, (DynamicTable.create 0 hash matching).run limit = ⟨[], .error .zeroCapacity⟩) ∧
    ∀ table, ¬ Trace (DynamicTable.create 0 hash matching) history table := by
  refine ⟨?_, ?_, ?_, fun _ => rfl, ?_⟩
  · intro capacity positive
    refine ⟨fun limit => ⟨_, DynamicTable.create_result positive hash matching limit⟩, ?_⟩
    intro table trace
    obtain ⟨_, slots, -, shows⟩ := DynamicTable.trace_run trace
    exact Ruled.staysInBounds shows positive fun fatal => by cases fatal
  · intro n _ positive
    refine ⟨fun limit => ⟨_, FixedTable.create_result positive hash matching limit⟩, ?_⟩
    intro table trace
    obtain ⟨slots, -, shows⟩ := FixedTable.trace_run trace
    exact Ruled.staysInBounds shows positive fun _ => List.mem_singleton_self _
  · intro S _ _ given positive
    refine ⟨fun limit => ⟨_, LinearTable.create_result positive hash matching limit⟩, ?_⟩
    intro table trace
    obtain ⟨_, slots, -, shows⟩ := LinearTable.trace_run trace
    exact Ruled.staysInBounds shows positive fun fatal => by cases fatal
  · intro table trace
    obtain ⟨positive, -⟩ := DynamicTable.trace_run trace
    exact absurd positive (Nat.lt_irrefl 0)

/-- The largest hash, on a fixed table that is full: the one fault that is left ends the program. -/
theorem stays_in_bounds_of_full_table :
    ∃ table : FixedTable (Option Bool) 2,
      Trace (FixedTable.create Nat.two_pos (fun _ => 18446744073709551615) fun a b => a == b)
        [(.insert none, .slot (some 0)), (.insert (some true), .slot (some 1)),
          (.isFull, .flag true)] table ∧
      StaysInBounds 2 [.slotsExhausted 2] table ∧
      ((Op.insert (some false)).perform .direct table).result .off =
        .error (.slotsExhausted 2) := by
  have created : Trace (FixedTable.create Nat.two_pos
      (fun _ : Option Bool => 18446744073709551615) fun a b => a == b) [] _ :=
    .created (FixedTable.create_result Nat.two_pos _ _ .off)
  have trace := created
    |>.step .direct (.insert none) .off rfl |>.step .direct (.insert (some true)) .off rfl
    |>.step .throughIndex .isFull .off rfl
  have bounded := ((stays_in_bounds _ _ _).2.1 2 Nat.two_pos).2 _ trace
  exact ⟨_, trace, bounded, rfl⟩

end SlotTable

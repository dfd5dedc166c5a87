import SlotTable.Proofs.Result
import SlotTable.Proofs.Rules.Landing

/-!
# Linear tables follow their rules

`LinearTable.Shows rules slots table` says that a table has these rules and these keys in its slots.
Each operation of such a table then ends as the rules say, without a fault, and the table after it
shows the slots after it. An operation that changes no slot returns the table itself.
-/
namespace SlotTable.LinearTable

open Function (update)

variable {K S : Type} [Storage S K] [LawfulStorage S K]

structure Shows (rules : Rules K) (slots : Slots K) (table : LinearTable K S) : Prop where
  capacity_eq : Storage.capacity table.slots = rules.capacity
  slotOf_eq : slotOf table.slots = slots
  home_eq : ∀ key, homeIndex (table.hash key) rules.capacity = rules.home key
  matching_eq : table.matching = rules.matching

variable {rules : Rules K} {slots : Slots K} {table : LinearTable K S} {limit : Threshold}

/-- A table whose storage was changed at one slot shows the change. -/
private theorem Shows.change (shows : Shows rules slots table) {after : S} {index : Nat}
    {entry : Option K} (change : Changes table.slots after index entry) :
    Shows rules (update slots index entry) { table with slots := after } where
  capacity_eq := change.capacity_eq.trans shows.capacity_eq
  slotOf_eq := by
    funext other
    rw [change.slotOf_eq, Function.update_apply, shows.slotOf_eq]
  home_eq := shows.home_eq
  matching_eq := shows.matching_eq

/-- The walk for a key ends, and it lands where the rules say. -/
theorem Shows.walk (shows : Shows rules slots table) (key : K) :
    ∃ walk, Walk.ofHash table.slots table.matching (table.hash key) key = .ok walk ∧
      walk.landing = rules.landing slots key := by
  have positive : 0 < Storage.capacity table.slots := by
    rw [shows.capacity_eq]
    exact Nat.zero_lt_of_lt (rules.home_lt key)
  refine ⟨_, Walk.ofHash_eq table.slots positive table.matching (table.hash key) key, ?_⟩
  unfold Walk.order
  rw [shows.capacity_eq, shows.home_eq, shows.slotOf_eq, shows.matching_eq]
  rfl

theorem Shows.locate (shows : Shows rules slots table) (key : K) :
    (table.locate key).result limit = .ok (rules.landing slots key) := by
  obtain ⟨walk, walked, landed⟩ := shows.walk key
  simp only [LinearTable.locate, Logged.result_bind, Logged.result_lift, walked, ok_bind,
    Logged.result_emit, Logged.result_pure, landed]

section Insert

variable {key : K} {index : Nat}

theorem Shows.insert_vacant (shows : Shows rules slots table)
    (landed : rules.landing slots key = .vacant index) (limit : Threshold) :
    ∃ after, (table.insert key).result limit = .ok (some index, after) ∧
      Shows rules (update slots index (some key)) after := by
  have inside : index < Storage.capacity table.slots := by
    rw [shows.capacity_eq]
    exact (Rules.landing_eq_vacant_iff.mp landed).1.1
  obtain ⟨after, written, change⟩ := write_changes inside key
  refine ⟨{ table with slots := after }, ?_, shows.change change⟩
  simp only [LinearTable.insert, Logged.result_bind, shows.locate, landed, ok_bind,
    Logged.result_lift, written]
  rfl

theorem Shows.insert_occupied (shows : Shows rules slots table)
    (landed : rules.landing slots key = .occupied index) :
    (table.insert key).result limit = .ok (some index, table) := by
  simp only [LinearTable.insert, Logged.result_bind, shows.locate, landed, ok_bind]
  rfl

theorem Shows.insert_exhausted (shows : Shows rules slots table)
    (landed : rules.landing slots key = .exhausted) :
    (table.insert key).result limit = .ok (none, table) := by
  simp only [LinearTable.insert, Logged.result_bind, shows.locate, landed, ok_bind]
  rfl

theorem Shows.erase_occupied (shows : Shows rules slots table)
    (landed : rules.landing slots key = .occupied index) (limit : Threshold) :
    ∃ after, (table.erase key).result limit = .ok (some index, after) ∧
      Shows rules (update slots index none) after := by
  have inside : index < Storage.capacity table.slots := by
    rw [shows.capacity_eq]
    exact (Rules.landing_eq_occupied_iff.mp landed).1.1
  obtain ⟨after, emptied, change⟩ := clear_changes inside
  refine ⟨{ table with slots := after }, ?_, shows.change change⟩
  simp only [LinearTable.erase, Logged.result_bind, shows.locate, landed, ok_bind,
    Logged.result_lift, emptied]
  rfl

theorem Shows.erase_missed (shows : Shows rules slots table)
    (missed : rules.indexOf slots key = none) :
    (table.erase key).result limit = .ok (none, table) := by
  simp only [LinearTable.erase, Logged.result_bind, shows.locate, ok_bind]
  cases landed : rules.landing slots key with
  | vacant slot => rfl
  | occupied slot => simp [Rules.indexOf, landed] at missed
  | exhausted => rfl

end Insert

theorem Shows.slotFor (shows : Shows rules slots table) (key : K) :
    (table.slotFor? key).result limit = .ok (rules.landing slots key).slot? := by
  simp only [LinearTable.slotFor?, Logged.result_bind, shows.locate, ok_bind]
  rfl

theorem Shows.indexOf (shows : Shows rules slots table) (key : K) :
    (table.indexOf? key).result limit = .ok (rules.indexOf slots key) := by
  simp only [LinearTable.indexOf?, Logged.result_bind, shows.locate, ok_bind, Rules.indexOf]
  cases rules.landing slots key <;> rfl

theorem Shows.contains (shows : Shows rules slots table) (key : K) :
    (table.contains key).result limit = .ok (rules.contains slots key) := by
  simp only [LinearTable.contains, Logged.result_bind, shows.locate, ok_bind]
  rfl

theorem Shows.size (shows : Shows rules slots table) : table.size = .ok (rules.size slots) := by
  rw [LinearTable.size, occupiedCount_eq, shows.capacity_eq, shows.slotOf_eq]
  rfl

theorem Shows.entries (shows : Shows rules slots table) :
    table.entries = .ok (rules.entries slots) := by
  rw [LinearTable.entries, entries_eq, shows.capacity_eq, shows.slotOf_eq]
  rfl

theorem Shows.clear (shows : Shows rules slots table) (limit : Threshold) :
    ∃ after, table.clear.result limit = .ok after ∧ Shows rules (fun _ => none) after := by
  obtain ⟨after, emptied, capacity, empty⟩ := clearAll_empties table.slots
  refine ⟨{ table with slots := after }, ?_, ?_⟩
  · simp only [LinearTable.clear, Logged.result_bind, Logged.result_lift, emptied, ok_bind]
    rfl
  · exact ⟨capacity.trans shows.capacity_eq, funext empty, shows.home_eq, shows.matching_eq⟩

end SlotTable.LinearTable

import SlotTable.Proofs.Result
import SlotTable.Proofs.Rules.Landing

/-!
# Ruled tables

A kind of table is ruled when each of its operations ends as the rules say. That is asked of the
shared operations, of inserting and of listing; `perform_ok` and `perform_error` then follow for
every call by either route: a call on the slots is answered by the table in the same way, and a call
that changes no slot, clearing apart, returns the table itself.
-/
namespace SlotTable

open Function (update)

variable {T K : Type}

class Ruled (T : Type) (K : outParam Type) [Table T K] where
  /-- The table has these rules and these keys in its slots. -/
  Shows : Rules K → Slots K → T → Prop
  own_eq : (Table.own : Interface T K) = KeyIndex.interface
  slotFor {rules : Rules K} {slots : Slots K} {table : T} (shows : Shows rules slots table)
    (key : K) (limit : Threshold) :
    (KeyIndex.slotFor? table key).result limit = .ok (rules.landing slots key).slot?
  indexOf {rules : Rules K} {slots : Slots K} {table : T} (shows : Shows rules slots table)
    (key : K) (limit : Threshold) :
    (KeyIndex.indexOf? table key).result limit = .ok (rules.indexOf slots key)
  contains {rules : Rules K} {slots : Slots K} {table : T} (shows : Shows rules slots table)
    (key : K) (limit : Threshold) :
    (KeyIndex.contains table key).result limit = .ok (rules.contains slots key)
  erase_occupied {rules : Rules K} {slots : Slots K} {table : T} {key : K} {index : Nat}
    (shows : Shows rules slots table) (landed : rules.landing slots key = .occupied index)
    (limit : Threshold) :
    ∃ after, (KeyIndex.erase table key).result limit = .ok (some index, after) ∧
      Shows rules (update slots index none) after
  erase_missed {rules : Rules K} {slots : Slots K} {table : T} {key : K}
    (shows : Shows rules slots table) (missed : rules.indexOf slots key = none)
    (limit : Threshold) : (KeyIndex.erase table key).result limit = .ok (none, table)
  size {rules : Rules K} {slots : Slots K} {table : T} (shows : Shows rules slots table) :
    KeyIndex.size table = .ok (rules.size slots)
  capacity {rules : Rules K} {slots : Slots K} {table : T} (shows : Shows rules slots table) :
    KeyIndex.capacity table = rules.capacity
  clear {rules : Rules K} {slots : Slots K} {table : T} (shows : Shows rules slots table)
    (limit : Threshold) :
    ∃ after, (KeyIndex.clear table).result limit = .ok after ∧ Shows rules (fun _ => none) after
  insert_vacant {rules : Rules K} {slots : Slots K} {table : T} {key : K} {index : Nat}
    (shows : Shows rules slots table) (landed : rules.landing slots key = .vacant index)
    (limit : Threshold) :
    ∃ after, (Table.insert table key).result limit = .ok (.slot (some index), after) ∧
      Shows rules (update slots index (some key)) after
  insert_occupied {rules : Rules K} {slots : Slots K} {table : T} {key : K} {index : Nat}
    (shows : Shows rules slots table) (landed : rules.landing slots key = .occupied index)
    (limit : Threshold) : (Table.insert table key).result limit = .ok (.slot (some index), table)
  insert_exhausted {rules : Rules K} {slots : Slots K} {table : T} {key : K}
    (shows : Shows rules slots table) (landed : rules.landing slots key = .exhausted)
    (limit : Threshold) :
    (Table.insert table key).result limit =
      (rules.refusal.answer rules.capacity).map fun answer => (answer, table)
  entries {rules : Rules K} {slots : Slots K} {table : T} (shows : Shows rules slots table) :
    Table.entries table = .ok (rules.entries slots)

namespace Ruled

variable [Table T K] [Ruled T K] {rules : Rules K} {slots after : Slots K} {table : T} {op : Op K}
  {answer : Answer K}

/-- Both routes lead to the same operations. -/
theorem perform_eq (route : Route) (op : Op K) (table : T) :
    op.perform route table = Op.performOn KeyIndex.interface table op := by
  cases route with
  | direct => rw [Op.perform, own_eq]
  | throughIndex => rfl

theorem perform_ok (shows : Shows rules slots table)
    (performed : rules.perform slots op = .ok (answer, after)) (route : Route)
    (limit : Threshold) :
    ∃ later, (op.perform route table).result limit = .ok (answer, later) ∧
      Shows rules after later ∧ (op.isClear = false → after = slots → later = table) := by
  rw [perform_eq]
  cases op with
  | insert key =>
    simp only [Rules.perform] at performed
    cases landed : rules.landing slots key with
    | vacant index =>
      rw [landed] at performed
      cases performed
      obtain ⟨later, inserted, shown⟩ := insert_vacant shows landed limit
      refine ⟨later, inserted, shown, fun _ unchanged => ?_⟩
      have filled := congrFun unchanged index
      rw [Function.update_self, (Rules.landing_eq_vacant_iff.mp landed).2] at filled
      cases filled
    | occupied index =>
      rw [landed] at performed
      cases performed
      exact ⟨table, insert_occupied shows landed limit, shows, fun _ _ => rfl⟩
    | exhausted =>
      simp only [landed] at performed
      have refused := insert_exhausted shows landed limit
      cases answered : (rules.refusal.answer rules.capacity : Except Fault (Answer K)) with
      | error fault => simp [answered, Except.map] at performed
      | ok refusal =>
        rw [answered] at performed refused
        cases performed
        exact ⟨table, refused, shows, fun _ _ => rfl⟩
  | erase key =>
    cases found : rules.indexOf slots key with
    | none =>
      rw [Rules.perform_erase_missed found] at performed
      cases performed
      refine ⟨table, ?_, shows, fun _ _ => rfl⟩
      simp only [Op.performOn, KeyIndex.interface, Logged.result_bind, erase_missed shows found,
        ok_bind, Logged.result_pure]
    | some index =>
      have landed := Rules.indexOf_eq_some_iff.mp found
      rw [Rules.perform_erase_found landed] at performed
      cases performed
      obtain ⟨later, erased, shown⟩ := erase_occupied shows landed limit
      refine ⟨later, ?_, shown, fun _ unchanged => ?_⟩
      · simp only [Op.performOn, KeyIndex.interface, Logged.result_bind, erased, ok_bind,
          Logged.result_pure]
      · have emptied := congrFun unchanged index
        rw [Function.update_self] at emptied
        exact absurd emptied.symm (Rules.landing_eq_occupied_iff.mp landed).2.ne_none
  | clear =>
    cases performed
    obtain ⟨later, cleared, shown⟩ := clear shows limit
    refine ⟨later, ?_, shown, fun clears => by cases clears⟩
    simp only [Op.performOn, KeyIndex.interface, Logged.result_bind, cleared, ok_bind,
      Logged.result_pure]
  | _ =>
    cases performed
    refine ⟨table, ?_, shows, fun _ _ => rfl⟩
    simp only [Op.performOn, KeyIndex.interface, KeyIndex.count, KeyIndex.isEmpty, KeyIndex.isFull,
      Logged.result_bind, Logged.result_lift, Logged.result_pure, slotFor shows, indexOf shows,
      contains shows, size shows, capacity shows, entries shows, ok_bind, pure_bind]

/-- Only an insert without room is left without an answer. -/
theorem perform_error {fault : Fault} (shows : Shows rules slots table)
    (performed : rules.perform slots op = .error fault) (route : Route) (limit : Threshold) :
    (op.perform route table).result limit = .error fault := by
  rw [perform_eq]
  cases op with
  | insert key =>
    simp only [Rules.perform] at performed
    cases landed : rules.landing slots key with
    | vacant index => simp [landed] at performed
    | occupied index => simp [landed] at performed
    | exhausted =>
      simp only [landed] at performed
      have refused := insert_exhausted shows landed limit
      cases answered : (rules.refusal.answer rules.capacity : Except Fault (Answer K)) with
      | ok refusal => simp [answered, Except.map] at performed
      | error cause =>
        rw [answered] at performed refused
        cases performed
        exact refused
  | erase key =>
    simp only [Rules.perform] at performed
    cases landed : rules.landing slots key <;> simp [landed] at performed
  | _ => cases performed

/-- A call that a table answered is one that the rules answer in the same way. -/
theorem perform_of_ok {later : T} {route : Route} {limit : Threshold}
    (shows : Shows rules slots table)
    (performed : (op.perform route table).result limit = .ok (answer, later)) :
    ∃ after, rules.perform slots op = .ok (answer, after) ∧ Shows rules after later ∧
      (op.isClear = false → after = slots → later = table) := by
  cases ruled : rules.perform slots op with
  | error fault =>
    rw [perform_error shows ruled] at performed
    cases performed
  | ok pair =>
    obtain ⟨left, answered, shown, same⟩ := perform_ok shows ruled route limit
    rw [answered] at performed
    cases performed
    exact ⟨pair.2, rfl, shown, same⟩

/-- A call that a table did not answer is one that the rules do not answer. -/
theorem perform_of_error {fault : Fault} {route : Route} {limit : Threshold}
    (shows : Shows rules slots table)
    (performed : (op.perform route table).result limit = .error fault) :
    rules.perform slots op = .error fault := by
  cases ruled : rules.perform slots op with
  | error cause =>
    rw [perform_error shows ruled] at performed
    cases performed
    rfl
  | ok pair =>
    obtain ⟨left, answered, -⟩ := perform_ok shows ruled route limit
    rw [answered] at performed
    cases performed

end Ruled

end SlotTable

import SlotTable.Proofs.Rules.Gather
import SlotTable.Proofs.Table.Core

/-!
# Rebuilding a dynamic table

A table is rebuilt under the hash and the match rule that it was made with, since no call changes
them. Inserting a list of keys leaves the slots that `Rules.storeAll` says. Under lawful rules the
answer to each insert can be read off the slots at the end: what one insert finds, the later ones
leave in place.
-/
namespace SlotTable

variable {K : Type}

namespace Rules

variable {rules : Rules K} {slots : Slots K} {key : K}

/-- What the insert of a key was answered, read off the slots after it. -/
def verdict (rules : Rules K) (slots : Slots K) (key : K) : Except InsertError Nat :=
  match rules.indexOf slots key with
  | some index => .ok index
  | none => .error (.full rules.capacity)

theorem verdict_found {index : Nat} (found : rules.indexOf slots key = some index) :
    rules.verdict slots key = .ok index := by
  rw [verdict, found]

theorem verdict_missed (missed : rules.indexOf slots key = none) :
    rules.verdict slots key = .error (.full rules.capacity) := by
  rw [verdict, missed]

/-- Matching keys are answered alike. -/
theorem Lawful.verdict_congr (lawful : rules.Lawful) (slots : Slots K) {a b : K}
    (equal : rules.matching a b = true) : rules.verdict slots a = rules.verdict slots b := by
  simp only [verdict, indexOf, lawful.landing_congr slots equal]

end Rules

namespace DynamicTable

variable {rules : Rules K} {slots : Slots K} {table : DynamicTable K}

theorem insert_result (lawful : rules.Lawful) (shows : Ruled.Shows rules slots table) (key : K)
    (limit : Threshold) :
    ∃ later, (table.insert key).result limit =
        .ok (rules.verdict (rules.store slots key) key, later) ∧
      Ruled.Shows rules (rules.store slots key) later := by
  cases landed : rules.landing slots key with
  | vacant index =>
    obtain ⟨core, inserted, shown⟩ := shows.1.insert_vacant landed limit
    rw [Rules.store_vacant landed,
      Rules.verdict_found (Rules.indexOf_eq_some_iff.mpr (lawful.landing_stored landed))]
    refine ⟨⟨core⟩, ?_, shown, shows.2⟩
    simp only [DynamicTable.insert, Logged.result_bind, inserted, ok_bind, Logged.result_pure]
  | occupied index =>
    rw [Rules.store_occupied landed, Rules.verdict_found (Rules.indexOf_eq_some_iff.mpr landed)]
    refine ⟨table, ?_, shows⟩
    simp only [DynamicTable.insert, Logged.result_bind, shows.1.insert_occupied landed, ok_bind,
      Logged.result_pure]
  | exhausted =>
    have missed : rules.indexOf slots key = none := by rw [Rules.indexOf, landed]
    rw [Rules.store_exhausted landed, Rules.verdict_missed missed]
    refine ⟨table, ?_, shows⟩
    simp only [DynamicTable.insert, Logged.result_bind, shows.1.insert_exhausted landed, ok_bind,
      Logged.result_emit, Logged.result_pure, LinearTable.capacity, shows.1.capacity_eq]

/-- The slots at the end tell the answer to every insert: later inserts move nothing. -/
theorem insertAll_result (lawful : rules.Lawful) (shows : Ruled.Shows rules slots table)
    (keys : List K) (limit : Threshold) :
    ∃ later, (table.insertAll keys).result limit =
        .ok (keys.map (rules.verdict (rules.storeAll slots keys)), later) ∧
      Ruled.Shows rules (rules.storeAll slots keys) later := by
  induction keys generalizing table slots with
  | nil => exact ⟨table, rfl, shows⟩
  | cons key rest ih =>
    obtain ⟨middle, inserted, shown⟩ := insert_result lawful shows key limit
    obtain ⟨later, answered, final⟩ := ih shown
    -- its own insert settles the first key, so the inserts after it do not change its answer
    have settled := (Rules.settled_store lawful slots key).landing_storeAll rest
    have kept : rules.verdict (rules.store slots key) key =
        rules.verdict (rules.storeAll slots (key :: rest)) key := by
      simp only [Rules.verdict, Rules.indexOf, ← settled]
      rfl
    refine ⟨later, ?_, final⟩
    simp only [insertAll, Logged.result_bind, inserted, answered, ok_bind, Logged.result_pure,
      List.map_cons, kept]
    rfl

/-- Inserting a list of keys is inserting them one after the other. -/
theorem insertAll_inserted {create : Logged (DynamicTable K)} {earlier keys : List K}
    {answers : List (Except InsertError Nat)} {after : DynamicTable K} {limit : Threshold}
    (before : Inserted create earlier table)
    (inserted : (table.insertAll keys).result limit = .ok (answers, after)) :
    Inserted create (earlier ++ keys) after := by
  induction keys generalizing table earlier answers with
  | nil =>
    cases inserted
    rw [List.append_nil]
    exact before
  | cons key rest ih =>
    simp only [insertAll, Logged.result_bind_eq_ok] at inserted
    obtain ⟨⟨answer, middle⟩, first, ⟨others, last⟩, tail, inserted⟩ := inserted
    cases inserted
    have performed : ∃ reply, ((Op.insert key).perform .direct table).result limit =
        .ok (reply, middle) := by
      simp only [Op.perform, Op.performOn, Table.insert, Logged.result_bind, first, ok_bind]
      cases answer <;> exact ⟨_, rfl⟩
    obtain ⟨reply, performed⟩ := performed
    rw [List.append_cons]
    exact ih (before.snoc performed) tail

theorem rebuild_result {capacity : Nat} {fresh : DynamicTable K} {listed : List (Nat × K)}
    {limit : Threshold} (lawful : rules.Lawful) (lists : table.entries = .ok listed)
    (created : (create capacity table.core.hash table.core.matching).result limit = .ok fresh)
    (shows : Ruled.Shows rules (fun _ => none) fresh) :
    ∃ rebuilt, (table.rebuild capacity).result limit =
        .ok (listed.map fun entry => (entry.1,
          rules.verdict (rules.storeAll (fun _ => none) (listed.map Prod.snd)) entry.2), rebuilt) ∧
      Inserted (create capacity table.core.hash table.core.matching) (listed.map Prod.snd) rebuilt ∧
      Ruled.Shows rules (rules.storeAll (fun _ => none) (listed.map Prod.snd)) rebuilt := by
  obtain ⟨rebuilt, inserted, shown⟩ := insertAll_result lawful shows (listed.map Prod.snd) limit
  have new : Inserted (create capacity table.core.hash table.core.matching) [] fresh :=
    ⟨[], rfl, .created created⟩
  refine ⟨rebuilt, ?_, insertAll_inserted new inserted, shown⟩
  simp only [rebuild, Logged.result_bind, Logged.result_lift, lists, created, inserted, ok_bind,
    Logged.result_pure, List.map_map, List.zip_map', Function.comp_apply]

end DynamicTable

end SlotTable

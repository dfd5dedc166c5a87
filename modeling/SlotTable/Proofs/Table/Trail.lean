import SlotTable.Proofs.Rules.Entries
import SlotTable.Proofs.Table.Wraps

/-!
# What a call writes into the log

At the trace level a call on a key first reports the walk for it, then the slot that it changed, if
any, and then remarks; a call without a key reports no walk (`perform_trail`). The report of a
change is true of the slots before it, and replaying it gives the slots after it (`replay?_marks`).
-/
namespace SlotTable

variable {T K S : Type}

/-- The key that a call is about. -/
def Op.key? : Op K → Option K
  | .insert key => some key
  | .erase key => some key
  | .slotFor key => some key
  | .indexOf key => some key
  | .contains key => some key
  | .count key => some key
  | _ => none

namespace Rules

variable {rules : Rules K} {slots after : Slots K} {op : Op K} {answer : Answer K}

def occupied (rules : Rules K) (slots : Slots K) : Finset Nat :=
  ((rules.entries slots).map Prod.fst).toFinset

theorem mem_occupied {index : Nat} :
    index ∈ rules.occupied slots ↔ index < rules.capacity ∧ slots index ≠ none := by
  rw [occupied, List.mem_toFinset, mem_entries_map_fst]

/-- The report of the walk for the key of a call, if it has one. -/
def probes (rules : Rules K) (hash : K → UInt64) (slots : Slots K) (op : Op K) : List Event :=
  (op.key?.map fun key => Event.probed (hash key) rules.capacity (rules.landing slots key)).toList

theorem probes_of_key {key : K} (keyed : op.key? = some key) (hash : K → UInt64)
    (slots : Slots K) :
    rules.probes hash slots op =
      [.probed (hash key) rules.capacity (rules.landing slots key)] := by
  rw [probes, keyed]
  rfl

/-- The report of what a call does to the slots. -/
def marks (rules : Rules K) (slots : Slots K) : Op K → List Event
  | .insert key =>
    match rules.landing slots key with
    | .vacant index => [.inserted index]
    | _ => []
  | .erase key =>
    match rules.landing slots key with
    | .occupied index => [.erased index]
    | _ => []
  | .clear => [.cleared rules.capacity]
  | _ => []

theorem occupied_empty (rules : Rules K) : rules.occupied (fun _ => none) = ∅ := by
  rw [occupied, entries_empty]
  rfl

theorem occupied_update_some {index : Nat} (inside : index < rules.capacity) (key : K) :
    rules.occupied (Function.update slots index (some key)) =
      insert index (rules.occupied slots) := by
  ext slot
  rw [Finset.mem_insert, mem_occupied, mem_occupied]
  by_cases same : slot = index
  · subst slot
    simp [inside]
  · simp [same]

theorem occupied_update_none (index : Nat) :
    rules.occupied (Function.update slots index none) = (rules.occupied slots).erase index := by
  ext slot
  rw [Finset.mem_erase, mem_occupied, mem_occupied]
  by_cases same : slot = index
  · subst slot
    simp
  · simp [same]

theorem replay?_marks (performed : rules.perform slots op = .ok (answer, after)) :
    replay? (rules.occupied slots) (rules.marks slots op) = some (rules.occupied after) := by
  cases op with
  | insert key =>
    cases landed : rules.landing slots key with
    | vacant index =>
      rw [perform_insert_vacant landed] at performed
      cases performed
      obtain ⟨reached, empty⟩ := landing_eq_vacant_iff.mp landed
      have free : index ∉ rules.occupied slots := fun member => (mem_occupied.mp member).2 empty
      simp only [marks, landed]
      rw [replay?_cons (Event.mark?_inserted free), occupied_update_some reached.1]
      rfl
    | occupied index =>
      rw [perform_insert_occupied landed] at performed
      cases performed
      simp only [marks, landed]
      rfl
    | exhausted =>
      rw [perform_insert_exhausted landed] at performed
      simp only [marks, landed]
      cases refusal : rules.refusal <;> rw [refusal] at performed <;> cases performed <;> rfl
  | erase key =>
    cases landed : rules.landing slots key with
    | occupied index =>
      rw [perform_erase_found landed] at performed
      cases performed
      obtain ⟨reached, found⟩ := landing_eq_occupied_iff.mp landed
      have present : index ∈ rules.occupied slots := mem_occupied.mpr ⟨reached.1, found.ne_none⟩
      simp only [marks, landed]
      rw [replay?_cons (Event.mark?_erased present), occupied_update_none]
      rfl
    | _ =>
      have missed : rules.indexOf slots key = none := by rw [indexOf, landed]
      rw [perform_erase_missed missed] at performed
      cases performed
      simp only [marks, landed]
      rfl
  | clear =>
    cases performed
    rw [occupied, occupied, entries_empty]
    rfl
  | _ =>
    cases performed
    rfl

/-- A call that ends the program has changed nothing. -/
theorem marks_of_error {fault : Fault} (performed : rules.perform slots op = .error fault) :
    rules.marks slots op = [] := by
  cases op with
  | insert key =>
    cases landed : rules.landing slots key with
    | vacant index =>
      rw [perform_insert_vacant landed] at performed
      cases performed
    | _ => simp only [marks, landed]
  | erase key =>
    cases found : rules.indexOf slots key with
    | none =>
      rw [perform_erase_missed found] at performed
      cases performed
    | some index =>
      rw [perform_erase_found (indexOf_eq_some_iff.mp found)] at performed
      cases performed
  | _ => cases performed

theorem mark?_of_mem_probes {hash : K → UInt64} {event : Event}
    (member : event ∈ rules.probes hash slots op) (start : Finset Nat) :
    event.mark? start = some start := by
  simp only [probes, Option.mem_toList, Option.map_eq_some_iff] at member
  obtain ⟨key, -, rfl⟩ := member
  rfl

theorem isProbe_of_mem_marks {event : Event} (member : event ∈ rules.marks slots op) :
    event.isProbe = false := by
  cases op with
  | insert key =>
    simp only [marks] at member
    split at member
    · rw [List.mem_singleton.mp member]
      rfl
    · exact absurd member List.not_mem_nil
  | erase key =>
    simp only [marks] at member
    split at member
    · rw [List.mem_singleton.mp member]
      rfl
    · exact absurd member List.not_mem_nil
  | clear =>
    rw [List.mem_singleton.mp member]
    rfl
  | _ => exact absurd member List.not_mem_nil

/-- Replaying all that an answered call writes gives the slots after it. -/
theorem replay?_trail (performed : rules.perform slots op = .ok (answer, after))
    (hash : K → UInt64) {remarks : List Event}
    (remarked : ∀ event ∈ remarks, event.isRemark = true) :
    replay? (rules.occupied slots) (rules.probes hash slots op ++ rules.marks slots op ++ remarks) =
      some (rules.occupied after) := by
  have walked : replay? (rules.occupied slots) (rules.probes hash slots op) =
      some (rules.occupied slots) :=
    replay?_of_unmarked fun _ member start => mark?_of_mem_probes member start
  rw [List.append_assoc, replay?_append walked, replay?_append (replay?_marks performed)]
  exact replay?_remarks remarked

end Rules

namespace LinearTable

variable [Storage S K] [LawfulStorage S K] {rules : Rules K} {slots : Slots K}
  {table : LinearTable K S}

theorem Shows.locate_trail (shows : Shows rules slots table) (key : K) :
    (table.locate key).trail =
      [.probed (table.hash key) rules.capacity (rules.landing slots key)] := by
  obtain ⟨walk, walked, landed⟩ := shows.walk key
  rw [LinearTable.locate, walked, Logged.trail_bind_ok (Logged.result_lift ..), Logged.trail_lift,
    Logged.trail_bind_ok (Logged.result_emit ..), Logged.trail_emit, Logged.trail_pure, landed,
    LinearTable.capacity, shows.capacity_eq]
  rfl

theorem Shows.insert_trail (shows : Shows rules slots table) (key : K) :
    (table.insert key).trail =
      rules.probes table.hash slots (.insert key) ++ rules.marks slots (.insert key) := by
  rw [LinearTable.insert, Logged.trail_bind_ok (shows.locate key), shows.locate_trail,
    Rules.probes_of_key rfl]
  cases landed : rules.landing slots key with
  | vacant index =>
    have inside : index < Storage.capacity table.slots := by
      rw [shows.capacity_eq]
      exact (Rules.landing_eq_vacant_iff.mp landed).1.1
    obtain ⟨after, written, -⟩ := write_changes inside key
    simp only [written, Rules.marks, landed]
    rfl
  | _ =>
    simp only [Rules.marks, landed]
    rfl

theorem Shows.erase_trail (shows : Shows rules slots table) (key : K) :
    (table.erase key).trail =
      rules.probes table.hash slots (.erase key) ++ rules.marks slots (.erase key) := by
  rw [LinearTable.erase, Logged.trail_bind_ok (shows.locate key), shows.locate_trail,
    Rules.probes_of_key rfl]
  cases landed : rules.landing slots key with
  | occupied index =>
    have inside : index < Storage.capacity table.slots := by
      rw [shows.capacity_eq]
      exact (Rules.landing_eq_occupied_iff.mp landed).1.1
    obtain ⟨after, emptied, -⟩ := clear_changes inside
    simp only [emptied, Rules.marks, landed]
    rfl
  | _ =>
    simp only [Rules.marks, landed]
    rfl

theorem Shows.slotFor_trail (shows : Shows rules slots table) (key : K) :
    (table.slotFor? key).trail = rules.probes table.hash slots (.slotFor key) := by
  rw [LinearTable.slotFor?, Logged.trail_bind_silent fun _ => rfl, shows.locate_trail]
  rfl

theorem Shows.indexOf_trail (shows : Shows rules slots table) (key : K) :
    (table.indexOf? key).trail = rules.probes table.hash slots (.indexOf key) := by
  rw [LinearTable.indexOf?, Logged.trail_bind_silent, shows.locate_trail]
  · rfl
  · intro landing
    cases landing <;> rfl

theorem Shows.contains_trail (shows : Shows rules slots table) (key : K) :
    (table.contains key).trail = rules.probes table.hash slots (.contains key) := by
  rw [LinearTable.contains, Logged.trail_bind_silent fun _ => rfl, shows.locate_trail]
  rfl

theorem Shows.clear_trail (shows : Shows rules slots table) :
    table.clear.trail = [.cleared rules.capacity] := by
  obtain ⟨after, emptied, capacity, -⟩ := clearAll_empties table.slots
  rw [LinearTable.clear, emptied, Logged.trail_bind_ok (Logged.result_lift ..), Logged.trail_lift,
    Logged.trail_bind_ok (Logged.result_emit ..), Logged.trail_emit, capacity, shows.capacity_eq]
  rfl

end LinearTable

namespace Wraps

variable [Storage S K] [LawfulStorage S K] [Table T K] [Ruled T K] [Wraps T K S]
  {rules : Rules K} {slots : Slots K} {table : T}

theorem insert_trail (shows : Ruled.Shows rules slots table) (key : K) :
    ∃ remarks, (∀ event ∈ remarks, event.isRemark = true) ∧
      (Table.insert table key).trail = rules.probes (core table).hash slots (.insert key) ++
        rules.marks slots (.insert key) ++ remarks := by
  have inner := shows_core shows
  rw [insert_eq, ← inner.insert_trail key]
  have silent : ∀ event ∈ ([] : List Event), event.isRemark = true := by simp
  cases landed : rules.landing slots key with
  | vacant index =>
    obtain ⟨after, inserted, -⟩ := inner.insert_vacant landed (.upTo .trace)
    exact ⟨[], silent, Logged.trail_bind_ok inserted⟩
  | occupied index =>
    exact ⟨[], silent, Logged.trail_bind_ok (inner.insert_occupied landed)⟩
  | exhausted =>
    exact ⟨(refuse (core table)).trail, refuse_remarks _,
      Logged.trail_bind_ok (inner.insert_exhausted landed)⟩

include S in
theorem clear_trail (shows : Ruled.Shows rules slots table) :
    ∃ remarks, (∀ event ∈ remarks, event.isRemark = true) ∧
      (KeyIndex.clear table).trail = rules.marks slots .clear ++ remarks := by
  have inner := shows_core shows
  obtain ⟨after, cleared, -⟩ := inner.clear (.upTo .trace)
  refine ⟨(settle after : Logged T).trail, settle_remarks after, ?_⟩
  rw [clear_eq, Logged.trail_bind_ok cleared, inner.clear_trail]
  rfl

theorem perform_trail (shows : Ruled.Shows rules slots table) (route : Route) (op : Op K) :
    ∃ remarks, (∀ event ∈ remarks, event.isRemark = true) ∧
      (op.perform route table).trail =
        rules.probes (core table).hash slots op ++ rules.marks slots op ++ remarks := by
  have inner := shows_core shows
  have silent : ∀ event ∈ ([] : List Event), event.isRemark = true := by simp
  rw [Ruled.perform_eq]
  cases op with
  | insert key => exact insert_trail shows key
  | clear =>
    obtain ⟨remarks, remarked, trail⟩ := clear_trail shows
    refine ⟨remarks, remarked, ?_⟩
    rw [Op.performOn, Logged.trail_bind_silent fun _ => rfl]
    exact trail
  | erase key =>
    refine ⟨[], silent, ?_⟩
    rw [List.append_nil, ← inner.erase_trail key, Op.performOn,
      Logged.trail_bind_silent fun _ => rfl]
    simp only [KeyIndex.interface, erase_eq]
    exact Logged.trail_bind_silent fun _ => rfl
  | slotFor key =>
    refine ⟨[], silent, ?_⟩
    rw [Op.performOn, Logged.trail_bind_silent fun _ => rfl]
    simp only [KeyIndex.interface, slotFor_eq, inner.slotFor_trail, Rules.marks, List.append_nil]
  | indexOf key =>
    refine ⟨[], silent, ?_⟩
    rw [Op.performOn, Logged.trail_bind_silent fun _ => rfl]
    simp only [KeyIndex.interface, indexOf_eq, inner.indexOf_trail, Rules.marks, List.append_nil]
  | contains key =>
    refine ⟨[], silent, ?_⟩
    rw [Op.performOn, Logged.trail_bind_silent fun _ => rfl]
    simp only [KeyIndex.interface, contains_eq, inner.contains_trail, Rules.marks, List.append_nil]
  | count key =>
    refine ⟨[], silent, ?_⟩
    rw [Op.performOn, Logged.trail_bind_silent fun _ => rfl]
    simp only [KeyIndex.interface, KeyIndex.count, contains_eq]
    rw [Logged.trail_bind_silent fun _ => rfl, inner.contains_trail]
    simp only [Rules.marks, List.append_nil]
    rfl
  | capacity => exact ⟨[], silent, rfl⟩
  | _ =>
    refine ⟨[], silent, ?_⟩
    rw [Op.performOn, Logged.trail_bind_silent fun _ => rfl]
    rfl

end Wraps

end SlotTable

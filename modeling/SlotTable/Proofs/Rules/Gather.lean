import SlotTable.Proofs.Rules.Classes
import SlotTable.Proofs.Rules.Entries

/-!
# Keys inserted one after the other

`storeAll` has the slots after inserting a list of keys. From empty slots on, under lawful rules,
the slots hold the first key of each class of the list, as many classes as there are slots
(`Gathered.perm`), and each of them where its walk ends. Once the walk for a key does not end at an
empty slot, no later insert changes where it ends (`Settled.landing_storeAll`).
-/
namespace SlotTable.Rules

open Function (update update_self update_of_ne)

variable {K : Type} {rules : Rules K} {slots after : Slots K} {keys : List K} {key : K}
  {index : Nat} {answer : Answer K}

/-- The slots after an insert. -/
def store (rules : Rules K) (slots : Slots K) (key : K) : Slots K :=
  match rules.landing slots key with
  | .vacant index => update slots index (some key)
  | _ => slots

/-- The slots after inserts, made one after the other. -/
def storeAll (rules : Rules K) (slots : Slots K) (keys : List K) : Slots K :=
  keys.foldl rules.store slots

theorem store_vacant (landed : rules.landing slots key = .vacant index) :
    rules.store slots key = update slots index (some key) := by
  simp only [store, landed]

theorem store_occupied (landed : rules.landing slots key = .occupied index) :
    rules.store slots key = slots := by
  simp only [store, landed]

theorem store_exhausted (landed : rules.landing slots key = .exhausted) :
    rules.store slots key = slots := by
  simp only [store, landed]

theorem perform_insert_store (performed : rules.perform slots (.insert key) = .ok (answer, after)) :
    after = rules.store slots key := by
  cases landed : rules.landing slots key with
  | vacant index =>
    rw [perform_insert_vacant landed] at performed
    cases performed
    exact (store_vacant landed).symm
  | occupied index =>
    rw [perform_insert_occupied landed] at performed
    cases performed
    exact (store_occupied landed).symm
  | exhausted =>
    rw [perform_insert_exhausted landed] at performed
    rw [store_exhausted landed]
    cases replied : (rules.refusal.answer rules.capacity : Except Fault (Answer K)) <;>
      rw [replied] at performed <;> cases performed
    rfl

theorem storeAll_snoc (rules : Rules K) (slots : Slots K) (keys : List K) (key : K) :
    rules.storeAll slots (keys ++ [key]) = rules.store (rules.storeAll slots keys) key := by
  rw [storeAll, List.foldl_append]
  rfl

/-- A run of inserts alone leaves what storing their keys leaves. -/
theorem Run.eq_storeAll {start : Slots K} {history : History K}
    (run : rules.Run start history slots)
    (inserts : history.map Prod.fst = keys.map Op.insert) : slots = rules.storeAll start keys := by
  induction run generalizing keys with
  | start =>
    rw [List.map_eq_nil_iff.mp inserts.symm]
    rfl
  | @step history slots after op answer before performed ih =>
    rw [List.map_append] at inserts
    obtain ⟨earlier, last, rfl, same, final⟩ := List.map_eq_append_iff.mp inserts.symm
    obtain ⟨key, rfl, rfl⟩ := List.map_eq_singleton_iff.mp final
    rw [perform_insert_store performed, storeAll_snoc, ih same.symm]

/-- The walk for a key ends at a matching key, or nowhere. -/
def Settled (rules : Rules K) (slots : Slots K) (key : K) : Prop :=
  ∀ index, rules.landing slots key ≠ .vacant index

theorem settled_store (lawful : rules.Lawful) (slots : Slots K) (key : K) :
    rules.Settled (rules.store slots key) key := by
  intro index vacant
  cases landed : rules.landing slots key with
  | vacant slot =>
    rw [store_vacant landed, lawful.landing_stored landed] at vacant
    cases vacant
  | occupied slot =>
    rw [store_occupied landed, landed] at vacant
    cases vacant
  | exhausted =>
    rw [store_exhausted landed, landed] at vacant
    cases vacant

theorem Settled.landing_store (settled : rules.Settled slots key) (other : K) :
    rules.landing (rules.store slots other) key = rules.landing slots key := by
  cases landed : rules.landing slots other with
  | vacant slot =>
    obtain ⟨reached, empty⟩ := landing_eq_vacant_iff.mp landed
    rw [store_vacant landed]
    cases found : rules.landing slots key with
    | vacant index => exact absurd found (settled index)
    | occupied index => exact landing_update_of_occupied reached.1 empty found
    | exhausted =>
      have passed := landing_eq_exhausted_iff.mp found slot reached.1
      exact absurd passed (Walk.not_passes_of_none empty)
  | occupied slot => rw [store_occupied landed]
  | exhausted => rw [store_exhausted landed]

theorem Settled.landing_storeAll (settled : rules.Settled slots key) (others : List K) :
    rules.landing (rules.storeAll slots others) key = rules.landing slots key := by
  induction others generalizing slots with
  | nil => rfl
  | cons other rest ih =>
    have same := settled.landing_store other
    have still : rules.Settled (rules.store slots other) key := by
      intro index
      rw [same]
      exact settled index
    exact (ih still).trans same

/-- The slots hold the classes of the keys, as many as fit, each where its walk ends. -/
structure Gathered (rules : Rules K) (keys : List K) (slots : Slots K) : Prop where
  perm : ((rules.entries slots).map Prod.snd).Perm
    ((classes rules.matching keys).take rules.capacity)
  found : ∀ index key, slots index = some key → rules.landing slots key = .occupied index

theorem Gathered.nil (rules : Rules K) : Gathered rules [] fun _ => none where
  perm := by
    rw [entries_empty]
    exact .of_eq List.take_nil.symm
  found := by
    intro index key held
    cases held

section Gathered

variable (gathered : Gathered rules keys slots)
include gathered

theorem Gathered.size_eq :
    rules.size slots = min rules.capacity (classes rules.matching keys).length := by
  rw [← length_entries, ← List.length_map Prod.snd, gathered.perm.length_eq, List.length_take]

theorem Gathered.mem_take_iff :
    key ∈ (classes rules.matching keys).take rules.capacity ↔ ∃ index, slots index = some key := by
  rw [← gathered.perm.mem_iff, List.mem_map]
  constructor
  · rintro ⟨⟨index, stored⟩, listed, rfl⟩
    exact ⟨index, (mem_entries.mp listed).2⟩
  · rintro ⟨index, held⟩
    have reached := (landing_eq_occupied_iff.mp (gathered.found index key held)).1
    exact ⟨(index, key), mem_entries.mpr ⟨reached.1, held⟩, rfl⟩

/-- As long as a slot is empty every class has a slot. -/
theorem Gathered.length_lt (inside : index < rules.capacity) (empty : slots index = none) :
    (classes rules.matching keys).length < rules.capacity := by
  refine Nat.lt_of_not_le fun full => ?_
  have size := gathered.size_eq
  rw [Nat.min_eq_left full, size_eq_capacity_iff] at size
  exact size index inside empty

theorem Gathered.mem_iff (inside : index < rules.capacity) (empty : slots index = none) :
    key ∈ classes rules.matching keys ↔ ∃ slot, slots slot = some key := by
  have fits := Nat.le_of_lt (gathered.length_lt inside empty)
  rw [← gathered.mem_take_iff, List.take_of_length_le fits]

/-- Every key of a stored class is found. -/
theorem Gathered.indexOf_found (lawful : rules.Lawful) {first : K}
    (member : first ∈ (classes rules.matching keys).take rules.capacity)
    (equal : rules.matching first key = true) : ∃ index, rules.indexOf slots key = some index := by
  obtain ⟨index, held⟩ := gathered.mem_take_iff.mp member
  have found := gathered.found index first held
  rw [lawful.landing_congr slots equal] at found
  exact ⟨index, indexOf_eq_some_iff.mpr found⟩

theorem Gathered.indexOf_missed
    (other : ∀ first ∈ (classes rules.matching keys).take rules.capacity,
      rules.matching first key = false) : rules.indexOf slots key = none := by
  refine Option.eq_none_iff_forall_ne_some.mpr fun index found => ?_
  obtain ⟨-, stored, held, equal⟩ := landing_eq_occupied_iff.mp (indexOf_eq_some_iff.mp found)
  rw [other stored (gathered.mem_take_iff.mpr ⟨index, held⟩)] at equal
  cases equal

/-- Of each class at most one key is stored. -/
theorem Gathered.entry_unique (lawful : rules.Lawful) {entry other : Nat × K}
    (member : entry ∈ rules.entries slots) (memberOther : other ∈ rules.entries slots)
    (equal : rules.matching entry.2 other.2 = true) : entry = other := by
  have found := gathered.found entry.1 entry.2 (mem_entries.mp member).2
  have foundOther := gathered.found other.1 other.2 (mem_entries.mp memberOther).2
  rw [lawful.landing_congr slots equal, foundOther] at found
  have same := Landing.occupied.inj found
  have held := (mem_entries.mp memberOther).2
  rw [same, (mem_entries.mp member).2] at held
  exact Prod.ext same.symm (Option.some.inj held)

theorem Gathered.store_vacant (lawful : rules.Lawful)
    (landed : rules.landing slots key = .vacant index) :
    Gathered rules (keys ++ [key]) (update slots index (some key)) := by
  obtain ⟨reached, empty⟩ := landing_eq_vacant_iff.mp landed
  have short := gathered.length_lt reached.1 empty
  -- while a slot is empty every class is stored, so the walk would have found it
  have new : ∀ first ∈ classes rules.matching keys, rules.matching first key = false := by
    intro first member
    refine Bool.eq_false_iff.mpr fun equal => ?_
    obtain ⟨slot, held⟩ := (gathered.mem_iff reached.1 empty).mp member
    have found := gathered.found slot first held
    rw [lawful.landing_congr slots equal, landed] at found
    cases found
  constructor
  · have perm := gathered.perm
    rw [List.take_of_length_le (Nat.le_of_lt short)] at perm
    have fits : (classes rules.matching keys ++ [key]).length ≤ rules.capacity := by
      rw [List.length_append]
      exact short
    rw [classes_snoc_of_none new, List.take_of_length_le fits]
    have filled := (entries_update_some reached.1 empty key).map Prod.snd
    exact filled.trans ((perm.cons key).trans (List.perm_append_singleton key _).symm)
  · intro slot stored held
    by_cases same : slot = index
    · subst slot
      rw [update_self, Option.some.injEq] at held
      rw [← held]
      exact lawful.landing_stored landed
    · rw [update_of_ne same] at held
      exact landing_update_of_occupied reached.1 empty (gathered.found slot stored held)

theorem Gathered.store_occupied (landed : rules.landing slots key = .occupied index) :
    Gathered rules (keys ++ [key]) slots := by
  obtain ⟨-, stored, held, equal⟩ := landing_eq_occupied_iff.mp landed
  have member := List.mem_of_mem_take (gathered.mem_take_iff.mpr ⟨index, held⟩)
  refine ⟨?_, gathered.found⟩
  rw [classes_snoc_of_any ⟨stored, member, equal⟩]
  exact gathered.perm

theorem Gathered.store_exhausted (landed : rules.landing slots key = .exhausted) :
    Gathered rules (keys ++ [key]) slots := by
  have full : rules.capacity ≤ (classes rules.matching keys).length := by
    have size := (landing_eq_exhausted_iff_entries.mp landed).1
    rw [gathered.size_eq] at size
    omega
  refine ⟨?_, gathered.found⟩
  rcases classes_snoc_cases rules.matching keys key with known | new
  · rw [classes_snoc_of_any known]
    exact gathered.perm
  · rw [classes_snoc_of_none new, List.take_append_of_le_length full]
    exact gathered.perm

theorem Gathered.store (lawful : rules.Lawful) (key : K) :
    Gathered rules (keys ++ [key]) (rules.store slots key) := by
  cases landed : rules.landing slots key with
  | vacant index =>
    rw [Rules.store_vacant landed]
    exact gathered.store_vacant lawful landed
  | occupied index =>
    rw [Rules.store_occupied landed]
    exact gathered.store_occupied landed
  | exhausted =>
    rw [Rules.store_exhausted landed]
    exact gathered.store_exhausted landed

end Gathered

theorem gathered_storeAll (lawful : rules.Lawful) (keys : List K) :
    Gathered rules keys (rules.storeAll (fun _ => none) keys) := by
  induction keys using List.reverseRecOn with
  | nil => exact .nil rules
  | append_singleton keys key ih =>
    rw [storeAll_snoc]
    exact ih.store lawful key

end SlotTable.Rules

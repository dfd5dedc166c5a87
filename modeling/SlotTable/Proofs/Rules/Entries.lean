import SlotTable.Proofs.Rules.Landing

/-!
# Listing and counting the stored keys

The listing has the occupied slots in slot order and the size is its length. It is as long as the
table has slots exactly when no slot is empty, and then no walk ends at an empty slot.
-/
namespace SlotTable.Rules

open Function (update)

variable {K : Type} {rules : Rules K} {slots : Slots K} {key : K} {index : Nat}

theorem mem_entries :
    (index, key) ∈ rules.entries slots ↔ index < rules.capacity ∧ slots index = some key := by
  unfold entries
  simp only [List.mem_filterMap, List.mem_range, Option.map_eq_some_iff, Prod.mk.injEq]
  constructor
  · intro listed
    obtain ⟨slot, inside, stored, held, rfl, rfl⟩ := listed
    exact ⟨inside, held⟩
  · intro stored
    obtain ⟨inside, held⟩ := stored
    exact ⟨index, inside, key, held, rfl, rfl⟩

theorem entries_sorted (rules : Rules K) (slots : Slots K) :
    (rules.entries slots).Pairwise fun a b => a.1 < b.1 := by
  unfold entries
  rw [List.pairwise_filterMap]
  refine List.pairwise_lt_range.imp ?_
  intro a b less first memberA second memberB
  obtain ⟨_, _, rfl⟩ := Option.map_eq_some_iff.mp memberA
  obtain ⟨_, _, rfl⟩ := Option.map_eq_some_iff.mp memberB
  exact less

theorem length_entries (rules : Rules K) (slots : Slots K) :
    (rules.entries slots).length = rules.size slots := by
  unfold entries size
  rw [List.length_filterMap_eq_countP]
  simp only [Option.isSome_map]

theorem size_le (rules : Rules K) (slots : Slots K) : rules.size slots ≤ rules.capacity := by
  have counted := List.countP_le_length (p := fun index => (slots index).isSome)
    (l := List.range rules.capacity)
  rw [List.length_range] at counted
  exact counted

theorem size_eq_capacity_iff :
    rules.size slots = rules.capacity ↔ ∀ index < rules.capacity, slots index ≠ none := by
  unfold size
  have counted := List.countP_eq_length (l := List.range rules.capacity)
    (p := fun index => (slots index).isSome)
  rw [List.length_range] at counted
  rw [counted]
  simp only [List.mem_range, Option.isSome_iff_ne_none]

theorem nodup_entries (rules : Rules K) (slots : Slots K) : (rules.entries slots).Nodup :=
  (entries_sorted rules slots).imp fun less equal => Nat.ne_of_lt less (congrArg Prod.fst equal)

theorem entries_map_fst (rules : Rules K) (slots : Slots K) :
    (rules.entries slots).map Prod.fst =
      (List.range rules.capacity).filter fun index => (slots index).isSome := by
  unfold entries
  rw [List.map_filterMap, ← List.filterMap_eq_filter]
  refine congrArg (fun listed => List.filterMap listed (List.range rules.capacity)) ?_
  funext index
  cases held : slots index <;> simp [Option.guard, held]

theorem mem_entries_map_fst :
    index ∈ (rules.entries slots).map Prod.fst ↔ index < rules.capacity ∧ slots index ≠ none := by
  rw [entries_map_fst, List.mem_filter, List.mem_range, Option.isSome_iff_ne_none]

/-- Filling an empty slot adds its entry to the listing. -/
theorem entries_update_some (inside : index < rules.capacity) (empty : slots index = none)
    (key : K) :
    (rules.entries (update slots index (some key))).Perm ((index, key) :: rules.entries slots) := by
  have new : (index, key) ∉ rules.entries slots := by
    intro listed
    rw [(mem_entries.mp listed).2] at empty
    cases empty
  refine (List.perm_ext_iff_of_nodup (nodup_entries ..)
    (List.nodup_cons.mpr ⟨new, nodup_entries ..⟩)).mpr ?_
  rintro ⟨slot, stored⟩
  rw [mem_entries, List.mem_cons, mem_entries, Prod.mk.injEq]
  by_cases same : slot = index
  · subst slot
    simp [inside, empty, eq_comm]
  · simp [same]

/-- Emptying a slot takes its entry out of the listing and leaves the others in place. -/
theorem entries_update_none (rules : Rules K) (slots : Slots K) (index : Nat) :
    rules.entries (update slots index none) =
      (rules.entries slots).filter fun entry => entry.1 != index := by
  unfold entries
  rw [List.filter_filterMap]
  refine congrArg (fun listed => List.filterMap listed (List.range rules.capacity)) ?_
  funext slot
  by_cases same : slot = index
  · subst slot
    cases slots index <;> simp [Option.filter]
  · cases held : slots slot <;> simp [Option.filter, held, same]

theorem entries_empty (rules : Rules K) : rules.entries (fun _ => none) = [] :=
  List.filterMap_eq_nil_iff.mpr fun _ _ => rfl

theorem size_update_some (inside : index < rules.capacity) (empty : slots index = none) (key : K) :
    rules.size (update slots index (some key)) = rules.size slots + 1 := by
  rw [← length_entries, (entries_update_some inside empty key).length_eq, List.length_cons,
    length_entries]

theorem size_update_none (inside : index < rules.capacity) (held : slots index = some key) :
    rules.size (update slots index none) + 1 = rules.size slots := by
  have refilled := size_update_some inside (Function.update_self index none slots) key
  rw [Function.update_idem, ← held, Function.update_eq_self] at refilled
  exact refilled.symm

theorem landing_eq_exhausted_iff_full :
    rules.landing slots key = .exhausted ↔
      rules.size slots = rules.capacity ∧ rules.indexOf slots key = none := by
  rw [size_eq_capacity_iff]
  constructor
  · intro landed
    refine ⟨fun index inside empty => ?_, by simp [indexOf, landed]⟩
    have passed := landing_eq_exhausted_iff.mp landed index inside
    exact Walk.not_passes_of_none empty passed
  · intro closed
    obtain ⟨full, absent⟩ := closed
    cases landed : rules.landing slots key with
    | vacant index =>
      obtain ⟨reached, empty⟩ := landing_eq_vacant_iff.mp landed
      exact absurd empty (full index reached.1)
    | occupied index =>
      rw [indexOf_eq_some_iff.mpr landed] at absent
      cases absent
    | exhausted => rfl

/-- A walk passes every slot when the table is full and no stored key matches. -/
theorem landing_eq_exhausted_iff_entries :
    rules.landing slots key = .exhausted ↔
      rules.size slots = rules.capacity ∧
        ∀ entry ∈ rules.entries slots, rules.matching entry.2 key = false := by
  constructor
  · intro landed
    refine ⟨(landing_eq_exhausted_iff_full.mp landed).1, ?_⟩
    intro entry listed
    obtain ⟨inside, held⟩ := mem_entries.mp listed
    obtain ⟨stored, heldToo, differs⟩ := landing_eq_exhausted_iff.mp landed entry.1 inside
    rw [held, Option.some.injEq] at heldToo
    rw [heldToo]
    exact differs
  · intro closed
    obtain ⟨full, none⟩ := closed
    refine landing_eq_exhausted_iff.mpr fun index inside => ?_
    have occupied := size_eq_capacity_iff.mp full index inside
    obtain ⟨stored, held⟩ := Option.ne_none_iff_exists'.mp occupied
    exact ⟨stored, held, none (index, stored) (mem_entries.mpr ⟨inside, held⟩)⟩

/-- On a full table a walk finds a key that matches if there is one. -/
theorem contains_eq_any_of_full (full : rules.size slots = rules.capacity) (key : K) :
    rules.contains slots key =
      (rules.entries slots).any fun entry => rules.matching entry.2 key := by
  cases landed : rules.landing slots key with
  | vacant index =>
    obtain ⟨reached, empty⟩ := landing_eq_vacant_iff.mp landed
    exact absurd empty (size_eq_capacity_iff.mp full index reached.1)
  | occupied index =>
    obtain ⟨reached, stored, held, answers⟩ := landing_eq_occupied_iff.mp landed
    have found : ((rules.entries slots).any fun entry => rules.matching entry.2 key) = true :=
      List.any_eq_true.mpr ⟨(index, stored), mem_entries.mpr ⟨reached.1, held⟩, answers⟩
    rw [contains, landed, found]
    rfl
  | exhausted =>
    have missing := (landing_eq_exhausted_iff_entries.mp landed).2
    have absent : ((rules.entries slots).any fun entry => rules.matching entry.2 key) = false :=
      List.any_eq_false.mpr fun entry listed => by simp [missing entry listed]
    rw [contains, landed, absent]
    rfl

end SlotTable.Rules

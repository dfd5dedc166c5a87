import SlotTable.Storage.Lawful

/-!
# Reading and changing a storage slot by slot

`slotOf` is what a storage that follows its laws holds in a slot. Inside its capacity every access
answers from that function or changes it at one index, and so do the scans over all slots. Past its
capacity every access is the same fault.
-/
namespace SlotTable

variable {K S : Type} [Storage S K] [LawfulStorage S K]

/-- The key in a slot, as the contents show it; a slot past the end holds none. -/
def slotOf (slots : S) (index : Nat) : Option K :=
  (LawfulStorage.contents slots).getD index none

variable {slots : S} {index : Nat}

theorem keyAt_eq_slotOf (inside : index < Storage.capacity slots) :
    Storage.keyAt slots index = .ok (slotOf slots index) := by
  rw [LawfulStorage.capacity_eq] at inside
  simp [LawfulStorage.keyAt_eq, entryAt, slotOf, inside]

theorem slotOf_eq_none (outside : Storage.capacity slots ≤ index) : slotOf slots index = none := by
  rw [LawfulStorage.capacity_eq] at outside
  simp [slotOf, outside]

theorem isOccupied_eq_slotOf (inside : index < Storage.capacity slots) :
    Storage.isOccupied slots index = .ok (slotOf slots index).isSome := by
  rw [LawfulStorage.capacity_eq] at inside
  simp [LawfulStorage.isOccupied_eq, entryAt, slotOf, inside, Functor.map, Except.map]

/-- The storage `after` is the storage `before` with one slot changed. -/
structure Changes (before after : S) (index : Nat) (entry : Option K) : Prop where
  capacity_eq : Storage.capacity after = Storage.capacity before
  slotOf_eq : ∀ other, slotOf after other = if other = index then entry else slotOf before other

private theorem changes_of_contents {after : S} {entry : Option K}
    (inside : index < Storage.capacity slots)
    (contents : LawfulStorage.contents after = (LawfulStorage.contents slots).set index entry) :
    Changes slots after index entry := by
  rw [LawfulStorage.capacity_eq] at inside
  constructor
  · simp [LawfulStorage.capacity_eq, contents]
  · intro other
    by_cases same : other = index
    · subst other
      simp [slotOf, contents, inside]
    · simp [slotOf, contents, same, List.getElem?_set_ne (Ne.symm same)]

theorem write_changes (inside : index < Storage.capacity slots) (key : K) :
    ∃ after, Storage.write slots index key = .ok after ∧
      Changes slots after index (some key) := by
  have law := LawfulStorage.write_eq slots index key
  rw [setEntry, if_pos (LawfulStorage.capacity_eq slots ▸ inside)] at law
  cases written : Storage.write slots index key with
  | error fault => simp [written, Functor.map, Except.map] at law
  | ok after =>
    simp only [written, Functor.map, Except.map, Except.ok.injEq] at law
    exact ⟨after, rfl, changes_of_contents inside law⟩

theorem clear_changes (inside : index < Storage.capacity slots) :
    ∃ after, Storage.clear slots index = .ok (slotOf slots index, after) ∧
      Changes slots after index none := by
  have first := LawfulStorage.clear_fst slots index
  have second := LawfulStorage.clear_snd slots index
  have below := LawfulStorage.capacity_eq slots ▸ inside
  rw [entryAt, dif_pos below] at first
  rw [setEntry, if_pos below] at second
  cases emptied : Storage.clear slots index with
  | error fault => simp [emptied, Functor.map, Except.map] at first
  | ok pair =>
    obtain ⟨key, after⟩ := pair
    simp only [emptied, Functor.map, Except.map, Except.ok.injEq] at first second
    refine ⟨after, ?_, changes_of_contents inside second⟩
    simp [first, slotOf, below]

private theorem eq_error_of_map {ε α β : Type} {f : α → β} {outcome : Except ε α} {fault : ε}
    (failed : f <$> outcome = .error fault) : outcome = .error fault := by
  cases outcome with
  | error cause =>
    cases failed
    rfl
  | ok value => cases failed

section Past

variable (past : Storage.capacity slots ≤ index)
include past

theorem keyAt_past :
    Storage.keyAt slots index = .error (.indexOutOfBounds (Storage.capacity slots) index) := by
  rw [LawfulStorage.capacity_eq] at past ⊢
  rw [LawfulStorage.keyAt_eq, entryAt, dif_neg (Nat.not_lt.mpr past)]

theorem isOccupied_past :
    Storage.isOccupied slots index =
      .error (.indexOutOfBounds (Storage.capacity slots) index) := by
  rw [LawfulStorage.capacity_eq] at past ⊢
  rw [LawfulStorage.isOccupied_eq, entryAt, dif_neg (Nat.not_lt.mpr past)]
  rfl

theorem write_past (key : K) :
    Storage.write slots index key =
      .error (.indexOutOfBounds (Storage.capacity slots) index) := by
  rw [LawfulStorage.capacity_eq] at past ⊢
  have law := LawfulStorage.write_eq slots index key
  rw [setEntry, if_neg (Nat.not_lt.mpr past)] at law
  exact eq_error_of_map law

theorem clear_past :
    Storage.clear slots index = .error (.indexOutOfBounds (Storage.capacity slots) index) := by
  rw [LawfulStorage.capacity_eq] at past ⊢
  have law := LawfulStorage.clear_fst slots index
  rw [entryAt, dif_neg (Nat.not_lt.mpr past)] at law
  exact eq_error_of_map law

end Past

theorem changes_of_write {after : S} {key : K}
    (written : Storage.write slots index key = .ok after) :
    Changes slots after index (some key) := by
  by_cases inside : index < Storage.capacity slots
  · obtain ⟨left, done, change⟩ := write_changes inside key
    rw [done] at written
    cases written
    exact change
  · rw [write_past (Nat.le_of_not_lt inside)] at written
    cases written

theorem changes_of_clear {after : S} {held : Option K}
    (cleared : Storage.clear slots index = .ok (held, after)) :
    Changes slots after index none := by
  by_cases inside : index < Storage.capacity slots
  · obtain ⟨left, done, change⟩ := clear_changes inside
    rw [done] at cleared
    cases cleared
    exact change
  · rw [clear_past (Nat.le_of_not_lt inside)] at cleared
    cases cleared

/-- Reading every element of a list without a fault. -/
private theorem mapM_ok {ε α β : Type} {f : α → Except ε β} {g : α → β} {list : List α}
    (each : ∀ a ∈ list, f a = .ok (g a)) : list.mapM f = .ok (list.map g) := by
  induction list with
  | nil => rfl
  | cons head tail ih =>
    rw [List.mapM_cons, each head (by simp), ih fun a member => each a (by simp [member])]
    rfl

theorem occupiedCount_eq (slots : S) :
    Storage.occupiedCount slots =
      .ok ((List.range (Storage.capacity slots)).countP fun index =>
        (slotOf slots index).isSome) := by
  rw [Storage.occupiedCount, mapM_ok fun index member =>
    isOccupied_eq_slotOf (List.mem_range.mp member)]
  simp [bind, Except.bind, pure, Except.pure, List.count, List.countP_map, Function.comp_def]

theorem entries_eq (slots : S) :
    Storage.entries slots =
      .ok ((List.range (Storage.capacity slots)).filterMap fun index =>
        (slotOf slots index).map fun key => (index, key)) := by
  have each : ∀ index ∈ List.range (Storage.capacity slots),
      (do return (← Storage.keyAt slots index).map fun key => (index, key) : Except Fault _) =
        .ok ((slotOf slots index).map fun key => (index, key)) := by
    intro index member
    rw [keyAt_eq_slotOf (List.mem_range.mp member)]
    rfl
  rw [Storage.entries, mapM_ok each]
  simp [bind, Except.bind, pure, Except.pure, List.filterMap_map]

/-- A storage without entries is empty in every slot. -/
theorem slotOf_of_entries_nil (vacant : Storage.entries slots = .ok []) :
    slotOf slots = fun _ => none := by
  funext index
  by_cases inside : index < Storage.capacity slots
  · rw [entries_eq, Except.ok.injEq, List.filterMap_eq_nil_iff] at vacant
    exact Option.map_eq_none_iff.mp (vacant index (List.mem_range.mpr inside))
  · exact slotOf_eq_none (Nat.le_of_not_lt inside)

/-- Clearing the listed slots one after the other. -/
private theorem foldlM_clear (list : List Nat) (slots : S)
    (inside : ∀ index ∈ list, index < Storage.capacity slots) :
    ∃ after, list.foldlM (fun slots index => do
        let (_, cleared) ← Storage.clear slots index
        return cleared) slots = (.ok after : Except Fault S) ∧
      Storage.capacity after = Storage.capacity slots ∧
      ∀ other, slotOf after other = if other ∈ list then none else slotOf slots other := by
  induction list generalizing slots with
  | nil => exact ⟨slots, rfl, rfl, fun other => by simp⟩
  | cons index rest ih =>
    obtain ⟨middle, emptied, change⟩ := clear_changes (inside index (by simp))
    obtain ⟨after, folded, capacity, read⟩ := ih middle fun other member => by
      rw [change.capacity_eq]
      exact inside other (by simp [member])
    refine ⟨after, ?_, capacity.trans change.capacity_eq, ?_⟩
    · rw [List.foldlM_cons, emptied]
      exact folded
    · intro other
      rw [read, change.slotOf_eq]
      by_cases later : other ∈ rest <;> by_cases same : other = index <;> simp [later, same]

theorem clearAll_empties (slots : S) :
    ∃ after, Storage.clearAll slots = .ok after ∧
      Storage.capacity after = Storage.capacity slots ∧ ∀ index, slotOf after index = none := by
  obtain ⟨after, folded, capacity, read⟩ := foldlM_clear (List.range (Storage.capacity slots))
    slots fun index member => List.mem_range.mp member
  refine ⟨after, folded, capacity, fun index => ?_⟩
  rw [read]
  by_cases inside : index < Storage.capacity slots
  · rw [if_pos (List.mem_range.mpr inside)]
  · rw [if_neg (mt List.mem_range.mp inside), slotOf_eq_none (Nat.le_of_not_lt inside)]

private theorem slotOf_replicate {n : Nat}
    (contents : LawfulStorage.contents slots = List.replicate n none) :
    slotOf slots = fun _ => none := by
  funext index
  rw [slotOf, contents, List.getD_eq_getElem?_getD, List.getElem?_replicate]
  split <;> rfl

theorem OptionalSlots.slotOf_empty (capacity : Nat) :
    slotOf (OptionalSlots.empty capacity : OptionalSlots K) = fun _ => none :=
  slotOf_replicate (OptionalSlots.contents_empty capacity)

theorem OptionalSlots.capacity_empty (capacity : Nat) :
    Storage.capacity (OptionalSlots.empty capacity : OptionalSlots K) = capacity := by
  simp [Storage.capacity, OptionalSlots.empty]

theorem FlaggedSlots.slotOf_empty {n : Nat} [Placeholder K] :
    slotOf (FlaggedSlots.empty : FlaggedSlots K n) = fun _ => none :=
  slotOf_replicate FlaggedSlots.contents_empty

end SlotTable

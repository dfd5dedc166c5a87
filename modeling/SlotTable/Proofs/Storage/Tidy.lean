import SlotTable.Proofs.Result
import SlotTable.Proofs.Storage.Contents
import SlotTable.Storage.Access

/-!
# Tidy storages

The contents do not show what an empty cell holds, so storages with the same contents may still
differ. They do not if both are tidy: a flagged storage is tidy when the placeholder is in every
cell that is not flagged, an optional one always. New storages are tidy, and `Kept` properties such
as this one stay true under every script of calls.
-/
namespace SlotTable

variable {K S : Type}

/-- A property of storages that writing and clearing keep. -/
structure Kept [Storage S K] (P : S → Prop) : Prop where
  write : ∀ {slots after : S} {index : Nat} {key : K}, P slots →
    Storage.write slots index key = .ok after → P after
  clear : ∀ {slots after : S} {index : Nat} {held : Option K}, P slots →
    Storage.clear slots index = .ok (held, after) → P after

/-- What is true of the slots still to be cleared at every step of clearing all of them. -/
private theorem clearAll_induct [Storage S K] (remains : List Nat → S → Prop) {slots after : S}
    (step : ∀ {index : Nat} {rest : List Nat} {slots after : S} {held : Option K},
      remains (index :: rest) slots → Storage.clear slots index = .ok (held, after) →
      remains rest after)
    (start : remains (List.range (Storage.capacity slots)) slots)
    (emptied : Storage.clearAll slots = .ok after) : remains [] after := by
  unfold Storage.clearAll at emptied
  generalize List.range (Storage.capacity slots) = list at start emptied
  induction list generalizing slots with
  | nil =>
    cases emptied
    exact start
  | cons index rest ih =>
    rw [List.foldlM_cons, bind_eq_ok] at emptied
    obtain ⟨middle, cleared, emptied⟩ := emptied
    rw [bind_eq_ok] at cleared
    obtain ⟨⟨held, left⟩, cleared, same⟩ := cleared
    cases same
    exact ih (step start cleared) emptied

namespace Kept

variable [Storage S K] {P : S → Prop} {slots after : S}

theorem clearAll (kept : Kept P) (start : P slots)
    (emptied : Storage.clearAll slots = .ok after) : P after :=
  clearAll_induct (fun _ => P) kept.clear start emptied

theorem perform {access : Access K} {answer : AccessAnswer K} (kept : Kept P) (start : P slots)
    (performed : access.perform slots = .ok (answer, after)) : P after := by
  cases access with
  | write index key =>
    rw [Access.perform, bind_eq_ok] at performed
    obtain ⟨left, written, same⟩ := performed
    cases same
    exact kept.write start written
  | clear index =>
    rw [Access.perform, bind_eq_ok] at performed
    obtain ⟨⟨held, left⟩, cleared, same⟩ := performed
    cases same
    exact kept.clear start cleared
  | capacity =>
    cases performed
    exact start
  | _ =>
    rw [Access.perform, bind_eq_ok] at performed
    obtain ⟨read, -, same⟩ := performed
    cases same
    exact start

theorem replay (kept : Kept P) (start : P slots) (script : List (Access K)) :
    P (Access.replay slots script).2 := by
  induction script generalizing slots with
  | nil => exact start
  | cons access rest ih =>
    apply ih
    cases performed : access.perform slots with
    | error fault => exact start
    | ok pair => exact kept.perform start performed

end Kept

class TidyStorage (S : Type) (K : outParam Type) [Storage S K] [LawfulStorage S K] where
  Tidy : S → Prop
  kept : Kept Tidy
  eq_of_slotOf {first second : S} (tidyFirst : Tidy first) (tidySecond : Tidy second)
    (capacity_eq : Storage.capacity first = Storage.capacity second)
    (slotOf_eq : slotOf first = slotOf second) : first = second

namespace OptionalSlots

theorem slotOf_eq_getElem {slots : OptionalSlots K} {index : Nat}
    (inside : index < slots.cells.size) : slotOf slots index = slots.cells[index] := by
  simp [slotOf, LawfulStorage.contents, inside]

instance : TidyStorage (OptionalSlots K) K where
  Tidy _ := True
  kept := ⟨fun _ _ => trivial, fun _ _ => trivial⟩
  eq_of_slotOf := by
    rintro ⟨first⟩ ⟨second⟩ - - capacity_eq slotOf_eq
    refine congrArg OptionalSlots.mk (Array.ext capacity_eq ?_)
    intro index insideFirst insideSecond
    have same := congrFun slotOf_eq index
    rw [slotOf_eq_getElem insideFirst, slotOf_eq_getElem insideSecond] at same
    exact same

theorem clearAll_eq (slots : OptionalSlots K) :
    Storage.clearAll slots = .ok (empty (Storage.capacity slots)) := by
  obtain ⟨after, emptied, capacity, vacant⟩ := clearAll_empties slots
  rw [emptied]
  refine congrArg Except.ok (TidyStorage.eq_of_slotOf trivial trivial ?_ ?_)
  · rw [capacity, capacity_empty]
  · rw [slotOf_empty]
    exact funext vacant

theorem beq_iff [BEq K] {first second : OptionalSlots K}
    (same : Storage.capacity first = Storage.capacity second) :
    (first == second) = true ↔
      ∀ index < Storage.capacity first, (slotOf first index == slotOf second index) = true := by
  show (first.cells == second.cells) = true ↔ _
  have sizes : first.cells.size = second.cells.size := same
  rw [Array.beq_eq_decide, dif_pos sizes, decide_eq_true_iff]
  constructor
  · intro equal index inside
    rw [slotOf_eq_getElem inside, slotOf_eq_getElem (sizes ▸ inside)]
    exact equal index inside
  · intro equal index inside
    have cells := equal index inside
    rw [slotOf_eq_getElem inside, slotOf_eq_getElem (sizes ▸ inside)] at cells
    exact cells

end OptionalSlots

namespace FlaggedSlots

variable {n : Nat} [Placeholder K]

/-- A cell that does not show more than its contents. -/
def TidyCell (content : K × Bool) : Prop := content.2 = false → content = emptyCell

theorem TidyCell.eq_of_held {first second : K × Bool} (tidyFirst : TidyCell first)
    (tidySecond : TidyCell second) (same : held first = held second) : first = second := by
  rcases first with ⟨a, _ | _⟩ <;> rcases second with ⟨b, _ | _⟩
  · rw [tidyFirst rfl, tidySecond rfl]
  · cases same
  · cases same
  · cases same
    rfl

/-- The placeholder is equal to itself, so tidy cells are equal when what they hold is. -/
theorem TidyCell.beq_eq [BEq K]
    (reflexive : ((Placeholder.placeholder : K) == Placeholder.placeholder) = true)
    {first second : K × Bool} (tidyFirst : TidyCell first) (tidySecond : TidyCell second) :
    (first == second) = (held first == held second) := by
  rcases first with ⟨a, _ | _⟩ <;> rcases second with ⟨b, _ | _⟩
  · rw [tidyFirst rfl, tidySecond rfl]
    exact Bool.and_eq_true_iff.mpr ⟨reflexive, rfl⟩
  · exact Bool.and_false _
  · exact Bool.and_false _
  · exact Bool.and_true _

theorem slotOf_eq_held {slots : FlaggedSlots K n} {index : Nat} (inside : index < n) :
    slotOf slots index = held slots.cells[index] := by
  simp [slotOf, LawfulStorage.contents, inside]

theorem tidyCell_of_setCell {slots after : FlaggedSlots K n} {index : Nat} {content : K × Bool}
    (tidy : ∀ i (inside : i < n), TidyCell slots.cells[i]) (tidyContent : TidyCell content)
    (set : slots.setCell index content = .ok after) :
    ∀ i (inside : i < n), TidyCell after.cells[i] := by
  intro i inside
  unfold setCell at set
  split at set
  · cases set
    rw [Vector.getElem_set]
    split
    · exact tidyContent
    · exact tidy i inside
  · cases set

instance : TidyStorage (FlaggedSlots K n) K where
  Tidy slots := ∀ i (inside : i < n), TidyCell slots.cells[i]
  kept :=
    { write := fun tidy written => tidyCell_of_setCell tidy (fun empty => by cases empty) written
      clear := by
        intro slots after index held tidy cleared
        simp only [Storage.clear, bind_eq_ok] at cleared
        obtain ⟨content, -, left, set, same⟩ := cleared
        cases same
        exact tidyCell_of_setCell tidy (fun _ => rfl) set }
  eq_of_slotOf := by
    rintro ⟨first⟩ ⟨second⟩ tidyFirst tidySecond - slotOf_eq
    refine congrArg FlaggedSlots.mk (Vector.ext fun index inside => ?_)
    have same := congrFun slotOf_eq index
    rw [slotOf_eq_held inside, slotOf_eq_held inside] at same
    exact (tidyFirst index inside).eq_of_held (tidySecond index inside) same

theorem tidy_empty : TidyStorage.Tidy (empty : FlaggedSlots K n) := by
  intro i inside
  simp [empty, TidyCell]

theorem beq_iff [BEq K]
    (reflexive : ((Placeholder.placeholder : K) == Placeholder.placeholder) = true)
    {first second : FlaggedSlots K n} (tidyFirst : TidyStorage.Tidy first)
    (tidySecond : TidyStorage.Tidy second) :
    (first == second) = true ↔
      ∀ index < n, (slotOf first index == slotOf second index) = true := by
  show (first.cells == second.cells) = true ↔ _
  rw [Vector.beq_eq_decide, decide_eq_true_iff]
  refine forall₂_congr fun index inside => ?_
  rw [slotOf_eq_held inside, slotOf_eq_held inside,
    TidyCell.beq_eq reflexive (tidyFirst index inside) (tidySecond index inside)]

/-- Clearing puts the placeholder into every cell, whatever was there. -/
theorem clearAll_eq (slots : FlaggedSlots K n) : Storage.clearAll slots = .ok empty := by
  obtain ⟨after, emptied, -⟩ := clearAll_empties slots
  have cell : ∀ i (inside : i < n), after.cells[i] = emptyCell := by
    intro i inside
    -- a cell is empty for good once its turn is over
    refine (clearAll_induct (fun list slots => i ∈ list ∨ slots.cells[i] = emptyCell) ?_
      (.inl (List.mem_range.mpr inside)) emptied).resolve_left List.not_mem_nil
    intro index rest slots after held waits cleared
    simp only [Storage.clear, bind_eq_ok, setCell] at cleared
    obtain ⟨content, -, left, set, same⟩ := cleared
    cases same
    split at set
    · cases set
      by_cases here : index = i
      · exact .inr (by simp [here])
      · refine waits.imp (fun member => ?_) fun empty => ?_
        · exact List.mem_of_ne_of_mem (Ne.symm here) member
        · simp [here, empty]
    · cases set
  obtain ⟨cells⟩ := after
  rw [emptied]
  refine congrArg (Except.ok ∘ FlaggedSlots.mk) (Vector.ext fun i inside => ?_)
  simpa using cell i inside

end FlaggedSlots

end SlotTable

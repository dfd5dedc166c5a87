import SlotTable.Proofs.Table.Linear
import SlotTable.Proofs.Table.Ruled

/-!
# The three kinds of table are ruled

A linear table is silent about an insert without room, a dynamic one reports it, a fixed one ends
the program; in all else the two public kinds pass every call on to their core.
-/
namespace SlotTable

open Function (update)

variable {K : Type}

instance {S : Type} [Storage S K] [LawfulStorage S K] : Ruled (LinearTable K S) K where
  Shows rules slots table := table.Shows rules slots ∧ rules.refusal = .silent
  own_eq := rfl
  slotFor shows key _ := shows.1.slotFor key
  indexOf shows key _ := shows.1.indexOf key
  contains shows key _ := shows.1.contains key
  erase_occupied shows landed limit := by
    obtain ⟨after, erased, shown⟩ := shows.1.erase_occupied landed limit
    exact ⟨after, erased, shown, shows.2⟩
  erase_missed shows missed _ := shows.1.erase_missed missed
  size shows := shows.1.size
  capacity shows := shows.1.capacity_eq
  clear shows limit := by
    obtain ⟨after, cleared, shown⟩ := shows.1.clear limit
    exact ⟨after, cleared, shown, shows.2⟩
  insert_vacant shows landed limit := by
    obtain ⟨after, inserted, shown⟩ := shows.1.insert_vacant landed limit
    refine ⟨after, ?_, shown, shows.2⟩
    simp only [Table.insert, Logged.result_bind, inserted, ok_bind, Logged.result_pure]
  insert_occupied shows landed limit := by
    simp only [Table.insert, Logged.result_bind, shows.1.insert_occupied landed, ok_bind,
      Logged.result_pure]
  insert_exhausted shows landed limit := by
    simp only [Table.insert, Logged.result_bind, shows.1.insert_exhausted landed, ok_bind,
      Logged.result_pure, shows.2]
    rfl
  entries shows := shows.1.entries

instance : Ruled (DynamicTable K) K where
  Shows rules slots table := table.core.Shows rules slots ∧ rules.refusal = .reported
  own_eq := rfl
  slotFor shows key _ := shows.1.slotFor key
  indexOf shows key _ := shows.1.indexOf key
  contains shows key _ := shows.1.contains key
  erase_occupied shows landed limit := by
    obtain ⟨after, erased, shown⟩ := shows.1.erase_occupied landed limit
    refine ⟨⟨after⟩, ?_, shown, shows.2⟩
    simp only [KeyIndex.erase, DynamicTable.erase, Logged.result_bind, erased, ok_bind,
      Logged.result_pure]
  erase_missed shows missed limit := by
    simp only [KeyIndex.erase, DynamicTable.erase, Logged.result_bind,
      shows.1.erase_missed missed, ok_bind, Logged.result_pure]
  size shows := shows.1.size
  capacity shows := shows.1.capacity_eq
  clear shows limit := by
    obtain ⟨after, cleared, shown⟩ := shows.1.clear limit
    refine ⟨⟨after⟩, ?_, shown, shows.2⟩
    simp only [KeyIndex.clear, DynamicTable.clear, Logged.result_bind, cleared, ok_bind,
      Logged.result_pure]
  insert_vacant shows landed limit := by
    obtain ⟨after, inserted, shown⟩ := shows.1.insert_vacant landed limit
    refine ⟨⟨after⟩, ?_, shown, shows.2⟩
    simp only [Table.insert, DynamicTable.insert, Logged.result_bind, inserted, ok_bind,
      Logged.result_pure]
  insert_occupied shows landed limit := by
    simp only [Table.insert, DynamicTable.insert, Logged.result_bind,
      shows.1.insert_occupied landed, ok_bind, Logged.result_pure]
  insert_exhausted shows landed limit := by
    simp only [Table.insert, DynamicTable.insert, Logged.result_bind,
      shows.1.insert_exhausted landed, ok_bind, Logged.result_emit, Logged.result_pure, shows.2,
      LinearTable.capacity, shows.1.capacity_eq]
    rfl
  entries shows := shows.1.entries

instance {n : Nat} [Placeholder K] : Ruled (FixedTable K n) K where
  Shows rules slots table := table.core.Shows rules slots ∧ rules.refusal = .fatal
  own_eq := rfl
  slotFor shows key _ := shows.1.slotFor key
  indexOf shows key _ := shows.1.indexOf key
  contains shows key _ := shows.1.contains key
  erase_occupied shows landed limit := by
    obtain ⟨after, erased, shown⟩ := shows.1.erase_occupied landed limit
    refine ⟨⟨after⟩, ?_, shown, shows.2⟩
    simp only [KeyIndex.erase, FixedTable.erase, Logged.result_bind, erased, ok_bind,
      Logged.result_pure]
  erase_missed shows missed limit := by
    simp only [KeyIndex.erase, FixedTable.erase, Logged.result_bind,
      shows.1.erase_missed missed, ok_bind, Logged.result_pure]
  size shows := shows.1.size
  capacity shows := shows.1.capacity_eq
  clear shows limit := by
    obtain ⟨after, cleared, shown⟩ := shows.1.clear limit
    refine ⟨⟨after⟩, ?_, shown, shows.2⟩
    simp only [KeyIndex.clear, FixedTable.clear, Logged.result_bind, cleared, ok_bind,
      Logged.result_emit, Logged.result_pure]
  insert_vacant shows landed limit := by
    obtain ⟨after, inserted, shown⟩ := shows.1.insert_vacant landed limit
    refine ⟨⟨after⟩, ?_, shown, shows.2⟩
    simp only [Table.insert, FixedTable.insert, Logged.result_bind, inserted, ok_bind,
      Logged.result_pure]
  insert_occupied shows landed limit := by
    simp only [Table.insert, FixedTable.insert, Logged.result_bind,
      shows.1.insert_occupied landed, ok_bind, Logged.result_pure]
  insert_exhausted shows landed limit := by
    simp only [Table.insert, FixedTable.insert, Logged.result_bind,
      shows.1.insert_exhausted landed, ok_bind, Logged.result_emit, Logged.result_fail, error_bind,
      shows.2]
    rw [← shows.1.capacity_eq]
    rfl
  entries shows := shows.1.entries

end SlotTable

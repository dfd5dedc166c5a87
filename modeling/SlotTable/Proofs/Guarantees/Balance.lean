import SlotTable.Proofs.Home.Mixing

/-!
# How evenly the homes of all hashes are spread

Over all 2^64 hashes no slot is preferred: mixing only permutes the words, and the words leave every
remainder equally often, but for the few first remainders once more if the capacity does not divide
2^64.
-/
namespace SlotTable

/-- Mixing is a bijection, and every slot is the home of as many hashes as the capacity goes into
2^64, the first ones, as many as the remainder says, of one more. -/
theorem homes_are_balanced :
    Function.Bijective mix ∧
    ∀ capacity slot, slot < capacity →
      {hash : UInt64 | home hash capacity = .ok slot}.ncard =
        2 ^ 64 / capacity + if slot < 2 ^ 64 % capacity then 1 else 0 := by
  refine ⟨mixing.bijective, fun capacity slot inside => ?_⟩
  have home_iff : ∀ hash, home hash capacity = .ok slot ↔ homeIndex hash capacity = slot := by
    intro hash
    rw [home, if_neg (Nat.ne_zero_of_lt inside), Except.ok.injEq]
  simp only [home_iff]
  exact ncard_homes inside

/-- Among three slots the first one is the home of one hash more than the last one. With more than
2^63 slots the last ones are the home of a single hash each. -/
theorem homes_are_balanced_over_three :
    {hash : UInt64 | home hash 3 = .ok 0}.ncard = 6148914691236517206 ∧
    {hash : UInt64 | home hash 3 = .ok 2}.ncard = 6148914691236517205 ∧
    {hash : UInt64 | home hash 9223372036854775809 = .ok 5}.ncard = 2 ∧
    {hash : UInt64 | home hash 9223372036854775809 = .ok 9223372036854775808}.ncard = 1 := by
  obtain ⟨-, balanced⟩ := homes_are_balanced
  refine ⟨?_, ?_, ?_, ?_⟩
  · exact (balanced 3 0 (by decide)).trans (by decide)
  · exact (balanced 3 2 (by decide)).trans (by decide)
  · exact (balanced 9223372036854775809 5 (by decide)).trans (by decide)
  · exact (balanced 9223372036854775809 9223372036854775808 (by decide)).trans (by decide)

end SlotTable

import SlotTable.Proofs.Home.Consecutive

/-!
# How hashes in a row spread over the slots

Let there be as many hashes in a row as slots, with a mixed value of the first one from which 59 can
be taken for all the others. Then the common divisor of 59 and the capacity says how well they
spread: it is 1 or 59, as 59 is a prime. With a capacity of 59 every one of them has the same home.
-/
namespace SlotTable

/-- What is seen of hashes in a row that have these homes, the first of them with this mixed value
and all of them without a wrap. -/
structure SpreadsByDivisor (capacity mixed : Nat) (slots : List Nat) : Prop where
  /-- The homes are congruent slots, each of them equally often. -/
  count_eq : ∀ slot, slots.count slot =
    if slot < capacity ∧ slot ≡ mixed [MOD Nat.gcd 59 capacity] then Nat.gcd 59 capacity else 0
  reached : (List.range capacity).countP (fun slot => slot ≡ mixed [MOD Nat.gcd 59 capacity]) =
    capacity / Nat.gcd 59 capacity
  perm_iff : slots.Perm (List.range capacity) ↔ ¬ 59 ∣ capacity
  crowded : capacity = 59 → slots = List.replicate 59 (mixed % 59)

/-- As many hashes in a row as there are slots have as homes the slots that are congruent to the
mixed value of the first one modulo the common divisor of 59 and the capacity, each of these slots
as often as the divisor says. The mixed value has to be so high that 59 can be taken from it once
for every other hash. -/
theorem row_spreads_by_divisor {capacity : Nat} (positive : 0 < capacity) (hash : UInt64)
    (high : 59 * (capacity - 1) ≤ (mix hash).toNat) :
    ∃ slots, homesFrom hash capacity = .ok slots ∧
      SpreadsByDivisor capacity (mix hash).toNat slots := by
  have homes : homesFrom hash capacity = .ok _ := homesFrom_eq positive
  have descends := descends_of_high high
  have counted := count_homes positive descends homes
  have divides := Nat.gcd_dvd_right 59 capacity
  refine ⟨_, homes, counted, ?_, homes_perm_iff positive descends homes, ?_⟩
  · have congruent := Nat.count_modEq_card capacity
      (Nat.gcd_pos_of_pos_left capacity (by decide : 0 < 59)) (mix hash).toNat
    rw [Nat.mod_eq_zero_of_dvd divides, if_neg (Nat.not_lt_zero _)] at congruent
    exact congruent
  · rintro rfl
    refine List.eq_replicate_iff.mpr ⟨by simp, fun slot member => ?_⟩
    have often := List.count_pos_iff.mpr member
    rw [counted slot, Nat.gcd_self] at often
    split at often
    · next within => exact (Nat.mod_eq_of_lt within.1).symm.trans within.2
    · exact absurd often (Nat.lt_irrefl 0)

/-- Of 118 slots only two are homes, each of 59 hashes. -/
theorem row_spreads_by_divisor_twice_59 :
    59 * (118 - 1) ≤ (mix 1).toNat ∧
    ∃ slots, homesFrom 1 118 = .ok slots ∧
      slots.count 40 = 59 ∧ slots.count 99 = 59 ∧ slots.count 41 = 0 ∧
      ¬ slots.Perm (List.range 118) := by
  have high : 59 * (118 - 1) ≤ (mix 1).toNat := by decide
  obtain ⟨slots, homes, spreads⟩ := row_spreads_by_divisor (by decide : 0 < 118) 1 high
  refine ⟨high, slots, homes, ?_, ?_, ?_, ?_⟩
  · exact (spreads.count_eq 40).trans (by decide)
  · exact (spreads.count_eq 99).trans (by decide)
  · exact (spreads.count_eq 41).trans (by decide)
  · exact fun all => spreads.perm_iff.mp all (by decide)

end SlotTable

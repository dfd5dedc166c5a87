import Mathlib.Data.Int.CardIntervalMod
import Mathlib.Data.Set.Card
import SlotTable.Home

/-!
# Mixing, forwards and backwards

The multiplier is odd, so it has an inverse modulo 2^64 and a mixed value can be taken back to its
hash: mixing is a permutation of the words (`mixing`). The hashes with one home are therefore as
many as the words with one remainder (`ncard_homes`), and these are counted below 2^64.
-/
namespace SlotTable

/-- The inverse of the multiplier modulo 2^64. -/
def scaleInverse : UInt64 := 3751880150584993549

/-- The hash that has the given mixed value. -/
def unmix (mixed : UInt64) : UInt64 :=
  (mixed - scaleIncrement) * scaleInverse

theorem scaleMultiplier_mul_inverse : scaleMultiplier * scaleInverse = 1 := by decide

theorem scaleInverse_mul_multiplier : scaleInverse * scaleMultiplier = 1 := by decide

theorem unmix_mix (hash : UInt64) : unmix (mix hash) = hash := by
  unfold unmix mix
  rw [UInt64.add_sub_cancel, UInt64.mul_assoc, scaleMultiplier_mul_inverse, UInt64.mul_one]

theorem mix_unmix (mixed : UInt64) : mix (unmix mixed) = mixed := by
  unfold unmix mix
  rw [UInt64.mul_assoc, scaleInverse_mul_multiplier, UInt64.mul_one, UInt64.sub_add_cancel]

/-- Mixing as a permutation of the words. -/
def mixing : Equiv.Perm UInt64 where
  toFun := mix
  invFun := unmix
  left_inv := unmix_mix
  right_inv := mix_unmix

/-- As many words have a property of numbers as there are numbers below 2^64 with it. -/
theorem ncard_words (property : Nat → Prop) [DecidablePred property] :
    {word : UInt64 | property word.toNat}.ncard = Nat.count property UInt64.size := by
  have injective : Function.Injective UInt64.toNat := fun _ _ => UInt64.toNat.inj
  have numbers : UInt64.toNat '' {word | property word.toNat} =
      ((Finset.range UInt64.size).filter property : Finset Nat) := by
    ext number
    simp only [Set.mem_image, Set.mem_ofPred_eq, Finset.coe_filter, Finset.mem_range]
    constructor
    · rintro ⟨word, holds, rfl⟩
      exact ⟨word.toNat_lt_size, holds⟩
    · rintro ⟨bound, holds⟩
      have same : (UInt64.ofNat number).toNat = number := UInt64.toNat_ofNat_of_lt' bound
      exact ⟨.ofNat number, by rwa [same], same⟩
  rw [← Set.ncard_image_of_injective _ injective, numbers, Set.ncard_coe_finset,
    Nat.count_eq_card_filter_range]

/-- How many words have a given remainder. -/
theorem ncard_words_modEq {capacity : Nat} (positive : 0 < capacity) (slot : Nat) :
    {word : UInt64 | word.toNat ≡ slot [MOD capacity]}.ncard =
      UInt64.size / capacity + if slot % capacity < UInt64.size % capacity then 1 else 0 := by
  rw [ncard_words fun number => number ≡ slot [MOD capacity]]
  exact Nat.count_modEq_card UInt64.size positive slot

/-- How many hashes have their home at a slot. -/
theorem ncard_homes {capacity slot : Nat} (inside : slot < capacity) :
    {hash : UInt64 | homeIndex hash capacity = slot}.ncard =
      UInt64.size / capacity + if slot < UInt64.size % capacity then 1 else 0 := by
  have least : slot % capacity = slot := Nat.mod_eq_of_lt inside
  have words : mixing '' {hash | homeIndex hash capacity = slot} =
      {word | word.toNat ≡ slot [MOD capacity]} := by
    ext word
    have mixed : mix (mixing.symm word) = word := mix_unmix word
    rw [Equiv.image_eq_preimage_symm, Set.mem_preimage, Set.mem_ofPred_eq, Set.mem_ofPred_eq,
      homeIndex, mixed, Nat.ModEq, least]
  rw [← Set.ncard_image_of_injective _ mixing.injective, words,
    ncard_words_modEq (Nat.zero_lt_of_lt inside), least]

end SlotTable

import Mathlib.Data.Int.CardIntervalMod
import Mathlib.Tactic.NormNum.Prime
import SlotTable.Home

/-!
# Homes of consecutive hashes

The multiplier is 59 less than 2^64 and the increment is 83 less. So the mixed value goes down by 59
from a hash to the next one (`mix_add_offset`), as long as it does not wrap around. The reduction to
a slot sees nothing else where the wrap does not show (`Descends`): if the capacity divides 2^64, or
if the mixed value is high enough for all of the steps. Then it is counted how many of `capacity`
consecutive hashes have one home (`count_homes`).
-/
namespace SlotTable

open Nat (ModEq)

section Congruence

variable {n a b t : Nat}

/-- A linear congruence has a solution if the two sides agree modulo the common divisor. -/
theorem exists_add_mul_modEq (positive : 0 < n) (agree : b ≡ t [MOD n.gcd a]) :
    ∃ k, b + a * k ≡ t [MOD n] := by
  obtain ⟨q, difference⟩ := Nat.modEq_iff_dvd.mp agree
  have bezout := Nat.gcd_eq_gcd_ab n a
  let y := Nat.gcdB n a * q
  have least : ((y % n).toNat : Int) = y % n :=
    Int.toNat_of_nonneg (Int.emod_nonneg y (by omega))
  refine ⟨(y % n).toNat, Nat.modEq_iff_dvd.mpr ⟨Nat.gcdA n a * q + a * (y / n), ?_⟩⟩
  calc (t : Int) - ((b + a * (y % n).toNat : Nat) : Int)
      = (t - b) - a * (y % n) := by
        push_cast
        rw [least]
        ring
    _ = (n * Nat.gcdA n a + a * Nat.gcdB n a) * q - a * (y - n * (y / n)) := by
        rw [difference, bezout, Int.emod_def]
    _ = n * (Nat.gcdA n a * q + a * (y / n)) := by
        ring

/-- The solutions of a linear congruence, one after another, are `n` over the divisor apart. -/
theorem add_mul_modEq_iff {k solution : Nat} (positive : 0 < n)
    (solves : b + a * solution ≡ t [MOD n]) :
    b + a * k ≡ t [MOD n] ↔ k ≡ solution [MOD n / n.gcd a] := by
  constructor
  · intro alsoSolves
    have products := Nat.ModEq.add_left_cancel' b (alsoSolves.trans solves.symm)
    exact Nat.ModEq.cancel_left_div_gcd positive products
  · intro apart
    have common : n ∣ a * (n / n.gcd a) := by
      rw [← Nat.mul_div_assoc _ (Nat.gcd_dvd_left n a), Nat.mul_comm,
        Nat.mul_div_assoc _ (Nat.gcd_dvd_right n a)]
      exact Nat.dvd_mul_right n _
    exact ((apart.mul_left' a).of_dvd common |>.add_left b).trans solves

theorem count_add_mul_modEq (positive : 0 < n) :
    Nat.count (fun k => b + a * k ≡ t [MOD n]) n =
      if b ≡ t [MOD n.gcd a] then n.gcd a else 0 := by
  have divides := Nat.gcd_dvd_left n a
  split
  · next agree =>
    obtain ⟨solution, solves⟩ := exists_add_mul_modEq positive agree
    have step : 0 < n / n.gcd a :=
      Nat.div_pos (Nat.le_of_dvd positive divides) (Nat.gcd_pos_of_pos_left a positive)
    simp only [add_mul_modEq_iff positive solves]
    rw [Nat.count_modEq_card n step, Nat.div_div_self divides positive.ne',
      Nat.mod_eq_zero_of_dvd (Nat.div_dvd_of_dvd divides), if_neg (Nat.not_lt_zero _)]
    rfl
  · next differ =>
    refine List.countP_eq_zero.mpr fun k _ solves => differ ?_
    have still : b + a * k ≡ b [MOD n.gcd a] :=
      (Nat.modEq_zero_iff_dvd.mpr ((Nat.gcd_dvd_right n a).mul_right k)).add_left b
    exact still.symm.trans ((of_decide_eq_true solves).of_dvd divides)

end Congruence

section Mixing

variable (hash : UInt64)

theorem mix_add_modEq : (mix hash).toNat + (59 * hash.toNat + 83) ≡ 0 [MOD 2 ^ 64] := by
  unfold mix scaleMultiplier scaleIncrement ModEq
  rw [UInt64.toNat_add, UInt64.toNat_mul]
  simp only [UInt64.reduceToNat, Nat.reducePow]
  omega

theorem mix_add_offset (offset : Nat) :
    (mix (hash + .ofNat offset)).toNat + 59 * offset ≡ (mix hash).toNat [MOD 2 ^ 64] := by
  have before := mix_add_modEq hash
  have after := mix_add_modEq (hash + .ofNat offset)
  unfold ModEq at before after ⊢
  rw [UInt64.toNat_add, UInt64.toNat_ofNat'] at after
  omega

end Mixing

variable {hash : UInt64} {capacity : Nat}

/-- To a table of that capacity the mixed value goes down by 59 with every hash of a row. -/
def Descends (hash : UInt64) (capacity : Nat) : Prop :=
  ∀ offset < capacity,
    (mix (hash + .ofNat offset)).toNat + 59 * offset ≡ (mix hash).toNat [MOD capacity]

theorem descends_of_dvd (divides : capacity ∣ 2 ^ 64) : Descends hash capacity :=
  fun offset _ => (mix_add_offset hash offset).of_dvd divides

theorem descends_of_high (high : 59 * (capacity - 1) ≤ (mix hash).toNat) :
    Descends hash capacity := by
  intro offset less
  have wrapped := mix_add_offset hash offset
  have bound := (mix hash).toNat_lt
  have boundLater := (mix (hash + .ofNat offset)).toNat_lt
  have unwrapped : (mix (hash + .ofNat offset)).toNat + 59 * offset = (mix hash).toNat := by
    unfold ModEq at wrapped
    omega
  rw [unwrapped]

/-- The homes of as many hashes in a row as there are slots; zero follows the greatest hash. -/
def homesFrom (hash : UInt64) (capacity : Nat) : Except Fault (List Nat) :=
  (List.range capacity).mapM fun offset => home (hash + .ofNat offset) capacity

theorem homesFrom_eq (positive : 0 < capacity) :
    homesFrom hash capacity =
      .ok ((List.range capacity).map fun offset => homeIndex (hash + .ofNat offset) capacity) := by
  unfold homesFrom home
  simp only [if_neg positive.ne']
  exact List.mapM_pure

/-- A slot is the home of a hash farther on if and only if these steps lead up to it. -/
theorem homeIndex_eq_iff {offset slot : Nat} (descends : Descends hash capacity)
    (later : offset < capacity) (bound : slot < capacity) :
    homeIndex (hash + .ofNat offset) capacity = slot ↔
      slot + 59 * offset ≡ (mix hash).toNat [MOD capacity] := by
  have step := descends offset later
  constructor
  · rintro rfl
    exact ((Nat.mod_modEq _ _).add_right _).trans step
  · intro reaches
    have same := ModEq.add_right_cancel' _ (reaches.trans step.symm)
    unfold homeIndex
    rw [← same, Nat.mod_eq_of_lt bound]

/-- How often a slot is the home of one of the hashes. -/
theorem count_homes {slots : List Nat} (positive : 0 < capacity) (descends : Descends hash capacity)
    (homes : homesFrom hash capacity = .ok slots) (slot : Nat) :
    slots.count slot =
      if slot < capacity ∧ slot ≡ (mix hash).toNat [MOD Nat.gcd 59 capacity] then
        Nat.gcd 59 capacity
      else 0 := by
  rw [homesFrom_eq positive] at homes
  obtain rfl := Except.ok.inj homes
  by_cases bound : slot < capacity
  · have counted := count_add_mul_modEq (a := 59) (b := slot) (t := (mix hash).toNat) positive
    rw [Nat.count, Nat.gcd_comm] at counted
    simp only [bound, true_and]
    rw [← counted, List.count_eq_countP, List.countP_map]
    -- The hashes that lead to the slot are the solutions of one congruence for the offset.
    refine List.countP_congr fun offset member => ?_
    rw [Function.comp_apply, beq_iff_eq, decide_eq_true_iff]
    exact homeIndex_eq_iff descends (List.mem_range.mp member) bound
  · rw [if_neg fun within => bound within.1]
    refine List.count_eq_zero.mpr fun member => bound ?_
    obtain ⟨offset, -, rfl⟩ := List.mem_map.mp member
    exact homeIndex_lt _ positive

/-- The hashes have all slots as homes, each once, unless the capacity is a multiple of 59. -/
theorem homes_perm_iff {slots : List Nat} (positive : 0 < capacity)
    (descends : Descends hash capacity) (homes : homesFrom hash capacity = .ok slots) :
    slots.Perm (List.range capacity) ↔ ¬ 59 ∣ capacity := by
  have counted := count_homes positive descends homes
  constructor
  · intro all multiple
    have often := counted (homeIndex hash capacity)
    have same : homeIndex hash capacity ≡ (mix hash).toNat [MOD 59] :=
      (Nat.mod_modEq _ capacity).of_dvd multiple
    rw [Nat.gcd_eq_left multiple, if_pos ⟨homeIndex_lt hash positive, same⟩,
      all.count_eq] at often
    have once := List.nodup_iff_count_le_one.mp (List.nodup_range (n := capacity))
      (homeIndex hash capacity)
    omega
  · intro coprime
    have one : Nat.gcd 59 capacity = 1 :=
      (Nat.Prime.coprime_iff_not_dvd (by norm_num)).mpr coprime
    refine List.perm_iff_count.mpr fun slot => ?_
    rw [counted, one, List.nodup_range.count]
    simp [Nat.modEq_one]

end SlotTable

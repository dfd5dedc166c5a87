import SlotTable.Proofs.Rules.Run

/-!
# Lawful hashes and match rules

A hash and a match rule are lawful when matching is an equivalence and matching keys have the same
hash. Rules are lawful when matching keys have the same home, which is all that a walk sees of a
hash. Under lawful rules every walk treats matching keys alike (`landing_congr`), so what holds of a
stored key holds of every key equal to it.
-/
namespace SlotTable

open Function (update update_self update_of_ne)

variable {K : Type}

structure Lawful (hash : K → UInt64) (matching : K → K → Bool) : Prop where
  refl : ∀ key, matching key key = true
  symm : ∀ {a b}, matching a b = true → matching b a = true
  trans : ∀ {a b c}, matching a b = true → matching b c = true → matching a c = true
  hash_eq : ∀ {a b}, matching a b = true → hash a = hash b

/-- Matching by a part of the key, hashed by the same part, is lawful. -/
theorem Lawful.of_part {A : Type} [BEq A] [LawfulBEq A] (part : K → A) (hash : A → UInt64) :
    Lawful (fun key => hash (part key)) fun a b => part a == part b where
  refl := by
    intro key
    exact beq_self_eq_true _
  symm := by
    intro a b equal
    rw [beq_iff_eq] at equal ⊢
    exact equal.symm
  trans := by
    intro a b c first second
    rw [beq_iff_eq] at first second ⊢
    exact first.trans second
  hash_eq := by
    intro a b equal
    rw [beq_iff_eq] at equal
    rw [equal]

namespace Rules

structure Lawful (rules : Rules K) : Prop where
  refl : ∀ key, rules.matching key key = true
  symm : ∀ {a b}, rules.matching a b = true → rules.matching b a = true
  trans : ∀ {a b c}, rules.matching a b = true → rules.matching b c = true →
    rules.matching a c = true
  home_eq : ∀ {a b}, rules.matching a b = true → rules.home a = rules.home b

theorem ofHash_lawful {hash : K → UInt64} {matching : K → K → Bool} {capacity : Nat}
    (lawful : SlotTable.Lawful hash matching) (positive : 0 < capacity) (refusal : Refusal) :
    (ofHash positive hash matching refusal).Lawful where
  refl := lawful.refl
  symm := lawful.symm
  trans := lawful.trans
  home_eq := by
    intro a b equal
    simp only [ofHash, lawful.hash_eq equal]

namespace Lawful

variable {rules : Rules K} {slots : Slots K} {a b key : K} {index : Nat}

theorem matching_congr_right (lawful : rules.Lawful) (equal : rules.matching a b = true) (key : K) :
    rules.matching key a = rules.matching key b := by
  rw [Bool.eq_iff_iff]
  constructor
  · intro left
    exact lawful.trans left equal
  · intro right
    exact lawful.trans right (lawful.symm equal)

theorem depth_congr (lawful : rules.Lawful) (equal : rules.matching a b = true) (index : Nat) :
    rules.depth a index = rules.depth b index := by
  unfold depth
  rw [lawful.home_eq equal]

theorem matches_congr (lawful : rules.Lawful) (equal : rules.matching a b = true) :
    rules.Matches slots a index ↔ rules.Matches slots b index := by
  simp only [Matches, Walk.Matches, lawful.matching_congr_right equal]

/-- A walk cannot tell matching keys apart. -/
theorem landing_congr (lawful : rules.Lawful) (slots : Slots K)
    (equal : rules.matching a b = true) : rules.landing slots a = rules.landing slots b := by
  have same : rules.depth a = rules.depth b := funext (lawful.depth_congr equal)
  have passes : ∀ index, rules.Passes slots b index → rules.Passes slots a index := by
    intro index passed
    obtain ⟨stored, held, differs⟩ := passed
    exact ⟨stored, held, (lawful.matching_congr_right equal stored).trans differs⟩
  have reaches : ∀ index, rules.Reaches slots b index → rules.Reaches slots a index := by
    intro index reached
    obtain ⟨inside, before⟩ := reached
    refine ⟨inside, fun other below less => passes other (before other below ?_)⟩
    rw [← same]
    exact less
  cases landed : rules.landing slots b with
  | vacant index =>
    obtain ⟨reached, empty⟩ := landing_eq_vacant_iff.mp landed
    exact landing_eq_vacant_iff.mpr ⟨reaches index reached, empty⟩
  | occupied index =>
    obtain ⟨reached, found⟩ := landing_eq_occupied_iff.mp landed
    have answers := (lawful.matches_congr equal).mpr found
    exact landing_eq_occupied_iff.mpr ⟨reaches index reached, answers⟩
  | exhausted =>
    have passed := landing_eq_exhausted_iff.mp landed
    exact landing_eq_exhausted_iff.mpr fun index inside => passes index (passed index inside)

/-- A key that is stored where its walk ends is found there. -/
theorem landing_stored (lawful : rules.Lawful) (landed : rules.landing slots key = .vacant index) :
    rules.landing (update slots index (some key)) key = .occupied index :=
  landing_update_of_matches landed (lawful.refl key)

end Lawful

namespace Effect

variable {rules : Rules K} {slots after : Slots K} {op : Op K} {answer : Answer K}
  {key : K} {index : Nat}

/-- The key of an insert that was answered with a slot is found in that slot. -/
theorem landing_inserted (effect : rules.Effect slots (.insert key) (.slot (some index)) after)
    (lawful : rules.Lawful) : rules.landing after key = .occupied index :=
  effect.landing_of_matching (lawful.refl key)

/-- Only erasing and clearing take a key out of the slot in which it is found. -/
theorem landing_kept (effect : rules.Effect slots op answer after)
    (landed : rules.landing slots key = .occupied index) (clears : op ≠ .clear)
    (unerased : isRemoval (op, answer) = false) :
    rules.landing after key = .occupied index := by
  cases effect with
  | stored vacant =>
    obtain ⟨reaches, empty⟩ := landing_eq_vacant_iff.mp vacant
    exact landing_update_of_occupied reaches.1 empty landed
  | found occupied => exact landed
  | erased occupied => cases unerased
  | cleared => exact absurd rfl clears
  | kept quiet => exact landed

end Effect

end Rules

end SlotTable

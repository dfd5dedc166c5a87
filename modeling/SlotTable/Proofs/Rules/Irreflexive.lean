import SlotTable.Proofs.Rules.Run

/-!
# Keys that do not match themselves

A match rule may be symmetric and transitive and still leave keys that do not match themselves. Such
a key matches no key at all, be it the stored one or the probed one: no walk ends at a slot that
holds it (`slot_ne_of_differs`), and no walk for it ends at an occupied slot
(`indexOf_of_differs`).
-/
namespace SlotTable

variable {K : Type}

structure PartialEquivalence (matching : K → K → Bool) : Prop where
  symm : ∀ {a b}, matching a b = true → matching b a = true
  trans : ∀ {a b c}, matching a b = true → matching b c = true → matching a c = true

namespace PartialEquivalence

variable {matching : K → K → Bool} {a b : K}

/-- A key that matches any key matches itself. -/
theorem self_left (partially : PartialEquivalence matching) (equal : matching a b = true) :
    matching a a = true :=
  partially.trans equal (partially.symm equal)

theorem self_right (partially : PartialEquivalence matching) (equal : matching a b = true) :
    matching b b = true :=
  partially.trans (partially.symm equal) equal

end PartialEquivalence

namespace Rules

variable {rules : Rules K} {slots after : Slots K} {key : K} {index : Nat}

/-- No walk ends at a slot whose key does not match itself. -/
theorem slot_ne_of_differs (partially : PartialEquivalence rules.matching)
    (held : slots index = some key) (differs : rules.matching key key = false) (probed : K) :
    (rules.landing slots probed).slot? ≠ some index := by
  intro landed
  refine (reaches_stop landed).2 ⟨key, held, ?_⟩
  refine Bool.eq_false_iff.mpr fun answers => ?_
  rw [partially.self_left answers] at differs
  cases differs

/-- A walk for a key that does not match itself finds no key. -/
theorem indexOf_of_differs (partially : PartialEquivalence rules.matching) (slots : Slots K)
    (differs : rules.matching key key = false) : rules.indexOf slots key = none := by
  refine Option.eq_none_iff_forall_ne_some.mpr fun index found => ?_
  obtain ⟨-, stored, -, answers⟩ := landing_eq_occupied_iff.mp (indexOf_eq_some_iff.mp found)
  rw [partially.self_right answers] at differs
  cases differs

/-- An insert of such a key that is answered with a slot has filled it. -/
theorem Effect.stored_of_differs (partially : PartialEquivalence rules.matching)
    (differs : rules.matching key key = false)
    (effect : Effect rules slots (.insert key) (.slot (some index)) after) :
    rules.landing slots key = .vacant index ∧ after = Function.update slots index (some key) := by
  cases effect with
  | stored landed => exact ⟨landed, rfl⟩
  | found landed =>
    have found := indexOf_eq_some_iff.mpr landed
    rw [indexOf_of_differs partially slots differs] at found
    cases found
  | kept quiet => exact absurd quiet id

end Rules

end SlotTable

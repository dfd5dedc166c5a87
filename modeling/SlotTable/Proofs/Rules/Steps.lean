import Mathlib.Algebra.GroupWithZero.Nat
import SlotTable.Proofs.Rules.Gather

/-!
# The steps that inserts take

A key that matches no stored key is put into the first empty slot of its walk, and neither the slot
nor the steps to it depend on what the other slots hold (`SameHoles`). Two such keys can change
places: if both walks end at one slot, then the second key goes on from there to the next hole,
whichever key that is. So the steps of all inserts together are the same in every order
(`stepsAll_perm`), although the keys end up in different slots.
-/
namespace SlotTable.Rules

open Function (update update_self update_of_ne update_comm)

variable {K : Type} {rules : Rules K} {slots left : Slots K} {keys others rest : List K}
  {key a b : K} {index : Nat}

/-- The steps from its home to the slot where an insert puts a key. -/
def steps (rules : Rules K) (slots : Slots K) (key : K) : Nat :=
  match rules.landing slots key with
  | .vacant index => rules.depth key index
  | _ => 0

/-- The steps of inserts, made one after the other, together. -/
def stepsAll (rules : Rules K) (slots : Slots K) : List K → Nat
  | [] => 0
  | key :: rest => rules.steps slots key + rules.stepsAll (rules.store slots key) rest

/-- No stored key matches. -/
def Unknown (rules : Rules K) (slots : Slots K) (key : K) : Prop :=
  ∀ index stored, slots index = some stored → rules.matching stored key = false

/-- Keys of which every one can be put into a slot of its own. -/
structure New (rules : Rules K) (slots : Slots K) (keys : List K) : Prop where
  apart : keys.Pairwise fun a b => rules.matching a b = false
  unknown : ∀ key ∈ keys, rules.Unknown slots key
  room : rules.size slots + keys.length ≤ rules.capacity

/-- The same slots are empty. -/
def SameHoles (rules : Rules K) (slots left : Slots K) : Prop :=
  ∀ index < rules.capacity, slots index = none ↔ left index = none

theorem steps_vacant (landed : rules.landing slots key = .vacant index) :
    rules.steps slots key = rules.depth key index := by
  simp only [steps, landed]

theorem Unknown.passes (unknown : rules.Unknown slots key) (held : slots index ≠ none) :
    rules.Passes slots key index := by
  obtain ⟨stored, here⟩ := Option.ne_none_iff_exists'.mp held
  exact ⟨stored, here, unknown index stored here⟩

theorem Unknown.update (unknown : rules.Unknown slots key)
    (differs : rules.matching a key = false) (index : Nat) :
    rules.Unknown (update slots index (some a)) key := by
  intro other stored held
  by_cases same : other = index
  · subst other
    rw [update_self, Option.some.injEq] at held
    rw [← held]
    exact differs
  · rw [update_of_ne same] at held
    exact unknown other stored held

namespace New

theorem exists_vacant (new : rules.New slots (key :: rest)) :
    ∃ index, rules.landing slots key = .vacant index := by
  cases landed : rules.landing slots key with
  | vacant index => exact ⟨index, rfl⟩
  | occupied index =>
    obtain ⟨-, stored, held, equal⟩ := landing_eq_occupied_iff.mp landed
    rw [new.unknown key List.mem_cons_self index stored held] at equal
    cases equal
  | exhausted =>
    have full := (landing_eq_exhausted_iff_full.mp landed).1
    have room := new.room
    rw [List.length_cons] at room
    omega

theorem store (new : rules.New slots (key :: rest)) : rules.New (rules.store slots key) rest := by
  obtain ⟨index, landed⟩ := new.exists_vacant
  obtain ⟨reached, empty⟩ := landing_eq_vacant_iff.mp landed
  obtain ⟨differs, apart⟩ := List.pairwise_cons.mp new.apart
  rw [store_vacant landed]
  constructor
  · exact apart
  · intro other member
    exact (new.unknown other (List.mem_cons_of_mem key member)).update (differs other member) index
  · have room := new.room
    rw [List.length_cons] at room
    rw [size_update_some reached.1 empty]
    omega

theorem storeAll (new : rules.New slots (keys ++ rest)) :
    rules.New (rules.storeAll slots keys) rest := by
  induction keys generalizing slots with
  | nil => exact new
  | cons key keys ih => exact ih new.store

theorem of_empty (apart : keys.Pairwise fun a b => rules.matching a b = false)
    (short : keys.length ≤ rules.capacity) : rules.New (fun _ => none) keys where
  apart := apart
  unknown := by
    intro key member index stored held
    cases held
  room := by
    rw [← length_entries, entries_empty, List.length_nil, Nat.zero_add]
    exact short

theorem perm (lawful : rules.Lawful) (new : rules.New slots keys) (same : keys.Perm others) :
    rules.New slots others := by
  have symmetric : ∀ {a b : K}, rules.matching a b = false → rules.matching b a = false := by
    intro a b differs
    apply Bool.eq_false_iff.mpr
    intro equal
    rw [lawful.symm equal] at differs
    cases differs
  constructor
  · exact (same.pairwise_iff symmetric).mp new.apart
  · intro key member
    exact new.unknown key (same.mem_iff.mpr member)
  · rw [← same.length_eq]
    exact new.room

end New

namespace SameHoles

/-- A key that matches nothing lands in the same slot if the same slots are empty. -/
theorem landing_eq (holes : rules.SameHoles slots left) (unknown : rules.Unknown left key)
    (landed : rules.landing slots key = .vacant index) :
    rules.landing left key = .vacant index := by
  obtain ⟨reached, empty⟩ := landing_eq_vacant_iff.mp landed
  apply landing_eq_vacant_iff.mpr
  refine ⟨⟨reached.1, fun other below less => ?_⟩, (holes index reached.1).mp empty⟩
  obtain ⟨stored, held, -⟩ := reached.2 other below less
  apply unknown.passes
  intro none
  rw [(holes other below).mpr none] at held
  cases held

theorem update (holes : rules.SameHoles slots left) (index : Nat) (a b : K) :
    rules.SameHoles (update slots index (some a)) (update left index (some b)) := by
  intro other below
  by_cases same : other = index
  · subst other
    simp only [update_self, reduceCtorEq]
  · rw [update_of_ne same, update_of_ne same]
    exact holes other below

theorem stepsAll_eq (holes : rules.SameHoles slots left) (new : rules.New slots keys)
    (newLeft : rules.New left keys) : rules.stepsAll slots keys = rules.stepsAll left keys := by
  induction keys generalizing slots left with
  | nil => rfl
  | cons key rest ih =>
    obtain ⟨index, landed⟩ := new.exists_vacant
    have landedLeft := holes.landing_eq (newLeft.unknown key List.mem_cons_self) landed
    have after : rules.SameHoles (rules.store slots key) (rules.store left key) := by
      rw [store_vacant landed, store_vacant landedLeft]
      exact holes.update index key key
    rw [stepsAll, stepsAll, steps_vacant landed, steps_vacant landedLeft,
      ih after new.store newLeft.store]

end SameHoles

/-- Of two keys whose walks end at one slot the one that comes second goes on to the next hole,
whichever of them it is. -/
theorem landing_second {next : Nat} (landedA : rules.landing slots a = .vacant index)
    (landedB : rules.landing slots b = .vacant index)
    (unknown : rules.Unknown (update slots index (some b)) a)
    (second : rules.landing (update slots index (some a)) b = .vacant next) :
    rules.landing (update slots index (some b)) a = .vacant next ∧
      rules.depth a index + rules.depth b next = rules.depth b index + rules.depth a next := by
  obtain ⟨reachedA, -⟩ := landing_eq_vacant_iff.mp landedA
  obtain ⟨reachedB, -⟩ := landing_eq_vacant_iff.mp landedB
  obtain ⟨reachedNext, free⟩ := landing_eq_vacant_iff.mp second
  have different : next ≠ index := by
    rintro rfl
    rw [update_self] at free
    cases free
  rw [update_of_ne different] at free
  -- both keys have the same way to go from the slot to the next hole
  have partsA := reachedA.depth_add_distance reachedNext.1 free
  have partsB := reachedB.depth_add_distance reachedNext.1 free
  refine ⟨landing_eq_vacant_iff.mpr ⟨⟨reachedNext.1, ?_⟩, ?_⟩, by omega⟩
  · intro other below less
    apply unknown.passes
    by_cases same : other = index
    · subst other
      rw [update_self]
      exact Option.some_ne_none b
    · -- a hole before `next` would have stopped `b` as well
      rw [update_of_ne same]
      intro hole
      have parts := reachedA.depth_add_distance below hole
      have detour : rules.depth b other ≤
          rules.depth b index + distance rules.capacity index other :=
        distance_le_add (rules.home_lt b) reachedB.1
      have passed := reachedNext.2 other below (by omega)
      exact Walk.not_passes_of_none hole ((passes_update_of_ne same).mp passed)
  · rw [update_of_ne different]
    exact free

/-- Two keys that change places take as many steps together and leave the same slots empty. -/
theorem New.exchange (new : rules.New slots (a :: b :: rest))
    (exchanged : rules.New slots (b :: a :: rest)) :
    rules.steps slots a + rules.steps (rules.store slots a) b =
        rules.steps slots b + rules.steps (rules.store slots b) a ∧
      rules.SameHoles (rules.store (rules.store slots a) b)
        (rules.store (rules.store slots b) a) := by
  obtain ⟨slotA, landedA⟩ := new.exists_vacant
  obtain ⟨slotB, landedB⟩ := exchanged.exists_vacant
  obtain ⟨next, secondB⟩ := new.store.exists_vacant
  obtain ⟨reachedA, emptyA⟩ := landing_eq_vacant_iff.mp landedA
  obtain ⟨reachedB, emptyB⟩ := landing_eq_vacant_iff.mp landedB
  have unknown := exchanged.store.unknown a List.mem_cons_self
  rw [store_vacant landedA] at secondB
  rw [store_vacant landedB] at unknown
  by_cases same : slotA = slotB
  · subst slotB
    obtain ⟨secondA, together⟩ := landing_second landedA landedB unknown secondB
    rw [store_vacant landedA, store_vacant landedB, store_vacant secondA, store_vacant secondB,
      steps_vacant landedA, steps_vacant landedB, steps_vacant secondA, steps_vacant secondB]
    exact ⟨together, (SameHoles.update (fun _ _ => Iff.rfl) slotA a b).update next b a⟩
  · have stillB : rules.landing (update slots slotA (some a)) b = .vacant slotB := by
      rw [landing_update_of_ne reachedA.1 emptyA (congrArg Landing.slot? landedB) (Ne.symm same)]
      exact landedB
    have stillA : rules.landing (update slots slotB (some b)) a = .vacant slotA := by
      rw [landing_update_of_ne reachedB.1 emptyB (congrArg Landing.slot? landedA) same]
      exact landedA
    rw [store_vacant landedA, store_vacant landedB, store_vacant stillA, store_vacant stillB,
      steps_vacant landedA, steps_vacant landedB, steps_vacant stillA, steps_vacant stillB,
      update_comm same]
    exact ⟨Nat.add_comm .., fun _ _ => Iff.rfl⟩

/-- The steps of all inserts together are the same in every order. -/
theorem New.stepsAll_perm (lawful : rules.Lawful) (new : rules.New slots keys)
    (same : keys.Perm others) : rules.stepsAll slots keys = rules.stepsAll slots others := by
  induction same generalizing slots with
  | nil => rfl
  | cons key same ih => rw [stepsAll, stepsAll, ih new.store]
  | swap b a rest =>
    have exchanged := new.perm lawful (.swap b a rest)
    obtain ⟨together, holes⟩ := new.exchange exchanged
    simp only [stepsAll]
    rw [← Nat.add_assoc, ← Nat.add_assoc, together,
      holes.stepsAll_eq new.store.store exchanged.store.store]
  | trans first second ihFirst ihSecond =>
    exact (ihFirst new).trans (ihSecond (new.perm lawful first))

/-- A key stays where its insert put it. -/
theorem landing_storeAll_cons (lawful : rules.Lawful)
    (landed : rules.landing slots key = .vacant index) (rest : List K) :
    rules.landing (rules.storeAll slots (key :: rest)) key = .occupied index := by
  have settled := (settled_store lawful slots key).landing_storeAll rest
  rw [store_vacant landed, lawful.landing_stored landed, ← store_vacant landed] at settled
  exact settled

/-- Every key is found after all inserts. -/
theorem New.exists_slotOf (lawful : rules.Lawful) (new : rules.New slots keys) :
    ∃ slotOf : K → Nat, ∀ key ∈ keys,
      rules.landing (rules.storeAll slots keys) key = .occupied (slotOf key) := by
  have occupied : ∀ key ∈ keys, ∃ index,
      rules.landing (rules.storeAll slots keys) key = .occupied index := by
    induction keys generalizing slots with
    | nil => exact fun _ member => nomatch member
    | cons first rest ih =>
      intro key member
      rcases List.mem_cons.mp member with rfl | later
      · obtain ⟨index, landed⟩ := new.exists_vacant
        exact ⟨index, landing_storeAll_cons lawful landed rest⟩
      · exact ih new.store key later
  choose! slotOf found using occupied
  exact ⟨slotOf, found⟩

/-- Of two keys whose walks end at one slot the first one takes it, so each of them ends up in
another slot if they change places. -/
theorem New.exists_ne (lawful : rules.Lawful) (exchanged : rules.New slots (b :: a :: rest))
    (landedA : rules.landing slots a = .vacant index)
    (landedB : rules.landing slots b = .vacant index) :
    ∃ next, index ≠ next ∧
      rules.landing (rules.storeAll slots (a :: b :: rest)) a = .occupied index ∧
      rules.landing (rules.storeAll slots (b :: a :: rest)) a = .occupied next := by
  obtain ⟨next, second⟩ := exchanged.store.exists_vacant
  refine ⟨next, ?_, landing_storeAll_cons lawful landedA _, landing_storeAll_cons lawful second _⟩
  rintro rfl
  have free := (landing_eq_vacant_iff.mp second).2
  rw [store_vacant landedB, update_self] at free
  cases free

/-- The steps that the inserts took are those from the homes of the keys to where they are found. -/
theorem New.sum_depth (lawful : rules.Lawful) (new : rules.New slots keys) {slotOf : K → Nat}
    (found : ∀ key ∈ keys,
      rules.landing (rules.storeAll slots keys) key = .occupied (slotOf key)) :
    (keys.map fun key => rules.depth key (slotOf key)).sum = rules.stepsAll slots keys := by
  induction keys generalizing slots with
  | nil => rfl
  | cons key rest ih =>
    obtain ⟨index, landed⟩ := new.exists_vacant
    have here := found key List.mem_cons_self
    rw [landing_storeAll_cons lawful landed, Landing.occupied.injEq] at here
    rw [List.map_cons, List.sum_cons, stepsAll, steps_vacant landed, here,
      ih new.store fun other member => found other (List.mem_cons_of_mem key member)]

end SlotTable.Rules

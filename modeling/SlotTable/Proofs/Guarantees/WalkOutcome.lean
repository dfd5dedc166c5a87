import SlotTable.Proofs.Rules.Landing
import SlotTable.Proofs.Walk.Asked

/-!
# The outcome of a walk

The slots that a walk visits determine it. It ends at the first one that is empty or has a key that
matches, and is exhausted when there is none. It asks about the keys in the slots that it visits,
about each of them once and in their order, with the stored key first, and about no other after one
that matches. That holds of every storage, whatever is in it, and of every match rule, also of one
that is not symmetric or does not match a key with itself.
-/
namespace SlotTable

variable {K S : Type}

/-- The slot to which so many steps lead from the home slot of a hash. -/
def slotAfter (hash : UInt64) (capacity steps : Nat) : Nat :=
  (homeIndex hash capacity + steps) % capacity

/-- A slot with a key that does not match. -/
def PassedAt [Storage S K] (slots : S) (matching : K → K → Bool) (key : K) (slot : Nat) : Prop :=
  ∃ stored, Storage.keyAt slots slot = .ok (some stored) ∧ matching stored key = false

/-- A slot with a key that matches. -/
def MatchedAt [Storage S K] (slots : S) (matching : K → K → Bool) (key : K) (slot : Nat) : Prop :=
  ∃ stored, Storage.keyAt slots slot = .ok (some stored) ∧ matching stored key = true

/-- A slot to which some number of steps leads, past slots with keys that do not match. -/
def ReachedAt [Storage S K] (slots : S) (matching : K → K → Bool) (hash : UInt64) (key : K)
    (slot : Nat) : Prop :=
  ∃ steps < Storage.capacity slots, slotAfter hash (Storage.capacity slots) steps = slot ∧
    ∀ earlier < steps,
      PassedAt slots matching key (slotAfter hash (Storage.capacity slots) earlier)

/-- Where the walk for a key ends. -/
structure WalkLands [Storage S K] (slots : S) (matching : K → K → Bool) (hash : UInt64) (key : K)
    (landing : Landing) : Prop where
  visits_once : ∀ slot < Storage.capacity slots,
    ∃! steps, steps < Storage.capacity slots ∧ slotAfter hash (Storage.capacity slots) steps = slot
  vacant_iff : ∀ slot, landing = .vacant slot ↔
    ReachedAt slots matching hash key slot ∧ Storage.keyAt slots slot = .ok none
  occupied_iff : ∀ slot, landing = .occupied slot ↔
    ReachedAt slots matching hash key slot ∧ MatchedAt slots matching key slot
  exhausted_iff : landing = .exhausted ↔
    ∀ slot < Storage.capacity slots, PassedAt slots matching key slot

/-- About which stored keys the walk for a key asks. -/
structure WalkAsks [Storage S K] (slots : S) (matching : K → K → Bool) (hash : UInt64) (key : K)
    (walk : Walk K) : Prop where
  /-- The keys that are asked about stand in the slots that are visited first. -/
  compared_eq : walk.compared.map (fun stored => .ok (some stored)) =
    (List.range walk.compared.length).map fun steps =>
      Storage.keyAt slots (slotAfter hash (Storage.capacity slots) steps)
  compared_vacant : ∀ steps < Storage.capacity slots,
    walk.landing = .vacant (slotAfter hash (Storage.capacity slots) steps) →
      walk.compared.length = steps
  compared_occupied : ∀ steps < Storage.capacity slots,
    walk.landing = .occupied (slotAfter hash (Storage.capacity slots) steps) →
      walk.compared.length = steps + 1
  compared_exhausted : walk.landing = .exhausted →
    walk.compared.length = Storage.capacity slots
  compared_le : ∃ count, Storage.occupiedCount slots = .ok count ∧ walk.compared.length ≤ count
  stops_at_match : ∀ place stored, walk.compared[place]? = some stored →
    matching stored key = true → place + 1 = walk.compared.length
  /-- What the match rule says of these keys decides the walk, and what it says of others makes no
  difference. -/
  decided : ∀ other : K → K → Bool, Walk.ofHash slots other hash key = .ok walk ↔
    ∀ stored ∈ walk.compared, other stored key = matching stored key

section Steps

variable {hash : UInt64} {capacity steps slot : Nat} (positive : 0 < capacity)
include positive

theorem slotAfter_lt (hash : UInt64) (steps : Nat) : slotAfter hash capacity steps < capacity :=
  Nat.mod_lt _ positive

theorem slotAfter_inj {other : Nat} (near : steps < capacity) (nearOther : other < capacity)
    (equal : slotAfter hash capacity steps = slotAfter hash capacity other) : steps = other := by
  have below := homeIndex_lt hash positive
  rw [← distance_start_add_mod below near, ← distance_start_add_mod below nearOther]
  exact congrArg (distance capacity (homeIndex hash capacity)) equal

theorem existsUnique_slotAfter (hash : UInt64) (inside : slot < capacity) :
    ∃! steps, steps < capacity ∧ slotAfter hash capacity steps = slot := by
  have below := homeIndex_lt hash positive
  have near := distance_lt below inside
  have leads := start_add_distance_mod below inside
  refine ⟨distance capacity (homeIndex hash capacity) slot, ⟨near, leads⟩, ?_⟩
  intro steps other
  exact slotAfter_inj positive other.1 near (other.2.trans leads.symm)

theorem Walk.getElem?_order :
    (Walk.order hash capacity)[steps]? = some slot ↔
      steps < capacity ∧ slotAfter hash capacity steps = slot := by
  have below := homeIndex_lt hash positive
  unfold Walk.order
  by_cases near : steps < capacity
  · rw [getElem?_visitOrder below near, Option.some.injEq]
    exact (and_iff_right near).symm
  · have past : (visitOrder (homeIndex hash capacity) capacity).length ≤ steps := by
      rw [length_visitOrder (Nat.le_of_lt below)]
      exact Nat.le_of_not_lt near
    rw [List.getElem?_eq_none past]
    simp [near]

theorem Walk.order_perm (hash : UInt64) :
    (Walk.order hash capacity).Perm (List.range capacity) := by
  unfold order
  exact visitOrder_perm (Nat.le_of_lt (homeIndex_lt hash positive))

/-- A walk that ends so many steps from its home slot has asked about so many keys, and about one
more if the last one matches. -/
theorem Walk.Ends.count_eq {landing : Landing} {count : Nat}
    (ends : Ends (order hash capacity) landing count) (near : steps < capacity) :
    (landing = .vacant (slotAfter hash capacity steps) → count = steps) ∧
      (landing = .occupied (slotAfter hash capacity steps) → count = steps + 1) := by
  have same : ∀ {last : Nat}, (order hash capacity)[last]? = some (slotAfter hash capacity steps) →
      last = steps := by
    intro last reached
    obtain ⟨nearer, equal⟩ := (getElem?_order positive).mp reached
    exact slotAfter_inj positive nearer near equal
  cases ends with
  | vacant reached =>
    refine ⟨fun landed => ?_, nofun⟩
    rw [Landing.vacant.inj landed] at reached
    exact same reached
  | occupied reached =>
    refine ⟨nofun, fun landed => ?_⟩
    rw [Landing.occupied.inj landed] at reached
    rw [same reached]
  | exhausted => exact ⟨nofun, nofun⟩

theorem Walk.Ends.count_exhausted {count : Nat}
    (ends : Ends (order hash capacity) .exhausted count) : count = capacity := by
  cases ends
  unfold order
  exact length_visitOrder (Nat.le_of_lt (homeIndex_lt hash positive))

end Steps

/-- A list read off by position. -/
theorem map_eq_map_range {A B : Type} {list : List A} {entry : A → B} {reading : Nat → B}
    (each : ∀ place a, list[place]? = some a → entry a = reading place) :
    list.map entry = (List.range list.length).map reading := by
  refine List.ext_getElem (by simp) fun place near _ => ?_
  rw [List.length_map] at near
  rw [List.getElem_map, List.getElem_map, List.getElem_range]
  exact each place _ (List.getElem?_eq_getElem near)

section Storage

variable [Storage S K] [LawfulStorage S K] {slots : S} {matching : K → K → Bool} {hash : UInt64}
  {key : K} {slot : Nat}

theorem passedAt_iff (inside : slot < Storage.capacity slots) :
    PassedAt slots matching key slot ↔ Walk.Passes (slotOf slots) matching key slot := by
  simp only [PassedAt, Walk.Passes, keyAt_eq_slotOf inside, Except.ok.injEq]

theorem matchedAt_iff (inside : slot < Storage.capacity slots) :
    MatchedAt slots matching key slot ↔ Walk.Matches (slotOf slots) matching key slot := by
  simp only [MatchedAt, Walk.Matches, keyAt_eq_slotOf inside, Except.ok.injEq]

/-- The slots that can be reached are those that the walk reaches under rules that give every key
this hash. -/
theorem reachedAt_iff (positive : 0 < Storage.capacity slots) :
    ReachedAt slots matching hash key slot ↔
      (Rules.ofHash positive (fun _ => hash) matching .silent).Reaches (slotOf slots) key slot := by
  rw [Rules.reaches_iff_steps, ReachedAt]
  simp only [passedAt_iff (slotAfter_lt positive hash _)]
  rfl

/-- The key that is asked about after so many others is the one to which so many steps lead. -/
theorem keyAt_of_asked (positive : 0 < Storage.capacity slots) {place : Nat} {stored : K}
    (asks : (Walk.asked (slotOf slots) matching key
      (Walk.order hash (Storage.capacity slots)))[place]? = some stored) :
    Storage.keyAt slots (slotAfter hash (Storage.capacity slots) place) = .ok (some stored) := by
  obtain ⟨⟨slot, visited, held⟩, -⟩ := Walk.getElem?_asked asks
  obtain ⟨-, rfl⟩ := (Walk.getElem?_order positive).mp visited
  rw [keyAt_eq_slotOf (slotAfter_lt positive hash place), held]

theorem walkLands_stop (positive : 0 < Storage.capacity slots) :
    WalkLands slots matching hash key
      (Walk.stop (slotOf slots) matching key (Walk.order hash (Storage.capacity slots))) := by
  have lands : Walk.stop (slotOf slots) matching key (Walk.order hash (Storage.capacity slots)) =
      (Rules.ofHash positive (fun _ => hash) matching .silent).landing (slotOf slots) key := by
    unfold Walk.order
    rfl
  rw [lands]
  constructor
  case visits_once =>
    intro slot inside
    exact existsUnique_slotAfter positive hash inside
  case vacant_iff =>
    intro slot
    rw [Rules.landing_eq_vacant_iff, reachedAt_iff positive]
    refine and_congr_right fun reached => ?_
    rw [keyAt_eq_slotOf reached.1, Except.ok.injEq]
  case occupied_iff =>
    intro slot
    rw [Rules.landing_eq_occupied_iff, reachedAt_iff positive]
    exact and_congr_right fun reached => (matchedAt_iff reached.1).symm
  case exhausted_iff =>
    rw [Rules.landing_eq_exhausted_iff]
    exact forall₂_congr fun slot inside => (passedAt_iff inside).symm

theorem walkAsks_stop (positive : 0 < Storage.capacity slots) :
    WalkAsks slots matching hash key
      ⟨Walk.stop (slotOf slots) matching key (Walk.order hash (Storage.capacity slots)),
        Walk.asked (slotOf slots) matching key (Walk.order hash (Storage.capacity slots))⟩ := by
  have ends := Walk.stop_ends (slotOf slots) matching key (Walk.order hash (Storage.capacity slots))
  constructor
  case compared_eq =>
    exact map_eq_map_range fun place stored asks => (keyAt_of_asked positive asks).symm
  case compared_vacant =>
    intro steps near
    exact (ends.count_eq positive near).1
  case compared_occupied =>
    intro steps near
    exact (ends.count_eq positive near).2
  case compared_exhausted =>
    intro landed
    dsimp only at landed ⊢
    rw [landed] at ends
    exact ends.count_exhausted positive
  case compared_le =>
    refine ⟨_, occupiedCount_eq slots, ?_⟩
    dsimp only
    rw [← (Walk.order_perm positive hash).countP_eq]
    exact Walk.length_asked_le ..
  case stops_at_match =>
    intro place stored asks answers
    have near := List.getElem?_eq_some_iff.mp asks |>.1
    refine Nat.le_antisymm near (Nat.le_of_not_lt fun more => ?_)
    rw [(Walk.getElem?_asked asks).2 more] at answers
    cases answers
  case decided =>
    intro other
    rw [Walk.ofHash_eq slots positive, Except.ok.injEq, Walk.mk.injEq]
    exact Walk.stop_eq_iff

end Storage

/-- Over every storage with slots, under every hash and match rule, the walk for a key ends. It ends
at the first slot on its way that is empty or has a key that matches; and it asks about the stored
keys up to this slot, in their order and about no other, so not about more than are stored. -/
theorem walk_outcome [Storage S K] [LawfulStorage S K] (slots : S)
    (positive : 0 < Storage.capacity slots) (matching : K → K → Bool) (hash : UInt64) (key : K) :
    ∃ walk, Walk.ofHash slots matching hash key = .ok walk ∧
      WalkLands slots matching hash key walk.landing ∧ WalkAsks slots matching hash key walk := by
  refine ⟨_, Walk.ofHash_eq slots positive matching hash key, ?_, ?_⟩
  · exact walkLands_stop positive
  · exact walkAsks_stop positive

/-- From slot 3 around the end, past 9 and 5, to the first key that is not above 4. The rule is not
symmetric: 4 as the stored key would match 9. -/
theorem walk_outcome_of_wrapped :
    ∃ (slots : OptionalSlots Nat) (walk : Walk Nat), slots = ⟨#[some 5, some 3, none, some 9]⟩ ∧
      Walk.ofHash slots (fun a b => a ≤ b) 10 4 = .ok walk ∧
      WalkLands slots (fun a b => a ≤ b) 10 4 walk.landing ∧
      WalkAsks slots (fun a b => a ≤ b) 10 4 walk ∧ walk = ⟨.occupied 1, [9, 5, 3]⟩ := by
  obtain ⟨walk, walked, lands, asks⟩ := walk_outcome
    (OptionalSlots.mk #[some 5, some 3, none, some 9]) (by decide) (fun a b => a ≤ b) 10 4
  refine ⟨_, walk, rfl, walked, lands, asks, ?_⟩
  have walks : Walk.ofHash (OptionalSlots.mk #[some 5, some 3, none, some 9])
      (fun a b => decide (a ≤ b)) 10 4 = .ok ⟨.occupied 1, [9, 5, 3]⟩ := rfl
  exact Except.ok.inj (walked.symm.trans walks)

end SlotTable

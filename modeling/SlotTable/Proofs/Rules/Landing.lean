import SlotTable.Proofs.Rules.Basic

/-!
# Landings

Where a walk stops, and what one changed slot does to that. A landing is vacant, occupied or
exhausted exactly as the slots up to the stop say (`landing_eq_vacant_iff` and its two companions).
A change past the stop moves no landing; emptying a slot that a walk reaches makes the walk stop
there (`landing_update_none`); filling an empty slot hides no key (`landing_update_of_occupied`).
-/
namespace SlotTable.Rules

open Function (update update_self update_of_ne)

variable {K : Type} {rules : Rules K} {slots : Slots K} {key : K} {index : Nat}
  {entry : Option K}

theorem depth_inj {a b : Nat} (insideA : a < rules.capacity) (insideB : b < rules.capacity)
    (equal : rules.depth key a = rules.depth key b) : a = b :=
  distance_inj (rules.home_lt key) insideA insideB equal

/-- A walk comes as far as a slot when it passes those that fewer steps lead to. -/
theorem reaches_iff_steps :
    rules.Reaches slots key index ↔
      ∃ steps < rules.capacity, (rules.home key + steps) % rules.capacity = index ∧
        ∀ earlier < steps,
          rules.Passes slots key ((rules.home key + earlier) % rules.capacity) := by
  have below := rules.home_lt key
  have positive := Nat.zero_lt_of_lt below
  constructor
  · intro reaches
    obtain ⟨inside, passed⟩ := reaches
    have near := distance_lt below inside
    refine ⟨rules.depth key index, near, start_add_distance_mod below inside, ?_⟩
    intro earlier less
    refine passed _ (Nat.mod_lt _ positive) ?_
    rw [depth, distance_start_add_mod below (Nat.lt_trans less near)]
    exact less
  · intro reaches
    obtain ⟨steps, near, rfl, passed⟩ := reaches
    refine ⟨Nat.mod_lt _ positive, fun before inside less => ?_⟩
    rw [depth, depth, distance_start_add_mod below near] at less
    rw [← start_add_distance_mod below inside]
    exact passed _ less

theorem landing_stopsAt (rules : Rules K) (slots : Slots K) (key : K) :
    Walk.StopsAt (· < rules.capacity) (rules.depth key) slots rules.matching key
      (rules.landing slots key) := by
  have below := rules.home_lt key
  have visited : (· ∈ visitOrder (rules.home key) rules.capacity) = (· < rules.capacity) :=
    funext fun index => propext (mem_visitOrder (Nat.le_of_lt below))
  rw [← visited]
  exact Walk.stop_stopsAt _ _ (visitOrder_pairwise below)

theorem landing_eq_iff {landing : Landing} :
    rules.landing slots key = landing ↔ Walk.StopsAt (· < rules.capacity) (rules.depth key)
      slots rules.matching key landing := by
  have stops := landing_stopsAt rules slots key
  constructor
  · intro landed
    exact landed ▸ stops
  · exact stops.unique fun _ _ => depth_inj

theorem landing_eq_vacant_iff :
    rules.landing slots key = .vacant index ↔
      rules.Reaches slots key index ∧ slots index = none := by
  rw [landing_eq_iff]
  constructor
  · intro stops
    cases stops with
    | vacant reached empty => exact ⟨reached, empty⟩
  · intro stops
    exact .vacant stops.1 stops.2

theorem landing_eq_occupied_iff :
    rules.landing slots key = .occupied index ↔
      rules.Reaches slots key index ∧ rules.Matches slots key index := by
  rw [landing_eq_iff]
  constructor
  · intro stops
    cases stops with
    | occupied reached found => exact ⟨reached, found⟩
  · intro stops
    exact .occupied stops.1 stops.2

theorem landing_eq_exhausted_iff :
    rules.landing slots key = .exhausted ↔
      ∀ index < rules.capacity, rules.Passes slots key index := by
  rw [landing_eq_iff]
  constructor
  · intro stops
    cases stops with
    | exhausted passed => exact passed
  · exact .exhausted

theorem indexOf_eq_some_iff :
    rules.indexOf slots key = some index ↔ rules.landing slots key = .occupied index := by
  unfold indexOf
  cases rules.landing slots key <;> simp

theorem contains_eq_isSome (rules : Rules K) (slots : Slots K) (key : K) :
    rules.contains slots key = (rules.indexOf slots key).isSome := by
  unfold contains indexOf
  cases rules.landing slots key <;> rfl

theorem indexOf_eq_none_of_vacant (landed : rules.landing slots key = .vacant index) :
    rules.indexOf slots key = none := by
  unfold indexOf
  rw [landed]

theorem perform_insert_vacant (landed : rules.landing slots key = .vacant index) :
    rules.perform slots (.insert key) =
      .ok (.slot (some index), update slots index (some key)) := by
  simp only [perform, landed]

theorem perform_insert_occupied (landed : rules.landing slots key = .occupied index) :
    rules.perform slots (.insert key) = .ok (.slot (some index), slots) := by
  simp only [perform, landed]

theorem perform_insert_exhausted (landed : rules.landing slots key = .exhausted) :
    rules.perform slots (.insert key) =
      (rules.refusal.answer rules.capacity).map fun answer => (answer, slots) := by
  simp only [perform, landed]

theorem perform_erase_found (landed : rules.landing slots key = .occupied index) :
    rules.perform slots (.erase key) = .ok (.slot (some index), update slots index none) := by
  simp only [perform, landed]

theorem perform_erase_missed (missing : rules.indexOf slots key = none) :
    rules.perform slots (.erase key) = .ok (.slot none, slots) := by
  simp only [perform]
  unfold indexOf at missing
  cases landed : rules.landing slots key with
  | occupied index => simp [landed] at missing
  | _ => rfl

/-- The walk comes as far as its stop, and it does not pass it. -/
theorem reaches_stop {stop : Nat} (landed : (rules.landing slots key).slot? = some stop) :
    rules.Reaches slots key stop ∧ ¬ rules.Passes slots key stop := by
  cases landing : rules.landing slots key with
  | vacant index =>
    obtain ⟨reaches, empty⟩ := landing_eq_vacant_iff.mp landing
    rw [landing] at landed
    cases landed
    exact ⟨reaches, Walk.not_passes_of_none empty⟩
  | occupied index =>
    obtain ⟨reaches, found⟩ := landing_eq_occupied_iff.mp landing
    rw [landing] at landed
    cases landed
    exact ⟨reaches, found.not_passes⟩
  | exhausted => simp [landing, Landing.slot?] at landed

theorem landing_slot_lt {key : K} {index : Nat}
    (landed : (rules.landing slots key).slot? = some index) : index < rules.capacity :=
  (reaches_stop landed).1.1

theorem indexOf_lt {key : K} {index : Nat} (found : rules.indexOf slots key = some index) :
    index < rules.capacity :=
  (landing_eq_occupied_iff.mp (indexOf_eq_some_iff.mp found)).1.1

theorem Reaches.of_depth_le {other : Nat} (reaches : rules.Reaches slots key index)
    (inside : other < rules.capacity)
    (shallow : rules.depth key other ≤ rules.depth key index) : rules.Reaches slots key other :=
  ⟨inside, fun before below less => reaches.2 before below (Nat.lt_of_lt_of_le less shallow)⟩

/-- A walk reaches no slot past a key that matches. -/
theorem Reaches.depth_le {other : Nat} (reaches : rules.Reaches slots key index)
    (inside : other < rules.capacity) (found : rules.Matches slots key other) :
    rules.depth key index ≤ rules.depth key other := by
  refine Nat.le_of_not_lt fun deeper => ?_
  exact found.not_passes (reaches.2 other inside deeper)

/-- A walk reaches no slot past a hole. -/
theorem Reaches.depth_le_of_empty {hole : Nat} (reaches : rules.Reaches slots key index)
    (inside : hole < rules.capacity) (empty : slots hole = none) :
    rules.depth key index ≤ rules.depth key hole := by
  refine Nat.le_of_not_lt fun deeper => ?_
  exact Walk.not_passes_of_none empty (reaches.2 hole inside deeper)

/-- The way to a hole leads over every slot that the walk reaches. -/
theorem Reaches.depth_add_distance {hole : Nat} (reaches : rules.Reaches slots key index)
    (inside : hole < rules.capacity) (empty : slots hole = none) :
    rules.depth key index + distance rules.capacity index hole = rules.depth key hole :=
  distance_add_distance (rules.home_lt key) reaches.1 inside
    (.inl (reaches.depth_le_of_empty inside empty))

/-- The slots that a walk reaches are those up to its stop. -/
theorem reaches_iff_depth_le {stop : Nat}
    (landed : (rules.landing slots key).slot? = some stop) (inside : index < rules.capacity) :
    rules.Reaches slots key index ↔ rules.depth key index ≤ rules.depth key stop := by
  obtain ⟨reaches, stops⟩ := reaches_stop landed
  constructor
  · intro reached
    refine Nat.le_of_not_lt fun deeper => stops ?_
    exact reached.2 stop reaches.1 deeper
  · exact reaches.of_depth_le inside

/-- In empty slots every key is at home. -/
theorem landing_none (rules : Rules K) (key : K) :
    rules.landing (fun _ => none) key = .vacant (rules.home key) := by
  refine landing_eq_vacant_iff.mpr ⟨⟨rules.home_lt key, fun other below less => ?_⟩, rfl⟩
  have near : rules.depth key (rules.home key) = 0 := by simp [depth, distance]
  omega

section Update

theorem passes_update_of_ne {other : Nat} (different : other ≠ index) :
    rules.Passes (update slots index entry) key other ↔ rules.Passes slots key other := by
  simp only [Passes, Walk.Passes, update_of_ne different]

theorem matches_update_of_ne {other : Nat} (different : other ≠ index) :
    rules.Matches (update slots index entry) key other ↔ rules.Matches slots key other := by
  simp only [Matches, Walk.Matches, update_of_ne different]

/-- A slot that does not match before a change nor after it makes no difference to which do. -/
theorem matches_update_of_not {other : Nat} (before : ¬ rules.Matches slots key index)
    (after : ∀ stored, entry = some stored → rules.matching stored key = false) :
    rules.Matches (update slots index entry) key other ↔ rules.Matches slots key other := by
  by_cases same : other = index
  · subst other
    refine iff_of_false ?_ before
    intro found
    obtain ⟨stored, held, equal⟩ := found
    rw [update_self] at held
    rw [after stored held] at equal
    cases equal
  · exact matches_update_of_ne same

/-- Whether a walk comes as far as a slot depends on shallower slots only. -/
theorem reaches_update {other : Nat} (shallow : rules.depth key other ≤ rules.depth key index) :
    rules.Reaches (update slots index entry) key other ↔ rules.Reaches slots key other := by
  have same : ∀ before, rules.depth key before < rules.depth key other →
      (rules.Passes (update slots index entry) key before ↔ rules.Passes slots key before) := by
    intro before less
    refine passes_update_of_ne ?_
    intro equal
    subst before
    omega
  constructor
  · intro reaches
    exact ⟨reaches.1, fun slot below less => (same slot less).mp (reaches.2 slot below less)⟩
  · intro reaches
    exact ⟨reaches.1, fun slot below less => (same slot less).mpr (reaches.2 slot below less)⟩

/-- A change past the stop of a walk does not move its landing. -/
theorem landing_update_of_deeper {stop : Nat}
    (landed : (rules.landing slots key).slot? = some stop)
    (deeper : rules.depth key stop < rules.depth key index) :
    rules.landing (update slots index entry) key = rules.landing slots key := by
  have different : stop ≠ index := by
    intro equal
    subst stop
    exact Nat.lt_irrefl _ deeper
  have shallow := Nat.le_of_lt deeper
  cases landing : rules.landing slots key with
  | vacant slot =>
    rw [landing] at landed
    cases landed
    obtain ⟨reaches, empty⟩ := landing_eq_vacant_iff.mp landing
    rw [landing_eq_vacant_iff, reaches_update shallow, update_of_ne different]
    exact ⟨reaches, empty⟩
  | occupied slot =>
    rw [landing] at landed
    cases landed
    obtain ⟨reaches, found⟩ := landing_eq_occupied_iff.mp landing
    rw [landing_eq_occupied_iff, reaches_update shallow, matches_update_of_ne different]
    exact ⟨reaches, found⟩
  | exhausted => simp [landing, Landing.slot?] at landed

/-- A walk stops at a slot that it reaches once that slot is emptied. -/
theorem landing_update_none (reaches : rules.Reaches slots key index) :
    rules.landing (update slots index none) key = .vacant index := by
  rw [landing_eq_vacant_iff, reaches_update (Nat.le_refl _)]
  exact ⟨reaches, update_self index none slots⟩

/-- A walk that used to end at a slot finds there a key that matches. -/
theorem landing_update_of_matches {stored : K} (landed : rules.landing slots key = .vacant index)
    (answers : rules.matching stored key = true) :
    rules.landing (update slots index (some stored)) key = .occupied index := by
  rw [landing_eq_occupied_iff, reaches_update (Nat.le_refl _)]
  exact ⟨(landing_eq_vacant_iff.mp landed).1, stored, update_self .., answers⟩

/-- A change of an empty slot moves no landing but those on it. -/
theorem landing_update_of_ne {stop : Nat} (inside : index < rules.capacity)
    (empty : slots index = none) (landed : (rules.landing slots key).slot? = some stop)
    (different : stop ≠ index) :
    rules.landing (update slots index entry) key = rules.landing slots key := by
  have reaches := (reaches_stop landed).1
  refine landing_update_of_deeper landed (Nat.lt_of_not_le fun shallow => ?_)
  rcases Nat.lt_or_eq_of_le shallow with less | equal
  · exact Walk.not_passes_of_none empty (reaches.2 index inside less)
  · exact different (depth_inj reaches.1 inside equal.symm)

/-- Filling an empty slot leaves every key where the walk finds it. -/
theorem landing_update_of_occupied {stop : Nat} (inside : index < rules.capacity)
    (empty : slots index = none) (landed : rules.landing slots key = .occupied stop) :
    rules.landing (update slots index entry) key = .occupied stop := by
  have slot : (rules.landing slots key).slot? = some stop := by
    rw [landed]
    rfl
  have different : stop ≠ index := by
    rintro rfl
    exact (landing_eq_occupied_iff.mp landed).2.ne_none empty
  rw [landing_update_of_ne inside empty slot different, landed]

end Update

end SlotTable.Rules

import SlotTable.Walk

/-!
# Cyclic distance

The distance of a slot from a start is the number of steps forward, around the end, that lead there.
A walk visits the slots in the order of their distance from its start, and no two slots are equally
far; proofs about walks need nothing else of positions.
-/
namespace SlotTable

/-- The number of steps forward from `start` to `slot`. -/
def distance (capacity start slot : Nat) : Nat :=
  if start ≤ slot then slot - start else slot + capacity - start

theorem distance_lt {capacity start slot : Nat} (below : start < capacity)
    (inside : slot < capacity) : distance capacity start slot < capacity := by
  unfold distance
  split <;> omega

theorem distance_inj {capacity start a b : Nat} (below : start < capacity) (insideA : a < capacity)
    (insideB : b < capacity) (equal : distance capacity start a = distance capacity start b) :
    a = b := by
  unfold distance at equal
  split at equal <;> split at equal <;> omega

/-- Going that far from the start does lead to the slot. -/
theorem start_add_distance_mod {capacity start slot : Nat} (below : start < capacity)
    (inside : slot < capacity) : (start + distance capacity start slot) % capacity = slot := by
  unfold distance
  split
  · rw [Nat.add_sub_of_le ‹_›, Nat.mod_eq_of_lt inside]
  · rw [Nat.add_sub_of_le (by omega), Nat.add_mod_right, Nat.mod_eq_of_lt inside]

/-- So many steps from the start lie between it and the slot to which they lead. -/
theorem distance_start_add_mod {capacity start steps : Nat} (below : start < capacity)
    (near : steps < capacity) : distance capacity start ((start + steps) % capacity) = steps := by
  by_cases first : start + steps < capacity
  · rw [Nat.mod_eq_of_lt first]
    unfold distance
    split <;> omega
  · have wrapped : (start + steps) % capacity = start + steps - capacity := by
      rw [Nat.mod_eq_sub_mod (by omega), Nat.mod_eq_of_lt (by omega)]
    rw [wrapped]
    unfold distance
    split <;> omega

/-- The slots from `start` forward to `stop`, around the end if need be, both included. -/
def path (capacity start stop : Nat) : List Nat :=
  (List.range (distance capacity start stop + 1)).map fun steps => (start + steps) % capacity

theorem mem_path {capacity start stop slot : Nat} (below : start < capacity)
    (inside : stop < capacity) :
    slot ∈ path capacity start stop ↔
      slot < capacity ∧ distance capacity start slot ≤ distance capacity start stop := by
  have near := distance_lt below inside
  unfold path
  simp only [List.mem_map, List.mem_range]
  constructor
  · intro member
    obtain ⟨steps, few, rfl⟩ := member
    rw [distance_start_add_mod below (by omega)]
    exact ⟨Nat.mod_lt _ (by omega), by omega⟩
  · intro between
    obtain ⟨within, closer⟩ := between
    exact ⟨distance capacity start slot, by omega, start_add_distance_mod below within⟩

example : path 4 3 1 = [3, 0, 1] := by decide

/-- Stopping on the way splits a distance in two. -/
theorem distance_add_distance {capacity a b c : Nat} (belowA : a < capacity) (belowB : b < capacity)
    (belowC : c < capacity)
    (between : distance capacity a b ≤ distance capacity a c ∨
      distance capacity b c ≤ distance capacity a c) :
    distance capacity a b + distance capacity b c = distance capacity a c := by
  revert between
  unfold distance
  split <;> split <;> split <;> intro between <;> omega

/-- A detour is no shorter. -/
theorem distance_le_add {capacity a b c : Nat} (belowA : a < capacity) (belowB : b < capacity) :
    distance capacity a c ≤ distance capacity a b + distance capacity b c := by
  unfold distance
  split <;> split <;> split <;> omega

/-- The slot so many steps before the last one is that far from it. -/
theorem distance_steps_back {capacity last steps : Nat} (inside : last < capacity)
    (near : steps < capacity) :
    distance capacity ((last + (capacity - steps)) % capacity) last = steps := by
  by_cases wraps : steps ≤ last
  · have stepped : last + (capacity - steps) = last - steps + capacity := by omega
    rw [stepped, Nat.add_mod_right, Nat.mod_eq_of_lt (by omega)]
    unfold distance
    split <;> omega
  · rw [Nat.mod_eq_of_lt (by omega)]
    unfold distance
    split <;> omega

/-- The slots after `slot` forward to the one before `start`, around the end if need be. -/
def onward (capacity start slot : Nat) : List Nat :=
  (List.range (capacity - (distance capacity start slot + 1))).map fun steps =>
    (slot + 1 + steps) % capacity

example : onward 4 3 0 = [1, 2] := by decide

/-- So many slots, the last of them given and each before it by one step, around the end if need
be. -/
def window (capacity length last : Nat) : List Nat :=
  (List.range length).map fun steps => (last + (capacity - steps)) % capacity

theorem length_window (capacity length last : Nat) :
    (window capacity length last).length = length := by
  rw [window, List.length_map, List.length_range]

theorem mem_window {capacity length last slot : Nat} (inside : last < capacity)
    (short : length ≤ capacity) :
    slot ∈ window capacity length last ↔
      slot < capacity ∧ distance capacity slot last < length := by
  unfold window
  simp only [List.mem_map, List.mem_range]
  constructor
  · intro member
    obtain ⟨steps, few, rfl⟩ := member
    rw [distance_steps_back inside (by omega)]
    exact ⟨Nat.mod_lt _ (by omega), few⟩
  · intro within
    obtain ⟨below, near⟩ := within
    refine ⟨distance capacity slot last, near, ?_⟩
    unfold distance
    split
    · have stepped : last + (capacity - (last - slot)) = slot + capacity := by omega
      rw [stepped, Nat.add_mod_right, Nat.mod_eq_of_lt below]
    · have stepped : last + (capacity - (last + capacity - slot)) = slot := by omega
      rw [stepped, Nat.mod_eq_of_lt below]

theorem nodup_window {capacity length last : Nat} (inside : last < capacity)
    (short : length ≤ capacity) : (window capacity length last).Nodup := by
  unfold List.Nodup window
  rw [List.pairwise_map]
  refine List.pairwise_lt_range.imp_of_mem ?_
  intro a b memberA memberB less equal
  rw [List.mem_range] at memberA memberB
  have far := distance_steps_back inside (Nat.lt_of_lt_of_le memberA short)
  rw [equal, distance_steps_back inside (Nat.lt_of_lt_of_le memberB short)] at far
  omega

example : window 4 3 1 = [1, 0, 3] := by decide

theorem range_split {capacity middle : Nat} (below : middle ≤ capacity) :
    List.range capacity = List.range middle ++ List.range' middle (capacity - middle) := by
  have split := @List.range'_append_1 0 middle (capacity - middle)
  rw [Nat.zero_add, Nat.add_sub_of_le below] at split
  rw [List.range_eq_range', List.range_eq_range', split]

theorem visitOrder_perm {start capacity : Nat} (below : start ≤ capacity) :
    (visitOrder start capacity).Perm (List.range capacity) := by
  rw [visitOrder, range_split below]
  exact List.perm_append_comm

/-- The slots of a walk by the number of steps that lead to them. -/
theorem visitOrder_eq_map {start capacity : Nat} (below : start < capacity) :
    visitOrder start capacity =
      (List.range capacity).map fun steps => (start + steps) % capacity := by
  refine List.ext_getElem? fun steps => ?_
  by_cases near : steps < capacity
  · rw [getElem?_visitOrder below near, List.getElem?_map, List.getElem?_range near,
      Option.map_some]
  · rw [List.getElem?_eq_none, List.getElem?_eq_none]
    · simpa using near
    · simpa [length_visitOrder (Nat.le_of_lt below)] using near

/-- The walk visits the slots in the order of their distance. -/
theorem visitOrder_pairwise {start capacity : Nat} (below : start < capacity) :
    (visitOrder start capacity).Pairwise fun a b =>
      distance capacity start a < distance capacity start b := by
  rw [visitOrder, List.pairwise_append]
  refine ⟨?_, ?_, ?_⟩
  · refine List.Pairwise.imp_of_mem ?_ List.pairwise_lt_range'
    intro a b memberA memberB less
    rw [List.mem_range'_1] at memberA memberB
    simp only [distance, if_pos memberA.1, if_pos memberB.1]
    omega
  · refine List.Pairwise.imp_of_mem ?_ List.pairwise_lt_range
    intro a b memberA memberB less
    rw [List.mem_range] at memberA memberB
    simp only [distance, if_neg (Nat.not_le.mpr memberA), if_neg (Nat.not_le.mpr memberB)]
    omega
  · intro a memberA b memberB
    rw [List.mem_range'_1] at memberA
    rw [List.mem_range] at memberB
    simp only [distance, if_pos memberA.1, if_neg (Nat.not_le.mpr memberB)]
    omega

/-- A walk in two parts: up to a slot and on from there. -/
theorem visitOrder_eq_append {start capacity slot : Nat} (below : start < capacity)
    (inside : slot < capacity) :
    visitOrder start capacity = path capacity start slot ++ onward capacity start slot := by
  have near := distance_lt below inside
  have reached := start_add_distance_mod below inside
  have rest : onward capacity start slot =
      (List.range (capacity - (distance capacity start slot + 1))).map fun steps =>
        (start + (distance capacity start slot + 1 + steps)) % capacity := by
    refine List.map_congr_left fun steps _ => ?_
    have moved : start + (distance capacity start slot + 1 + steps) =
        start + distance capacity start slot + (1 + steps) := by omega
    rw [moved, ← Nat.mod_add_mod (start + distance capacity start slot), reached, Nat.add_assoc]
  have parts : List.range capacity = List.range (distance capacity start slot + 1) ++
      (List.range (capacity - (distance capacity start slot + 1))).map
        (distance capacity start slot + 1 + ·) := by
    rw [← List.range_add, Nat.add_sub_of_le near]
  rw [visitOrder_eq_map below, parts, List.map_append, rest, List.map_map]
  rfl

/-- What a walk visits after a slot is farther away. -/
theorem distance_lt_of_mem_onward {start capacity slot index : Nat} (below : start < capacity)
    (inside : slot < capacity) (member : index ∈ onward capacity start slot) :
    index < capacity ∧ distance capacity start slot < distance capacity start index := by
  have parts := visitOrder_eq_append below inside
  have sorted := visitOrder_pairwise below
  rw [parts, List.pairwise_append] at sorted
  refine ⟨?_, sorted.2.2 slot ((mem_path below inside).mpr ⟨inside, Nat.le_refl _⟩) index member⟩
  rw [← mem_visitOrder (Nat.le_of_lt below), parts]
  exact List.mem_append_right _ member

end SlotTable

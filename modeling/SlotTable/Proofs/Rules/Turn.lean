import Mathlib.Data.List.Basic
import SlotTable.Proofs.Rules.Entries
import SlotTable.Proofs.Rules.Run

/-!
# Turning the slots around

Walks go around the end of the table, so no slot is special: moving every home and every stored key
on by the same number of slots, around the end, moves every landing on by as much. The keys may be
replaced by others in passing, as long as the replacements match when the keys do. Homes and matches
are all that tells (`perform_turned`).
-/
namespace SlotTable

open Function (update update_self update_of_ne)

variable {K L : Type}

/-- The slot so many steps on, around the end. -/
def turn (capacity steps index : Nat) : Nat := (index + steps) % capacity

def Landing.map (move : Nat → Nat) : Landing → Landing
  | .vacant slot => .vacant (move slot)
  | .occupied slot => .occupied (move slot)
  | .exhausted => .exhausted

def Op.map (f : K → L) : Op K → Op L
  | .insert key => .insert (f key)
  | .erase key => .erase (f key)
  | .slotFor key => .slotFor (f key)
  | .indexOf key => .indexOf (f key)
  | .contains key => .contains (f key)
  | .count key => .count (f key)
  | .size => .size
  | .isEmpty => .isEmpty
  | .isFull => .isFull
  | .capacity => .capacity
  | .clear => .clear
  | .entries => .entries

/-- A listing in which every key is replaced and every slot is turned. The slots that go around the
end become the first ones, so the listing stays in the order of the slots. -/
def turnedListing (capacity steps : Nat) (f : K → L) (listed : List (Nat × K)) : List (Nat × L) :=
  (listed.filter (fun entry => capacity ≤ entry.1 + steps) ++
    listed.filter (fun entry => !capacity ≤ entry.1 + steps)).map
      (Prod.map (turn capacity steps) f)

/-- An answer with every slot turned and every key replaced. Counts, flags and refusals are the
same, and so are the moves of a rebuild, which no call under the rules is answered with. -/
def Answer.turned (capacity steps : Nat) (f : K → L) : Answer K → Answer L
  | .done => .done
  | .slot index => .slot (index.map (turn capacity steps))
  | .rejected error => .rejected error
  | .flag value => .flag value
  | .number value => .number value
  | .entries content => .entries (turnedListing capacity steps f content)
  | .landing value => .landing (value.map (turn capacity steps))
  | .rebuilt moves => .rebuilt moves

section Positions

variable {capacity steps : Nat}

theorem turn_of_lt {index : Nat} (near : index + steps < capacity) :
    turn capacity steps index = index + steps := Nat.mod_eq_of_lt near

theorem turn_of_le {index : Nat} (short : steps < capacity) (inside : index < capacity)
    (far : capacity ≤ index + steps) : turn capacity steps index = index + steps - capacity := by
  rw [turn, Nat.mod_eq_sub_mod far, Nat.mod_eq_of_lt (by omega)]

theorem turn_inj (short : steps < capacity) {a b : Nat} (insideA : a < capacity)
    (insideB : b < capacity) (equal : turn capacity steps a = turn capacity steps b) : a = b := by
  have closed : ∀ index < capacity, turn capacity steps index =
      if index + steps < capacity then index + steps else index + steps - capacity := by
    intro index inside
    split
    · exact turn_of_lt ‹_›
    · exact turn_of_le short inside (by omega)
  rw [closed a insideA, closed b insideB] at equal
  split at equal <;> split at equal <;> omega

/-- The walk from a turned start visits the turned slots in the same order. -/
theorem visitOrder_turn {start : Nat} (below : start < capacity) :
    visitOrder (turn capacity steps start) capacity =
      (visitOrder start capacity).map (turn capacity steps) := by
  have turned : turn capacity steps start < capacity := Nat.mod_lt _ (Nat.zero_lt_of_lt below)
  refine List.ext_getElem? fun distance => ?_
  by_cases near : distance < capacity
  · rw [getElem?_visitOrder turned near, List.getElem?_map, getElem?_visitOrder below near,
      Option.map_some]
    unfold turn
    rw [Nat.mod_add_mod, Nat.mod_add_mod, Nat.add_right_comm]
  · rw [List.getElem?_eq_none, List.getElem?_eq_none]
    · rw [List.length_map, length_visitOrder (Nat.le_of_lt below)]
      omega
    · rw [length_visitOrder (Nat.le_of_lt turned)]
      omega

/-- The slots that go around the end and after them the others are turned to all slots in order. -/
theorem range_eq_map_turn (short : steps < capacity) :
    List.range capacity = (visitOrder (capacity - steps) capacity).map (turn capacity steps) := by
  have wrapped : (List.range' (capacity - steps) steps).map (turn capacity steps) =
      List.range steps := by
    refine List.ext_getElem (by simp) fun place _ inside => ?_
    rw [List.length_range] at inside
    rw [List.getElem_map, List.getElem_range', List.getElem_range,
      turn_of_le short (by omega) (by omega)]
    omega
  have moved : (List.range (capacity - steps)).map (turn capacity steps) =
      List.range' steps (capacity - steps) := by
    refine List.ext_getElem (by simp) fun place inside _ => ?_
    rw [List.length_map, List.length_range] at inside
    rw [List.getElem_map, List.getElem_range', List.getElem_range, turn_of_lt (by omega)]
    omega
  have rest : capacity - (capacity - steps) = steps := by omega
  rw [visitOrder, rest, List.map_append, wrapped, moved, range_split (Nat.le_of_lt short)]

end Positions

/-- The occupied slots among the given ones and their keys. -/
def occupiedAmong (slots : Slots K) (path : List Nat) : List (Nat × K) :=
  path.filterMap fun index => (slots index).map fun key => (index, key)

theorem mem_of_mem_occupiedAmong {slots : Slots K} {path : List Nat} {entry : Nat × K}
    (listed : entry ∈ occupiedAmong slots path) : entry.1 ∈ path := by
  unfold occupiedAmong at listed
  simp only [List.mem_filterMap, Option.map_eq_some_iff] at listed
  obtain ⟨index, member, key, -, rfl⟩ := listed
  exact member

section Moved

variable {slots : Slots K} {other : Slots L} {f : K → L} {move : Nat → Nat} {path : List Nat}

theorem Walk.stop_map {matching : K → K → Bool} {matchingOther : L → L → Bool}
    (moved : ∀ index ∈ path, other (move index) = (slots index).map f)
    (alike : ∀ stored key, matchingOther (f stored) (f key) = matching stored key) (key : K) :
    stop other matchingOther (f key) (path.map move) =
      (stop slots matching key path).map move := by
  induction path with
  | nil => rfl
  | cons index rest ih =>
    obtain ⟨here, later⟩ := List.forall_mem_cons.mp moved
    rw [List.map_cons, stop, stop, here]
    cases slots index with
    | none => rfl
    | some stored =>
      simp only [Option.map_some, alike]
      split
      · rfl
      · exact ih later

theorem occupiedAmong_map (moved : ∀ index ∈ path, other (move index) = (slots index).map f) :
    occupiedAmong other (path.map move) = (occupiedAmong slots path).map (Prod.map move f) := by
  unfold occupiedAmong
  rw [List.filterMap_map, List.map_filterMap]
  refine List.filterMap_congr fun index member => ?_
  rw [Function.comp_apply, moved index member]
  cases slots index <;> rfl

end Moved

theorem length_turnedListing (capacity steps : Nat) (f : K → L) (listed : List (Nat × K)) :
    (turnedListing capacity steps f listed).length = listed.length := by
  have split := List.filter_append_perm (fun entry => decide (capacity ≤ entry.1 + steps)) listed
  rw [turnedListing, List.length_map]
  exact split.length_eq

namespace Rules

/-- The second rules are the first ones with every home turned and every key replaced. -/
structure Turned (steps : Nat) (f : K → L) (first : Rules K) (second : Rules L) : Prop where
  short : steps < first.capacity
  capacity_eq : second.capacity = first.capacity
  refusal_eq : second.refusal = first.refusal
  home_eq : ∀ key, second.home (f key) = turn first.capacity steps (first.home key)
  matching_eq : ∀ stored key, second.matching (f stored) (f key) = first.matching stored key

/-- Every slot holds the replacement of what the slot so many steps before it holds. -/
def TurnedSlots (capacity steps : Nat) (f : K → L) (slots : Slots K) (other : Slots L) : Prop :=
  ∀ index < capacity, other (turn capacity steps index) = (slots index).map f

namespace Turned

variable {steps : Nat} {f : K → L} {first : Rules K} {second : Rules L}
  {slots after : Slots K} {other : Slots L} {op : Op K} {answer : Answer K}

theorem landing_eq (turned : Turned steps f first second)
    (aligned : TurnedSlots first.capacity steps f slots other) (key : K) :
    second.landing other (f key) = (first.landing slots key).map (turn first.capacity steps) := by
  have below := first.home_lt key
  rw [landing, landing, turned.home_eq, turned.capacity_eq, visitOrder_turn below]
  refine Walk.stop_map (fun index member => ?_) turned.matching_eq key
  exact aligned index ((mem_visitOrder (Nat.le_of_lt below)).mp member)

theorem entries_eq (turned : Turned steps f first second)
    (aligned : TurnedSlots first.capacity steps f slots other) :
    second.entries other = turnedListing first.capacity steps f (first.entries slots) := by
  have short := turned.short
  have rest : first.capacity - (first.capacity - steps) = steps := by omega
  -- the listing splits where the slots begin that go around the end
  have listed : first.entries slots = occupiedAmong slots (List.range (first.capacity - steps)) ++
      occupiedAmong slots (List.range' (first.capacity - steps) steps) := by
    show occupiedAmong slots (List.range first.capacity) = _
    rw [range_split (Nat.sub_le first.capacity steps), rest, occupiedAmong,
      List.filterMap_append]
    rfl
  have near : ∀ entry ∈ occupiedAmong slots (List.range (first.capacity - steps)),
      ¬ first.capacity ≤ entry.1 + steps := by
    intro entry member
    have inside := List.mem_range.mp (mem_of_mem_occupiedAmong member)
    omega
  have far : ∀ entry ∈ occupiedAmong slots (List.range' (first.capacity - steps) steps),
      first.capacity ≤ entry.1 + steps := by
    intro entry member
    have inside := List.mem_range'_1.mp (mem_of_mem_occupiedAmong member)
    omega
  have wrapping : (first.entries slots).filter
        (fun entry => decide (first.capacity ≤ entry.1 + steps)) =
      occupiedAmong slots (List.range' (first.capacity - steps) steps) := by
    rw [listed, List.filter_append, List.filter_eq_nil_iff.mpr (by simpa using near),
      List.filter_eq_self.mpr (by simpa using far), List.nil_append]
  have staying : (first.entries slots).filter
        (fun entry => !decide (first.capacity ≤ entry.1 + steps)) =
      occupiedAmong slots (List.range (first.capacity - steps)) := by
    rw [listed, List.filter_append, List.filter_eq_self.mpr (by simpa using near),
      List.filter_eq_nil_iff.mpr (by simpa using far), List.append_nil]
  rw [turnedListing, wrapping, staying]
  show occupiedAmong other (List.range second.capacity) = _
  rw [turned.capacity_eq, range_eq_map_turn short, occupiedAmong_map]
  · rw [visitOrder, rest, occupiedAmong, List.filterMap_append]
    rfl
  · intro index member
    exact aligned index ((mem_visitOrder (Nat.sub_le ..)).mp member)

theorem size_eq (turned : Turned steps f first second)
    (aligned : TurnedSlots first.capacity steps f slots other) :
    second.size other = first.size slots := by
  rw [← length_entries, turned.entries_eq aligned, length_turnedListing, length_entries]

theorem indexOf_eq (turned : Turned steps f first second)
    (aligned : TurnedSlots first.capacity steps f slots other) (key : K) :
    second.indexOf other (f key) = (first.indexOf slots key).map (turn first.capacity steps) := by
  rw [indexOf, indexOf, turned.landing_eq aligned]
  cases first.landing slots key <;> rfl

theorem contains_eq (turned : Turned steps f first second)
    (aligned : TurnedSlots first.capacity steps f slots other) (key : K) :
    second.contains other (f key) = first.contains slots key := by
  rw [contains, contains, turned.landing_eq aligned]
  cases first.landing slots key <;> rfl

theorem aligned_update (turned : Turned steps f first second)
    (aligned : TurnedSlots first.capacity steps f slots other) {index : Nat}
    (inside : index < first.capacity) (entry : Option K) :
    TurnedSlots first.capacity steps f (update slots index entry)
      (update other (turn first.capacity steps index) (entry.map f)) := by
  intro slot below
  by_cases same : slot = index
  · subst slot
    rw [update_self, update_self]
  · have apart : turn first.capacity steps slot ≠ turn first.capacity steps index :=
      fun equal => same (turn_inj turned.short below inside equal)
    rw [update_of_ne same, update_of_ne apart, aligned slot below]

/-- The same call on turned slots is answered with the turned answer. -/
theorem perform_turned (turned : Turned steps f first second)
    (aligned : TurnedSlots first.capacity steps f slots other)
    (performed : first.perform slots op = .ok (answer, after)) :
    ∃ left, second.perform other (op.map f) =
        .ok (answer.turned first.capacity steps f, left) ∧
      TurnedSlots first.capacity steps f after left := by
  cases op with
  | insert key =>
    have moved := turned.landing_eq aligned key
    cases landed : first.landing slots key with
    | vacant index =>
      rw [perform_insert_vacant landed] at performed
      cases performed
      rw [landed] at moved
      have inside := (landing_eq_vacant_iff.mp landed).1.1
      exact ⟨_, perform_insert_vacant moved, turned.aligned_update aligned inside (some key)⟩
    | occupied index =>
      rw [perform_insert_occupied landed] at performed
      cases performed
      rw [landed] at moved
      exact ⟨_, perform_insert_occupied moved, aligned⟩
    | exhausted =>
      rw [landed] at moved
      rw [perform_insert_exhausted landed] at performed
      rw [Op.map, perform_insert_exhausted moved, turned.refusal_eq, turned.capacity_eq]
      cases refusal : first.refusal <;> rw [refusal] at performed <;> cases performed <;>
        exact ⟨_, rfl, aligned⟩
  | erase key =>
    have moved := turned.landing_eq aligned key
    cases landed : first.landing slots key with
    | occupied index =>
      rw [perform_erase_found landed] at performed
      cases performed
      rw [landed] at moved
      have inside := (landing_eq_occupied_iff.mp landed).1.1
      exact ⟨_, perform_erase_found moved, turned.aligned_update aligned inside none⟩
    | _ =>
      have missed : first.indexOf slots key = none := by rw [indexOf, landed]
      have missedToo := turned.indexOf_eq aligned key
      rw [missed] at missedToo
      rw [perform_erase_missed missed] at performed
      cases performed
      exact ⟨_, perform_erase_missed missedToo, aligned⟩
  | slotFor key =>
    cases performed
    refine ⟨other, ?_, aligned⟩
    rw [Op.map, perform, turned.landing_eq aligned]
    cases first.landing slots key <;> rfl
  | clear =>
    cases performed
    exact ⟨_, rfl, fun _ _ => rfl⟩
  | _ =>
    cases performed
    refine ⟨other, ?_, aligned⟩
    simp only [Op.map, perform, Answer.turned, turned.indexOf_eq aligned,
      turned.contains_eq aligned, turned.size_eq aligned, turned.entries_eq aligned,
      turned.capacity_eq]

/-- An insert without room on the one side is one on the other. -/
theorem perform_fault (turned : Turned steps f first second)
    (aligned : TurnedSlots first.capacity steps f slots other) {fault : Fault}
    (performed : first.perform slots op = .error fault) :
    second.perform other (op.map f) = .error fault := by
  have exceeds : first.Exceeds slots op := by
    by_contra within
    obtain ⟨answer, after, answered, -⟩ := perform_accepted within
    rw [answered] at performed
    cases performed
  obtain ⟨key, rfl, landed⟩ := exceeds
  have moved := turned.landing_eq aligned key
  rw [landed] at moved
  rw [perform_insert_exhausted landed] at performed
  rw [Op.map, perform_insert_exhausted moved, turned.refusal_eq, turned.capacity_eq]
  cases refusal : first.refusal <;> rw [refusal] at performed <;> cases performed
  rfl

end Turned

end Rules

end SlotTable

import Mathlib.Data.Nat.Find
import SlotTable.Proofs.Rules.Gather
import SlotTable.Proofs.Table.Trace

/-!
# Which slots inserts occupy

A slot is occupied once so many classes begin their walks in a window that ends there that the
window cannot hold them without it, and only then. Where a key is stored depends on the order of the
inserts, which slots are occupied does not: the homes of the classes decide it. The slots from the
last hole before an occupied slot on are full of keys that began there; and a key that begins in a
window that ends at a hole is stored in the window, before the hole.
-/
namespace SlotTable

variable {T K : Type}

/-- How many classes of the keys begin their walks in a window. -/
def homesWithin (capacity : Nat) (hash : K → UInt64) (matching : K → K → Bool) (keys : List K)
    (length slot : Nat) : Nat :=
  (classes matching keys).countP fun key =>
    homeIndex (hash key) capacity ∈ window capacity length slot

/-- Tables that were filled by inserts alone have those slots occupied that the homes of the
classes ask for, so lists of keys with the same classes occupy the same slots. -/
structure OccupiesByHomes [Table T K] (capacity : Nat) (hash : K → UInt64)
    (matching : K → K → Bool) (create : Logged T) : Prop where
  occupied_iff : ∀ keys table, Inserted create keys table →
    ∃ listed, Replies table .entries (.ok (.entries listed)) ∧
      ∀ slot, slot ∈ listed.map Prod.fst ↔
        slot < capacity ∧ ∃ length, 1 ≤ length ∧ length ≤ capacity ∧
          length ≤ homesWithin capacity hash matching keys length slot
  same_slots : ∀ keys others table other, Inserted create keys table →
    Inserted create others other → SameClasses matching keys others →
    ∃ listed relisted, Replies table .entries (.ok (.entries listed)) ∧
      Replies other .entries (.ok (.entries relisted)) ∧
      listed.map Prod.fst = relisted.map Prod.fst ∧
      Replies table .size (.ok (.number listed.length)) ∧
      Replies other .size (.ok (.number listed.length))

namespace Rules

variable {rules : Rules K} {keys others : List K} {slots occupied : Slots K} {slot length : Nat}

/-- The occupied slots before an occupied slot, back to a hole or all around the table. -/
theorem exists_stretch (slots : Slots K) (inside : slot < rules.capacity)
    (occupied : slots slot ≠ none) :
    ∃ length, 1 ≤ length ∧ length ≤ rules.capacity ∧
      (∀ other ∈ window rules.capacity length slot, slots other ≠ none) ∧
      (length = rules.capacity ∨ ∃ hole < rules.capacity, slots hole = none ∧
        distance rules.capacity hole slot = length) := by
  classical
  -- the stretch ends at the nearest hole before the slot, if there is a hole at all
  by_cases holes : ∃ steps, ∃ hole < rules.capacity, slots hole = none ∧
      distance rules.capacity hole slot = steps
  · obtain ⟨hole, below, empty, steps⟩ := Nat.find_spec holes
    have short : Nat.find holes ≤ rules.capacity := by
      rw [← steps]
      exact Nat.le_of_lt (distance_lt below inside)
    refine ⟨Nat.find holes, ?_, short, ?_, .inr ⟨hole, below, empty, steps⟩⟩
    · refine Nat.pos_of_ne_zero fun none => ?_
      have reached := start_add_distance_mod below inside
      rw [steps, none, Nat.add_zero, Nat.mod_eq_of_lt below] at reached
      exact occupied (reached ▸ empty)
    · intro other member free
      obtain ⟨belowOther, near⟩ := (mem_window inside short).mp member
      exact Nat.find_min holes near ⟨other, belowOther, free, rfl⟩
  · refine ⟨rules.capacity, Nat.zero_lt_of_lt inside, Nat.le_refl _, ?_, .inl rfl⟩
    intro other member free
    exact holes ⟨_, other, ((mem_window inside (Nat.le_refl _)).mp member).1, free, rfl⟩

namespace Gathered

variable (gathered : Gathered rules keys slots)
include gathered

/-- No key was stored past a hole. -/
theorem depth_le_of_empty {key : K} {other hole : Nat} (held : slots other = some key)
    (below : hole < rules.capacity) (empty : slots hole = none) :
    rules.depth key other ≤ rules.depth key hole := by
  obtain ⟨reached, -⟩ := landing_eq_occupied_iff.mp (gathered.found other key held)
  exact reached.depth_le_of_empty below empty

/-- A key in the window that begins right after a hole has its home there. -/
theorem home_mem_window {key : K} {other hole : Nat} (inside : slot < rules.capacity)
    (below : hole < rules.capacity) (empty : slots hole = none)
    (begins : distance rules.capacity hole slot = length)
    (member : other ∈ window rules.capacity length slot) (held : slots other = some key) :
    rules.home key ∈ window rules.capacity length slot := by
  have home := rules.home_lt key
  have short : length ≤ rules.capacity := by
    rw [← begins]
    exact Nat.le_of_lt (distance_lt below inside)
  obtain ⟨belowOther, near⟩ := (mem_window inside short).mp member
  refine (mem_window inside short).mpr ⟨home, Nat.lt_of_not_le fun far => ?_⟩
  have overHole := distance_add_distance home below inside (.inr (by omega))
  have overOther := distance_add_distance home belowOther inside (.inr (by omega))
  have shallow := gathered.depth_le_of_empty held below empty
  unfold depth at shallow
  omega

/-- As many classes begin in a window as there are slots in it, if all of them are occupied by keys
that did. -/
theorem length_le_homes (inside : slot < rules.capacity) (short : length ≤ rules.capacity)
    (filled : ∀ other ∈ window rules.capacity length slot, ∃ key, slots other = some key ∧
      rules.home key ∈ window rules.capacity length slot) :
    length ≤ (classes rules.matching keys).countP fun key =>
      rules.home key ∈ window rules.capacity length slot := by
  rw [List.countP_eq_length_filter]
  calc
    length = (window rules.capacity length slot).length := (length_window ..).symm
    _ ≤ _ := length_le_of_apart (fun other key => slots other = some key) ?_ ?_
  · intro other member
    obtain ⟨key, held, home⟩ := filled other member
    have stored := List.mem_of_mem_take (gathered.mem_take_iff.mpr ⟨other, held⟩)
    exact ⟨key, List.mem_filter.mpr ⟨stored, decide_eq_true home⟩, held⟩
  · refine (nodup_window inside short).imp fun different key held heldToo => different ?_
    have found := gathered.found _ key held
    rw [gathered.found _ key heldToo] at found
    exact (Landing.occupied.inj found).symm

/-- Fewer classes begin in a window that ends at a hole than there are slots in it. -/
theorem homes_lt_length (lawful : rules.Lawful) (inside : slot < rules.capacity)
    (empty : slots slot = none) (positive : 1 ≤ length) (short : length ≤ rules.capacity) :
    ((classes rules.matching keys).countP fun key =>
      rules.home key ∈ window rules.capacity length slot) < length := by
  have last : slot ∈ window rules.capacity length slot := by
    have zero : distance rules.capacity slot slot = 0 := by simp [distance]
    exact (mem_window inside short).mpr ⟨inside, by omega⟩
  -- each of the classes is stored in a slot of its own in the window, and none in the last
  have fewer : ((window rules.capacity length slot).erase slot).length < length := by
    rw [List.length_erase_of_mem last, length_window]
    omega
  refine Nat.lt_of_le_of_lt ?_ fewer
  rw [List.countP_eq_length_filter]
  refine length_le_of_apart (fun key other => slots other = some key) ?_ ?_
  · intro key member
    obtain ⟨first, home⟩ := List.mem_filter.mp member
    obtain ⟨below, near⟩ := (mem_window inside short).mp (of_decide_eq_true home)
    obtain ⟨other, held⟩ := (gathered.mem_iff inside empty).mp first
    have belowOther := (landing_eq_occupied_iff.mp (gathered.found other key held)).1.1
    have shallow := gathered.depth_le_of_empty held inside empty
    unfold depth at shallow
    have onTheWay := distance_add_distance below belowOther inside (.inl shallow)
    have different : other ≠ slot := by
      rintro rfl
      rw [held] at empty
      cases empty
    have member := (mem_window inside short).mpr ⟨belowOther, by omega⟩
    exact ⟨other, (List.mem_erase_of_ne different).mpr member, held⟩
  · refine ((classes_pairwise rules.matching keys).filter _).imp ?_
    intro a b differs other held heldToo
    rw [held, Option.some.injEq] at heldToo
    rw [heldToo, lawful.refl] at differs
    cases differs

/-- A slot is occupied if and only if some window that ends there is crowded. -/
theorem ne_none_iff (lawful : rules.Lawful) (inside : slot < rules.capacity) :
    slots slot ≠ none ↔ ∃ length, 1 ≤ length ∧ length ≤ rules.capacity ∧
      length ≤ (classes rules.matching keys).countP fun key =>
        rules.home key ∈ window rules.capacity length slot := by
  constructor
  · intro occupied
    obtain ⟨length, positive, short, filled, ends⟩ := exists_stretch slots inside occupied
    refine ⟨length, positive, short, gathered.length_le_homes inside short ?_⟩
    intro other member
    obtain ⟨key, held⟩ := Option.ne_none_iff_exists'.mp (filled other member)
    refine ⟨key, held, ?_⟩
    rcases ends with whole | ⟨hole, below, empty, begins⟩
    · have home := rules.home_lt key
      have near := distance_lt home inside
      exact (mem_window inside short).mpr ⟨home, by omega⟩
    · exact gathered.home_mem_window inside below empty begins member held
  · rintro ⟨length, positive, short, crowded⟩ empty
    exact Nat.not_lt.mpr crowded (gathered.homes_lt_length lawful inside empty positive short)

end Gathered

/-- Lists with the same classes occupy the same slots. -/
theorem Gathered.entries_map_fst_eq (lawful : rules.Lawful) {left : Slots K}
    (gathered : Gathered rules keys slots) (gatheredLeft : Gathered rules others left)
    (same : SameClasses rules.matching keys others) :
    (rules.entries slots).map Prod.fst = (rules.entries left).map Prod.fst := by
  rw [entries_map_fst, entries_map_fst]
  refine List.filter_congr fun slot member => ?_
  have inside := List.mem_range.mp member
  have counts : ∀ length, ((classes rules.matching keys).countP fun key =>
      rules.home key ∈ window rules.capacity length slot) =
      (classes rules.matching others).countP fun key =>
        rules.home key ∈ window rules.capacity length slot := by
    intro length
    refine lawful.countP_classes_eq (fun a b equal => ?_) same
    rw [lawful.home_eq equal]
  rw [Bool.eq_iff_iff, Option.isSome_iff_ne_none, Option.isSome_iff_ne_none,
    gathered.ne_none_iff lawful inside, gatheredLeft.ne_none_iff lawful inside]
  simp only [counts]

end Rules

section Tables

variable [Table T K] [Ruled T K] {capacity : Nat} {hash : K → UInt64} {matching : K → K → Bool}
  {refusal : Refusal} {create : Logged T}

theorem Inserted.gathered {rules : Rules K} {keys : List K} {table : T}
    (inserted : Inserted create keys table) (lawful : rules.Lawful)
    (starts : ∀ limit table, create.result limit = .ok table →
      Ruled.Shows rules (fun _ => none) table) :
    ∃ slots, Rules.Gathered rules keys slots ∧ Ruled.Shows rules slots table :=
  ⟨_, Rules.gathered_storeAll lawful keys, inserted.shows starts⟩

theorem Ruled.occupiesByHomes (lawful : Lawful hash matching) (positive : 0 < capacity)
    (starts : ∀ limit table, create.result limit = .ok table →
      Ruled.Shows (Rules.ofHash positive hash matching refusal) (fun _ => none) table) :
    OccupiesByHomes capacity hash matching create := by
  have lawfulRules := Rules.ofHash_lawful lawful positive refusal
  constructor
  · intro keys table inserted
    obtain ⟨slots, gathered, shows⟩ := inserted.gathered lawfulRules starts
    refine ⟨_, (Ruled.replies_entries shows).mpr rfl, fun slot => ?_⟩
    rw [Rules.mem_entries_map_fst]
    exact and_congr_right fun inside => gathered.ne_none_iff lawfulRules inside
  · intro keys others table other inserted insertedOther same
    obtain ⟨slots, gathered, shows⟩ := inserted.gathered lawfulRules starts
    obtain ⟨left, gatheredLeft, shown⟩ := insertedOther.gathered lawfulRules starts
    have equal := gathered.entries_map_fst_eq lawfulRules gatheredLeft same
    have size := congrArg List.length equal
    rw [List.length_map, List.length_map] at size
    refine ⟨_, _, (Ruled.replies_entries shows).mpr rfl, (Ruled.replies_entries shown).mpr rfl,
      equal, ?_, ?_⟩
    · rw [Ruled.replies_size shows, Rules.length_entries]
    · rw [Ruled.replies_size shown, size, Rules.length_entries]

end Tables

/-- Under a lawful hash and match rule, after inserting keys into an empty table one after the
other, some of them perhaps refused: a slot is occupied if and only if there is a window of slots
that ends there, no longer than the table, in which at least as many classes of the keys begin their
walks as it has slots. Orders, interleavings and repetitions of the same classes leave the same
slots occupied. -/
theorem occupied_slots_of_homes {hash : K → UInt64} {matching : K → K → Bool}
    (lawful : Lawful hash matching) :
    (∀ capacity, 0 < capacity →
      (∀ keys, ∃ table, Inserted (DynamicTable.create capacity hash matching) keys table) ∧
      OccupiesByHomes capacity hash matching (DynamicTable.create capacity hash matching)) ∧
    (∀ (n : Nat) [Placeholder K] (positive : 0 < n),
      OccupiesByHomes n hash matching (FixedTable.create (K := K) positive hash matching)) ∧
    (∀ (S : Type) [Storage S K] [LawfulStorage S K] (given : S), 0 < Storage.capacity given →
      (∀ index, slotOf given index = none) →
      (∀ keys, ∃ table, Inserted (LinearTable.create given hash matching) keys table) ∧
      OccupiesByHomes (Storage.capacity given) hash matching
        (LinearTable.create given hash matching)) := by
  refine ⟨?_, ?_, ?_⟩
  · intro capacity positive
    have starts : ∀ limit table, (DynamicTable.create capacity hash matching).result limit =
        .ok table → Ruled.Shows (Rules.ofHash positive hash matching .reported) (fun _ => none)
          table := fun _ _ made => DynamicTable.create_shows positive made
    refine ⟨fun keys => ?_, Ruled.occupiesByHomes lawful positive starts⟩
    obtain ⟨history, table, inserts, trace⟩ := Trace.exists_of_ops (by simp [Rules.ofHash])
      (DynamicTable.create_result positive hash matching .off) starts (keys.map Op.insert)
    exact ⟨table, history, inserts, trace⟩
  · intro n _ positive
    exact Ruled.occupiesByHomes lawful positive fun _ _ made =>
      FixedTable.create_shows positive made
  · intro S _ _ given positive empty
    have starts : ∀ limit table, (LinearTable.create given hash matching).result limit =
        .ok table → Ruled.Shows (Rules.ofHash positive hash matching .silent) (fun _ => none)
          table := by
      intro limit table made
      rw [← funext empty]
      exact LinearTable.create_shows positive made
    refine ⟨fun keys => ?_, Ruled.occupiesByHomes lawful positive starts⟩
    obtain ⟨history, table, inserts, trace⟩ := Trace.exists_of_ops (by simp [Rules.ofHash])
      (LinearTable.create_result positive hash matching .off) starts (keys.map Op.insert)
    exact ⟨table, history, inserts, trace⟩

/-- Four keys in two orders, once with a repetition: three of them change places around the end of
the table, the slots that are occupied stay the same. -/
theorem occupied_slots_of_two_orders :
    ∃ table other : DynamicTable Nat,
      Inserted (DynamicTable.create 5 UInt64.ofNat fun a b => a == b) [5, 1, 5, 6, 2] table ∧
      Inserted (DynamicTable.create 5 UInt64.ofNat fun a b => a == b) [2, 6, 1, 5] other ∧
      Replies table .entries (.ok (.entries [(0, 6), (1, 2), (3, 5), (4, 1)])) ∧
      Replies other .entries (.ok (.entries [(0, 2), (1, 1), (3, 5), (4, 6)])) ∧
      OccupiesByHomes 5 UInt64.ofNat (fun a b : Nat => a == b)
        (DynamicTable.create 5 UInt64.ofNat fun a b => a == b) := by
  have created : Trace (DynamicTable.create 5 UInt64.ofNat fun a b : Nat => a == b) [] _ :=
    .created (DynamicTable.create_result (by decide) _ _ .off)
  have trace := created
    |>.step .direct (.insert 5) .off rfl |>.step .direct (.insert 1) .off rfl
    |>.step .direct (.insert 5) .off rfl |>.step .direct (.insert 6) .off rfl
    |>.step .direct (.insert 2) .off rfl
  have traceOther := created
    |>.step .direct (.insert 2) .off rfl |>.step .direct (.insert 6) .off rfl
    |>.step .direct (.insert 1) .off rfl |>.step .direct (.insert 5) .off rfl
  have occupies := ((occupied_slots_of_homes (.of_part id UInt64.ofNat)).1 5 (by decide)).2
  refine ⟨_, _, ⟨_, rfl, trace⟩, ⟨_, rfl, traceOther⟩, ?_, ?_, occupies⟩
  · rintro (_ | _) limit <;> rfl
  · rintro (_ | _) limit <;> rfl

end SlotTable

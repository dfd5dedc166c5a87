import SlotTable.Proofs.Rules.Turn
import SlotTable.Proofs.Table.Transcript

/-!
# No slot is special

Two tables of the same kind and size are new. Every key of the one has a counterpart that begins its
walk on the other so many slots farther on, around the end, and counterparts match when the keys do.
Then the two tables cannot be told apart but by the turn: calls with the keys and calls with their
counterparts show the same, slot by turned slot. In particular nothing of a hash counts but the home
slots that it gives.
-/
namespace SlotTable

variable {T U K L : Type}

/-- What a run with the counterparts of the keys shows. -/
def Transcript.turned (capacity steps : Nat) (f : K → L) (shown : Transcript K) :
    Transcript L where
  steps := shown.steps.map fun step =>
    (step.1.turned capacity steps f, step.2.map (turnedListing capacity steps f))
  fault := shown.fault

/-- All calls on a new table show the same, turned, as their counterparts on a new other table,
whatever routes either takes and whatever the thresholds. -/
def TurnedRuns [Table T K] [Table U L] (capacity steps : Nat) (f : K → L) (create : Logged T)
    (other : Logged U) : Prop :=
  ∀ (calls : List ((Route × Route) × Op K)) (limit limitOther : Threshold),
    ∃ shown : Transcript K,
      transcript create limit (calls.map fun call => (call.1.1, call.2)) = .ok shown ∧
      transcript other limitOther (calls.map fun call => (call.1.2, call.2.map f)) =
        .ok (shown.turned capacity steps f)

/-- All calls on the one new table show the same as on the other. -/
def SameRuns [Table T K] [Table U K] (create : Logged T) (other : Logged U) : Prop :=
  ∀ (calls : List ((Route × Route) × Op K)) (limit limitOther : Threshold),
    ∃ shown : Transcript K,
      transcript create limit (calls.map fun call => (call.1.1, call.2)) = .ok shown ∧
      transcript other limitOther (calls.map fun call => (call.1.2, call.2)) = .ok shown

namespace Rules

variable {steps : Nat} {f : K → L}

/-- The rules of two constructors whose homes are so many steps apart. -/
theorem ofHash_turned {capacity : Nat} {hash : K → UInt64} {matching : K → K → Bool}
    {hashOther : L → UInt64} {matchingOther : L → L → Bool} (short : steps < capacity)
    (homes : ∀ key, homeIndex (hashOther (f key)) capacity =
      turn capacity steps (homeIndex (hash key) capacity))
    (alike : ∀ stored key, matchingOther (f stored) (f key) = matching stored key)
    (positive : 0 < capacity) (refusal : Refusal) :
    Turned steps f (ofHash positive hash matching refusal)
      (ofHash positive hashOther matchingOther refusal) where
  short := short
  capacity_eq := rfl
  refusal_eq := rfl
  home_eq := homes
  matching_eq := alike

/-- Constructors with the same homes have the same rules. -/
theorem ofHash_congr {capacity : Nat} {hash hasher : K → UInt64}
    (homes : ∀ key, homeIndex (hasher key) capacity = homeIndex (hash key) capacity)
    (positive : 0 < capacity) (matching : K → K → Bool) (refusal : Refusal) :
    ofHash positive hasher matching refusal = ofHash positive hash matching refusal := by
  simp only [ofHash, homes]

theorem Turned.transcript_eq {first : Rules K} {second : Rules L} {slots : Slots K}
    {other : Slots L} (turned : Turned steps f first second)
    (aligned : TurnedSlots first.capacity steps f slots other) (ops : List (Op K)) :
    second.transcript other (ops.map (Op.map f)) =
      (first.transcript slots ops).turned first.capacity steps f := by
  induction ops generalizing slots other with
  | nil => rfl
  | cons op rest ih =>
    rw [List.map_cons]
    cases performed : first.perform slots op with
    | error fault =>
      rw [transcript_cons_error performed,
        transcript_cons_error (turned.perform_fault aligned performed)]
      rfl
    | ok pair =>
      obtain ⟨answer, after⟩ := pair
      obtain ⟨left, performedToo, alignedLater⟩ := turned.perform_turned aligned performed
      rw [transcript_cons_ok performed, transcript_cons_ok performedToo, ih alignedLater,
        turned.entries_eq alignedLater]
      rfl

end Rules

section Ruled

variable [Table T K] [Ruled T K] {create : Logged T} {start : Slots K}

theorem Ruled.turnedRuns [Table U L] [Ruled U L] {other : Logged U} {steps : Nat} {f : K → L}
    {first : Rules K} {second : Rules L} {startOther : Slots L}
    (starts : ∀ limit, ∃ fresh, create.result limit = .ok fresh ∧
      Ruled.Shows first start fresh)
    (startsOther : ∀ limit, ∃ fresh, other.result limit = .ok fresh ∧
      Ruled.Shows second startOther fresh)
    (turned : Rules.Turned steps f first second)
    (aligned : Rules.TurnedSlots first.capacity steps f start startOther) :
    TurnedRuns first.capacity steps f create other := by
  intro calls limit limitOther
  obtain ⟨fresh, made, shows⟩ := starts limit
  obtain ⟨freshOther, madeOther, showsOther⟩ := startsOther limitOther
  refine ⟨_, Ruled.transcript_eq made shows _, ?_⟩
  rw [Ruled.transcript_eq madeOther showsOther]
  have agree := turned.transcript_eq aligned (calls.map Prod.snd)
  simp only [List.map_map] at agree ⊢
  exact congrArg Except.ok agree

theorem Ruled.sameRuns [Table U K] [Ruled U K] {other : Logged U} {rules : Rules K}
    (starts : ∀ limit, ∃ fresh, create.result limit = .ok fresh ∧ Ruled.Shows rules start fresh)
    (startsOther : ∀ limit, ∃ fresh, other.result limit = .ok fresh ∧
      Ruled.Shows rules start fresh) : SameRuns create other := by
  intro calls limit limitOther
  obtain ⟨fresh, made, shows⟩ := starts limit
  obtain ⟨freshOther, madeOther, showsOther⟩ := startsOther limitOther
  refine ⟨_, Ruled.transcript_eq made shows _, ?_⟩
  rw [Ruled.transcript_eq madeOther showsOther]
  simp only [List.map_map, Function.comp_def]

end Ruled

section Constructors

variable {capacity : Nat} (positive : 0 < capacity) (hash : K → UInt64) (matching : K → K → Bool)

theorem DynamicTable.starts (limit : Threshold) :
    ∃ fresh, (DynamicTable.create capacity hash matching).result limit = .ok fresh ∧
      Ruled.Shows (Rules.ofHash positive hash matching .reported) (fun _ => none) fresh := by
  have made := DynamicTable.create_result positive hash matching limit
  exact ⟨_, made, DynamicTable.create_shows positive made⟩

theorem FixedTable.starts [Placeholder K] (limit : Threshold) :
    ∃ fresh, (FixedTable.create positive hash matching).result limit = .ok fresh ∧
      Ruled.Shows (Rules.ofHash positive hash matching .fatal) (fun _ => none) fresh := by
  have made := FixedTable.create_result positive hash matching limit
  exact ⟨_, made, FixedTable.create_shows positive made⟩

theorem LinearTable.starts {S : Type} [Storage S K] [LawfulStorage S K] (given : S)
    (sized : Storage.capacity given = capacity) (limit : Threshold) :
    ∃ fresh, (LinearTable.create given hash matching).result limit = .ok fresh ∧
      Ruled.Shows (Rules.ofHash positive hash matching .silent) (slotOf given) fresh := by
  subst sized
  have made := LinearTable.create_result positive hash matching limit
  exact ⟨_, made, LinearTable.create_shows positive made⟩

end Constructors

/-- Two hashes and two match rules, such that the walk for `f key` under the second hash begins
`steps` slots after the walk for `key` under the first one, around the end, and `f` keeps matches.
Calls with keys and calls with their images under `f`, each on a new table, then give the same
refusals, flags and counts; slots in answers are turned by `steps`; and every listing has the images
of the keys in the turned slots. That holds of both public tables and of linear tables over any two
empty storages of that capacity. If a second hash gives the keys the same homes as the first, all
answers and listings are the same. -/
theorem runs_turn_with_homes {capacity steps : Nat} (short : steps < capacity) (f : K → L)
    (hash : K → UInt64) (matching : K → K → Bool) (hashOther : L → UInt64)
    (matchingOther : L → L → Bool)
    (homes : ∀ key, homeIndex (hashOther (f key)) capacity =
      turn capacity steps (homeIndex (hash key) capacity))
    (alike : ∀ stored key, matchingOther (f stored) (f key) = matching stored key) :
    TurnedRuns capacity steps f (DynamicTable.create capacity hash matching)
      (DynamicTable.create capacity hashOther matchingOther) ∧
    (∀ [Placeholder K] [Placeholder L] (positive : 0 < capacity),
      TurnedRuns capacity steps f (FixedTable.create positive hash matching)
        (FixedTable.create positive hashOther matchingOther)) ∧
    (∀ (S S' : Type) [Storage S K] [LawfulStorage S K] [Storage S' L] [LawfulStorage S' L]
      (given : S) (other : S'), Storage.capacity given = capacity →
      Storage.capacity other = capacity → Storage.entries given = .ok [] →
      Storage.entries other = .ok [] →
      TurnedRuns capacity steps f (LinearTable.create given hash matching)
        (LinearTable.create other hashOther matchingOther)) ∧
    ∀ hasher : K → UInt64,
      (∀ key, homeIndex (hasher key) capacity = homeIndex (hash key) capacity) →
      SameRuns (DynamicTable.create capacity hash matching)
        (DynamicTable.create capacity hasher matching) ∧
      (∀ [Placeholder K] (positive : 0 < capacity),
        SameRuns (FixedTable.create positive hash matching)
          (FixedTable.create positive hasher matching)) ∧
      (∀ (S : Type) [Storage S K] [LawfulStorage S K] (given : S),
        Storage.capacity given = capacity →
        SameRuns (LinearTable.create given hash matching)
          (LinearTable.create given hasher matching)) := by
  have positive : 0 < capacity := Nat.zero_lt_of_lt short
  have turned := Rules.ofHash_turned short homes alike positive
  have empty : Rules.TurnedSlots capacity steps f (fun _ => none) fun _ => none := fun _ _ => rfl
  refine ⟨?_, ?_, ?_, ?_⟩
  · exact Ruled.turnedRuns (DynamicTable.starts positive hash matching)
      (DynamicTable.starts positive hashOther matchingOther) (turned .reported) empty
  · intro _ _ _
    exact Ruled.turnedRuns (FixedTable.starts positive hash matching)
      (FixedTable.starts positive hashOther matchingOther) (turned .fatal) empty
  · intro S S' _ _ _ _ given other sized sizedOther vacant vacantOther
    refine Ruled.turnedRuns (LinearTable.starts positive hash matching given sized)
      (LinearTable.starts positive hashOther matchingOther other sizedOther) (turned .silent) ?_
    rw [slotOf_of_entries_nil vacant, slotOf_of_entries_nil vacantOther]
    exact empty
  · intro hasher same
    have equal := Rules.ofHash_congr same positive matching
    refine ⟨?_, ?_, ?_⟩
    · have starts := DynamicTable.starts positive hasher matching
      rw [equal] at starts
      exact Ruled.sameRuns (DynamicTable.starts positive hash matching) starts
    · intro _ _
      have starts := FixedTable.starts positive hasher matching
      rw [equal] at starts
      exact Ruled.sameRuns (FixedTable.starts positive hash matching) starts
    · intro S _ _ given sized
      have starts := LinearTable.starts positive hasher matching given sized
      rw [equal] at starts
      exact Ruled.sameRuns (LinearTable.starts positive hash matching given sized) starts

/-- Two keys and their images, which begin their walks one slot farther on: the last slot of the
first table is the first slot of the second. -/
theorem runs_turn_with_homes_by_one :
    ∃ (calls : List ((Route × Route) × Op Bool)) (shown : Transcript Bool),
      calls.map Prod.snd = [.insert true, .insert false, .erase true, .indexOf false,
        .indexOf true, .insert true] ∧
      transcript (DynamicTable.create 3 (fun key => if key then 1 else 0) fun a b => a == b) .off
        (calls.map fun call => (call.1.1, call.2)) = .ok shown ∧
      shown.steps = [(.slot (some 0), .ok [(0, true)]),
        (.slot (some 2), .ok [(0, true), (2, false)]), (.slot (some 0), .ok [(2, false)]),
        (.slot (some 2), .ok [(2, false)]), (.slot none, .ok [(2, false)]),
        (.slot (some 0), .ok [(0, true), (2, false)])] ∧
      transcript (DynamicTable.create 3 (fun key => if key = 10 then 2 else 1) fun a b => a == b)
        .off (calls.map fun call => (call.1.2, call.2.map fun key => if key then 10 else 20)) =
        .ok (shown.turned 3 1 fun key => if key then 10 else 20) ∧
      (shown.turned 3 1 fun key => if key then 10 else 20).steps =
        [(.slot (some 1), .ok [(1, 10)]), (.slot (some 0), .ok [(0, 20), (1, 10)]),
          (.slot (some 1), .ok [(0, 20)]), (.slot (some 0), .ok [(0, 20)]),
          (.slot none, .ok [(0, 20)]), (.slot (some 1), .ok [(0, 20), (1, 10)])] := by
  let calls : List ((Route × Route) × Op Bool) :=
    [((.direct, .direct), .insert true), ((.direct, .direct), .insert false),
      ((.direct, .throughIndex), .erase true), ((.throughIndex, .direct), .indexOf false),
      ((.direct, .direct), .indexOf true), ((.direct, .direct), .insert true)]
  have runs := runs_turn_with_homes (by decide : 1 < 3) (fun key : Bool => if key then 10 else 20)
    (fun key => if key then 1 else 0) (fun a b => a == b) (fun key => if key = 10 then 2 else 1)
    (fun a b => a == b) (by decide) (by decide)
  obtain ⟨shown, shownFirst, shownSecond⟩ := runs.1 calls .off .off
  have ran : transcript (DynamicTable.create 3 (fun key : Bool => if key then 1 else 0)
      fun a b => a == b) .off (calls.map fun call => (call.1.1, call.2)) = .ok ⟨_, _⟩ := rfl
  obtain rfl := Except.ok.inj (ran.symm.trans shownFirst)
  exact ⟨calls, _, rfl, shownFirst, rfl, shownSecond, rfl⟩

end SlotTable

import SlotTable.Proofs.Rules.Steps
import SlotTable.Proofs.Table.Trace

/-!
# What all inserts cost together

A key costs as many steps as its slot is away from its home, and the order of the inserts decides
which of the keys pay. What they pay together is decided by the keys: in every order the steps are
the same in sum, in a full table and around its end as well.
-/
namespace SlotTable

variable {T K : Type}

/-- The steps from the homes of the keys to the slots where a table finds them, together. -/
def CostsInAll [Table T K] (capacity : Nat) (hash : K → UInt64) (table : T) (keys : List K)
    (cost : Nat) : Prop :=
  ∃ slotOf : K → Nat,
    (∀ key ∈ keys, Replies table (.indexOf key) (.ok (.slot (some (slotOf key))))) ∧
    (keys.map fun key => distance capacity (homeIndex (hash key) capacity) (slotOf key)).sum = cost

/-- As many keys as fit, no two of them matching, can be inserted in every order and cost the same
in all of them; but of two keys with one home the first takes the slot that the other would have
had. -/
structure CostsByKeys [Table T K] (capacity : Nat) (hash : K → UInt64)
    (matching : K → K → Bool) (create : Logged T) : Prop where
  one_cost : ∀ keys : List K, (keys.Pairwise fun a b => matching a b = false) →
    keys.length ≤ capacity → ∃ cost, ∀ others, keys.Perm others →
      (∃ table, Inserted create others table) ∧
      ∀ table, Inserted create others table → CostsInAll capacity hash table others cost
  slots_differ : ∀ (a b : K) (rest : List K) (table other : T),
    ((a :: b :: rest).Pairwise fun a b => matching a b = false) →
    (a :: b :: rest).length ≤ capacity →
    homeIndex (hash a) capacity = homeIndex (hash b) capacity →
    Inserted create (a :: b :: rest) table → Inserted create (b :: a :: rest) other →
    ∃ slot away, slot ≠ away ∧ Replies table (.indexOf a) (.ok (.slot (some slot))) ∧
      Replies other (.indexOf a) (.ok (.slot (some away)))

theorem CostsInAll.unique [Table T K] {capacity : Nat} {hash : K → UInt64} {table : T}
    {keys : List K} {cost other : Nat} (costs : CostsInAll capacity hash table keys cost)
    (costsOther : CostsInAll capacity hash table keys other) : cost = other := by
  obtain ⟨slotOf, found, rfl⟩ := costs
  obtain ⟨slotOfOther, foundOther, rfl⟩ := costsOther
  refine congrArg List.sum (List.map_congr_left fun key member => ?_)
  have same := (found key member .direct .off).symm.trans (foundOther key member .direct .off)
  simp only [Except.ok.injEq, Answer.slot.injEq, Option.some.injEq] at same
  rw [same]

section Tables

variable [Table T K] [Ruled T K] {rules : Rules K} {start : Slots K} {keys : List K}
  {create : Logged T}

/-- A table with room for new keys takes them all. -/
theorem Rules.New.exists_inserted {limit : Threshold} {fresh : T} (new : rules.New start keys)
    (made : create.result limit = .ok fresh)
    (starts : ∀ limit table, create.result limit = .ok table → Ruled.Shows rules start table) :
    ∃ table, Inserted create keys table := by
  have parts : ∀ before after, keys = before ++ after →
      ∃ table, Inserted create before table := by
    intro before
    induction before using List.reverseRecOn with
    | nil => exact fun _ _ => ⟨fresh, [], rfl, .created made⟩
    | append_singleton before key ih =>
      intro after split
      rw [List.append_assoc, List.singleton_append] at split
      obtain ⟨table, inserted⟩ := ih _ split
      obtain ⟨index, landed⟩ := (Rules.New.storeAll (split ▸ new)).exists_vacant
      obtain ⟨later, performed, -⟩ := Ruled.perform_ok (inserted.shows starts)
        (Rules.perform_insert_vacant landed) .direct limit
      exact ⟨later, inserted.snoc performed⟩
  exact parts keys [] (List.append_nil keys).symm

theorem Ruled.costsByKeys {capacity : Nat} {hash : K → UInt64} {matching : K → K → Bool}
    {refusal : Refusal} {limit : Threshold} {fresh : T} (lawful : Lawful hash matching)
    (positive : 0 < capacity) (made : create.result limit = .ok fresh)
    (starts : ∀ limit table, create.result limit = .ok table →
      Ruled.Shows (Rules.ofHash positive hash matching refusal) (fun _ => none) table) :
    CostsByKeys capacity hash matching create := by
  have lawfulRules := Rules.ofHash_lawful lawful positive refusal
  constructor
  · intro keys apart short
    have new : (Rules.ofHash positive hash matching refusal).New (fun _ => none) keys :=
      .of_empty apart short
    refine ⟨(Rules.ofHash positive hash matching refusal).stepsAll (fun _ => none) keys, ?_⟩
    intro others same
    have newOthers := new.perm lawfulRules same
    refine ⟨newOthers.exists_inserted made starts, fun table inserted => ?_⟩
    have shows := inserted.shows starts
    obtain ⟨slotOf, found⟩ := newOthers.exists_slotOf lawfulRules
    refine ⟨slotOf, fun key member => ?_, ?_⟩
    · exact (Ruled.replies_indexOf shows).mpr (Rules.indexOf_eq_some_iff.mpr (found key member))
    · rw [new.stepsAll_perm lawfulRules same, ← newOthers.sum_depth lawfulRules found]
      rfl
  · intro a b rest table other apart short home inserted insertedOther
    have new : (Rules.ofHash positive hash matching refusal).New (fun _ => none) (a :: b :: rest) :=
      .of_empty apart short
    have exchanged := new.perm lawfulRules (.swap b a rest)
    have landedB := (Rules.landing_none (Rules.ofHash positive hash matching refusal) b).trans
      (congrArg Landing.vacant home.symm)
    obtain ⟨next, different, here, there⟩ :=
      exchanged.exists_ne lawfulRules (Rules.landing_none _ a) landedB
    exact ⟨_, next, different,
      (Ruled.replies_indexOf (inserted.shows starts)).mpr (Rules.indexOf_eq_some_iff.mpr here),
      (Ruled.replies_indexOf (insertedOther.shows starts)).mpr
        (Rules.indexOf_eq_some_iff.mpr there)⟩

end Tables

/-- Under a lawful hash and match rule, given keys of which no two match, no more than the slots of
a table: in every order they can be inserted into the empty table, all of them are found then, and
the distances from their homes to where they are found add up to a number that does not depend on
the order. The slots do: where two keys have one home, the first key is found elsewhere once the
second is inserted before it. -/
theorem total_cost_of_keys {hash : K → UInt64} {matching : K → K → Bool}
    (lawful : Lawful hash matching) :
    (∀ capacity, 0 < capacity →
      CostsByKeys capacity hash matching (DynamicTable.create capacity hash matching)) ∧
    (∀ (n : Nat) [Placeholder K] (positive : 0 < n),
      CostsByKeys n hash matching (FixedTable.create (K := K) positive hash matching)) ∧
    (∀ (S : Type) [Storage S K] [LawfulStorage S K] (given : S), 0 < Storage.capacity given →
      (∀ index, slotOf given index = none) →
      CostsByKeys (Storage.capacity given) hash matching
        (LinearTable.create given hash matching)) := by
  refine ⟨?_, ?_, ?_⟩
  · intro capacity positive
    exact Ruled.costsByKeys lawful positive
      (DynamicTable.create_result positive hash matching .off)
      fun _ _ made => DynamicTable.create_shows positive made
  · intro n _ positive
    exact Ruled.costsByKeys lawful positive
      (FixedTable.create_result positive hash matching .off)
      fun _ _ made => FixedTable.create_shows positive made
  · intro S _ _ given positive empty
    have starts : ∀ limit table, (LinearTable.create given hash matching).result limit =
        .ok table → Ruled.Shows (Rules.ofHash positive hash matching .silent) (fun _ => none)
          table := by
      intro limit table made
      rw [← funext empty]
      exact LinearTable.create_shows positive made
    exact Ruled.costsByKeys lawful positive
      (LinearTable.create_result positive hash matching .off) starts

/-- A table that three keys fill in two orders, around its end: each key is in another slot, and
both times they are two steps from home together. -/
theorem total_cost_of_two_orders :
    ∃ table other : DynamicTable Nat,
      Inserted (DynamicTable.create 3 UInt64.ofNat fun a b => a == b) [0, 3, 1] table ∧
      Inserted (DynamicTable.create 3 UInt64.ofNat fun a b => a == b) [1, 3, 0] other ∧
      Replies table .entries (.ok (.entries [(0, 3), (1, 1), (2, 0)])) ∧
      Replies other .entries (.ok (.entries [(0, 1), (1, 0), (2, 3)])) ∧
      CostsInAll 3 UInt64.ofNat table [0, 3, 1] 2 ∧
      CostsInAll 3 UInt64.ofNat other [1, 3, 0] 2 := by
  have created : Trace (DynamicTable.create 3 UInt64.ofNat fun a b : Nat => a == b) [] _ :=
    .created (DynamicTable.create_result (by decide) _ _ .off)
  have trace := created
    |>.step .direct (.insert 0) .off rfl |>.step .direct (.insert 3) .off rfl
    |>.step .direct (.insert 1) .off rfl
  have traceOther := created
    |>.step .direct (.insert 1) .off rfl |>.step .direct (.insert 3) .off rfl
    |>.step .direct (.insert 0) .off rfl
  have byKeys := (total_cost_of_keys (.of_part id UInt64.ofNat)).1 3 (by decide)
  obtain ⟨cost, costs⟩ := byKeys.one_cost [0, 3, 1] (by decide) (by decide)
  have inserted : Inserted _ [0, 3, 1] _ := ⟨_, rfl, trace⟩
  have insertedOther : Inserted _ [1, 3, 0] _ := ⟨_, rfl, traceOther⟩
  have found := (costs _ (.refl _)).2 _ inserted
  have foundOther := (costs _ (by decide)).2 _ insertedOther
  have two : cost = 2 := by
    refine found.unique ⟨fun key => [2, 1, 0, 0].getD key 0, fun key member => ?_, rfl⟩
    simp only [List.mem_cons, List.not_mem_nil, or_false] at member
    rcases member with rfl | rfl | rfl <;> rintro (_ | _) limit <;> rfl
  subst two
  refine ⟨_, _, inserted, insertedOther, ?_, ?_, found, foundOther⟩
  · rintro (_ | _) limit <;> rfl
  · rintro (_ | _) limit <;> rfl

end SlotTable

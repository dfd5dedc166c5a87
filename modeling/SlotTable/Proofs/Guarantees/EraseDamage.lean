import SlotTable.Proofs.Rules.Entries
import SlotTable.Proofs.Table.Core

/-!
# What an erase does to the other keys

An erase leaves a hole and nothing moves up to fill it. A walk that used to come as far as the hole
now ends there, so its key is no longer found; every other walk ends where it did. Nothing is asked
of the hash or the match rule, and nothing of the run that led to the table.
-/
namespace SlotTable

open Function (update)

variable {T K : Type}

/-- What `after`, left by an erase of `key` that emptied the slot `hole` of `table`, replies. -/
structure EraseDamage [Table T K] (capacity : Nat) (hash : K → UInt64) (table : T) (key : K)
    (hole : Nat) (after : T) : Prop where
  off_path : ∀ other index, Replies table (.indexOf other) (.ok (.slot (some index))) →
    hole ∉ path capacity (homeIndex (hash other) capacity) index →
    Replies after (.indexOf other) (.ok (.slot (some index)))
  on_path : ∀ other index, Replies table (.indexOf other) (.ok (.slot (some index))) →
    hole ∈ path capacity (homeIndex (hash other) capacity) index →
    Replies after (.indexOf other) (.ok (.slot none)) ∧
      Replies after (.slotFor other) (.ok (.slot (some hole)))
  absent : ∀ other, Replies table (.indexOf other) (.ok (.slot none)) →
    Replies after (.indexOf other) (.ok (.slot none))
  listing : ∀ listed, Replies table .entries (.ok (.entries listed)) →
    Replies after .entries (.ok (.entries (listed.filter fun entry => entry.1 != hole)))
  gone : Replies after (.contains key) (.ok (.flag false))
  again : ∀ (route : Route) (limit : Threshold),
    ((Op.erase key).perform route after).result limit = .ok (.slot none, after)

namespace Rules

variable {rules : Rules K} {slots : Slots K} {key : K} {hole index : Nat}

/-- A walk that does not come as far as a slot ends before it. -/
theorem exists_stop_of_not_reaches (inside : hole < rules.capacity)
    (short : ¬ rules.Reaches slots key hole) :
    ∃ stop, (rules.landing slots key).slot? = some stop ∧
      rules.depth key stop < rules.depth key hole := by
  cases stops : (rules.landing slots key).slot? with
  | some stop =>
    refine ⟨stop, rfl, Nat.lt_of_not_le fun shallow => ?_⟩
    exact short ((reaches_iff_depth_le stops inside).mpr shallow)
  | none =>
    cases landed : rules.landing slots key with
    | vacant index => simp [landed, Landing.slot?] at stops
    | occupied index => simp [landed, Landing.slot?] at stops
    | exhausted =>
      have passed := landing_eq_exhausted_iff.mp landed
      exact absurd ⟨inside, fun before below _ => passed before below⟩ short

/-- A walk that does not come as far as a hole is not changed by it. -/
theorem landing_update_none_of_not_reaches (inside : hole < rules.capacity)
    (short : ¬ rules.Reaches slots key hole) :
    rules.landing (update slots hole none) key = rules.landing slots key := by
  obtain ⟨stop, landed, shallow⟩ := exists_stop_of_not_reaches inside short
  exact landing_update_of_deeper landed shallow

/-- The walk to a key comes as far as the slots of its path and no others. -/
theorem reaches_iff_mem_path (inside : hole < rules.capacity)
    (landed : rules.landing slots key = .occupied index) :
    rules.Reaches slots key hole ↔ hole ∈ path rules.capacity (rules.home key) index := by
  have stops : (rules.landing slots key).slot? = some index := by
    rw [landed]
    rfl
  have within := (landing_eq_occupied_iff.mp landed).1.1
  rw [reaches_iff_depth_le stops inside, mem_path (rules.home_lt key) within]
  unfold depth
  constructor
  · intro shallow
    exact ⟨inside, shallow⟩
  · intro member
    exact member.2

theorem indexOf_update_none_of_none (inside : hole < rules.capacity)
    (absent : rules.indexOf slots key = none) :
    rules.indexOf (update slots hole none) key = none := by
  by_cases reached : rules.Reaches slots key hole
  · exact indexOf_eq_none_of_vacant (landing_update_none reached)
  · have same := landing_update_none_of_not_reaches inside reached
    unfold indexOf at absent ⊢
    rw [same]
    exact absent

end Rules

/-- A table without a key is left as it is, to the last bit, by an erase of that key. -/
theorem Ruled.erase_missed_eq [Table T K] [Ruled T K] {rules : Rules K} {slots : Slots K}
    {table : T} {key : K} (shows : Ruled.Shows rules slots table)
    (missing : rules.indexOf slots key = none) (route : Route) (limit : Threshold) :
    ((Op.erase key).perform route table).result limit = .ok (.slot none, table) := by
  obtain ⟨later, answered, -, same⟩ :=
    Ruled.perform_ok shows (Rules.perform_erase_missed missing) route limit
  rw [answered, same rfl rfl]

theorem Ruled.eraseDamage [Table T K] [Ruled T K] {capacity : Nat} {positive : 0 < capacity}
    {hash : K → UInt64} {matching : K → K → Bool} {refusal : Refusal} {slots : Slots K}
    {table after : T} {key : K} {hole : Nat} {route : Route} {limit : Threshold}
    (shows : Ruled.Shows (Rules.ofHash positive hash matching refusal) slots table)
    (erased : ((Op.erase key).perform route table).result limit = .ok (.slot (some hole), after)) :
    EraseDamage capacity hash table key hole after := by
  obtain ⟨landed, shown⟩ := Ruled.erase_found shows erased
  have reached := (Rules.landing_eq_occupied_iff.mp landed).1
  have missing := Rules.indexOf_eq_none_of_vacant (Rules.landing_update_none reached)
  constructor
  · intro other index found outside
    rw [Ruled.replies_indexOf shows, Rules.indexOf_eq_some_iff] at found
    rw [Ruled.replies_indexOf shown, Rules.indexOf_eq_some_iff, ← found]
    refine Rules.landing_update_none_of_not_reaches reached.1 ?_
    rw [Rules.reaches_iff_mem_path reached.1 found]
    exact outside
  · intro other index found within
    rw [Ruled.replies_indexOf shows, Rules.indexOf_eq_some_iff] at found
    have ends := Rules.landing_update_none
      ((Rules.reaches_iff_mem_path reached.1 found).mpr within)
    rw [Ruled.replies_indexOf shown, Ruled.replies_slotFor shown, ends]
    exact ⟨Rules.indexOf_eq_none_of_vacant ends, rfl⟩
  · intro other absent
    rw [Ruled.replies_indexOf shows] at absent
    rw [Ruled.replies_indexOf shown]
    exact Rules.indexOf_update_none_of_none reached.1 absent
  · intro listed lists
    rw [Ruled.replies_entries shows] at lists
    rw [Ruled.replies_entries shown, Rules.entries_update_none, lists]
  · rw [Ruled.replies_contains shown, Rules.contains_eq_isSome, missing]
    rfl
  · intro route limit
    exact Ruled.erase_missed_eq shown missing route limit

/-- After an erase that emptied a slot, exactly the keys whose path led over this slot are no
longer found: their walks end at the hole, also when the listing still has a key equal to them.
Every other key that was found is found in the same slot, no key that was missing is found, and the
erased key is gone although copies of it may be stored further along. This holds of every table that
a run can lead to, under any hash and any match rule. -/
theorem erase_damage (hash : K → UInt64) (matching : K → K → Bool) (key : K) (hole : Nat)
    (route : Route) (limit : Threshold) (history : History K) :
    (∀ (capacity : Nat) (table after : DynamicTable K),
      Trace (DynamicTable.create capacity hash matching) history table →
      ((Op.erase key).perform route table).result limit = .ok (.slot (some hole), after) →
      EraseDamage capacity hash table key hole after) ∧
    (∀ (n : Nat) [Placeholder K] (positive : 0 < n) (table after : FixedTable K n),
      Trace (FixedTable.create positive hash matching) history table →
      ((Op.erase key).perform route table).result limit = .ok (.slot (some hole), after) →
      EraseDamage n hash table key hole after) ∧
    (∀ (S : Type) [Storage S K] [LawfulStorage S K] (given : S) (table after : LinearTable K S),
      Trace (LinearTable.create given hash matching) history table →
      ((Op.erase key).perform route table).result limit = .ok (.slot (some hole), after) →
      EraseDamage (Storage.capacity given) hash table key hole after) := by
  refine ⟨?_, ?_, ?_⟩
  · intro capacity table after trace erased
    obtain ⟨positive, slots, run, shows⟩ := DynamicTable.trace_run trace
    exact Ruled.eraseDamage shows erased
  · intro n _ positive table after trace erased
    obtain ⟨slots, run, shows⟩ := FixedTable.trace_run trace
    exact Ruled.eraseDamage shows erased
  · intro S _ _ given table after trace erased
    obtain ⟨positive, slots, run, shows⟩ := LinearTable.trace_run trace
    exact Ruled.eraseDamage shows erased

/-- The newer of two copies is erased; the older one is listed and no longer found. -/
theorem erase_damage_second_copy :
    ∃ table after : DynamicTable Nat,
      Trace (DynamicTable.create 4 UInt64.ofNat fun a b => a == b)
        [(.insert 10, .slot (some 3)), (.insert 30, .slot (some 0)), (.insert 50, .slot (some 1)),
          (.insert 20, .slot (some 2)), (.erase 30, .slot (some 0)), (.insert 50, .slot (some 0)),
          (.entries, .entries [(0, 50), (1, 50), (2, 20), (3, 10)])] table ∧
      ((Op.erase 50).perform .direct table).result .off = .ok (.slot (some 0), after) ∧
      EraseDamage 4 UInt64.ofNat table 50 0 after := by
  have created : Trace (DynamicTable.create 4 UInt64.ofNat fun a b : Nat => a == b) [] _ :=
    .created (DynamicTable.create_result (by decide) _ _ .off)
  have trace := created
    |>.step .direct (.insert 10) .off rfl |>.step .direct (.insert 30) .off rfl
    |>.step .direct (.insert 50) .off rfl |>.step .direct (.insert 20) .off rfl
    |>.step .throughIndex (.erase 30) .off rfl |>.step .direct (.insert 50) .off rfl
    |>.step .direct .entries .off rfl
  have damage := (erase_damage UInt64.ofNat (fun a b => a == b) 50 0 .direct .off _).1 4 _ _ trace
    rfl
  exact ⟨_, _, trace, rfl, damage⟩

end SlotTable

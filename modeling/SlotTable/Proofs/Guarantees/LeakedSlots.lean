import SlotTable.Key.Binary64
import SlotTable.Proofs.Guarantees.InBounds
import SlotTable.Proofs.Guarantees.SlotAccounts
import SlotTable.Proofs.Rules.Irreflexive

/-!
# Keys that do not match themselves leak slots

Where the match rule is symmetric and transitive, a key that does not match itself is never found.
So every insert of it takes one more empty slot, and no erase gives the slot back: only a clear
does. Which slots have leaked can be read off the answers, and with each of them one slot less is
left for all other keys. Nothing is asked of the hash or of the run.
-/
namespace SlotTable

open Function (update update_self update_of_ne)

variable {T K : Type}

/-- Adds to the leaked slots, each with its key, what a call and its answer tell. -/
def leak (matching : K → K → Bool) (leaked : List (Nat × K)) : Op K × Answer K → List (Nat × K)
  | (.insert key, .slot (some index)) =>
    if matching key key then leaked else (index, key) :: leaked
  | (.clear, _) => []
  | _ => leaked

/-- The inserts of keys that do not match themselves since the last clear, each with the slot it was
answered with, the newest first. Without a clear the ones of the beginning follow. -/
def leaksAfter (matching : K → K → Bool) (leaked : List (Nat × K)) (history : History K) :
    List (Nat × K) :=
  history.foldl (leak matching) leaked

theorem leaksAfter_snoc (matching : K → K → Bool) (leaked : List (Nat × K)) (history : History K)
    (call : Op K × Answer K) :
    leaksAfter matching leaked (history ++ [call]) =
      leak matching (leaksAfter matching leaked history) call := by
  simp [leaksAfter]

/-- The slots that have not leaked. -/
def slotsLeft (capacity : Nat) (leaked : List (Nat × K)) : List Nat :=
  (List.range capacity).filter fun slot => slot ∉ leaked.map Prod.fst

theorem mem_slotsLeft {capacity slot : Nat} {leaked : List (Nat × K)} :
    slot ∈ slotsLeft capacity leaked ↔ slot < capacity ∧ slot ∉ leaked.map Prod.fst := by
  simp [slotsLeft]

theorem length_slotsLeft {capacity : Nat} {leaked : List (Nat × K)}
    (distinct : (leaked.map Prod.fst).Nodup)
    (inside : ∀ slot ∈ leaked.map Prod.fst, slot < capacity) :
    (slotsLeft capacity leaked).length + leaked.length = capacity := by
  have gone : ((List.range capacity).filter fun slot => slot ∈ leaked.map Prod.fst).Perm
      (leaked.map Prod.fst) := by
    refine (List.perm_ext_iff_of_nodup (List.nodup_range.filter _) distinct).mpr fun slot => ?_
    rw [List.mem_filter, List.mem_range, decide_eq_true_iff]
    exact and_iff_right_of_imp (inside slot)
  have parts := List.length_eq_length_filter_add (l := List.range capacity)
    fun slot => decide (slot ∈ leaked.map Prod.fst)
  rw [List.length_range, gone.length_eq, List.length_map] at parts
  simp only [slotsLeft, decide_not]
  omega

/-- What a table that lists these keys replies, after the keys `leaked`, which do not match
themselves, were put into slots. -/
structure LeaksSlots [Table T K] (capacity : Nat) (matching : K → K → Bool) (table : T)
    (listed leaked : List (Nat × K)) : Prop where
  taken : ∀ key index route limit after, matching key key = false →
    ((Op.insert key).perform route table).result limit = .ok (.slot (some index), after) →
    index ∉ listed.map Prod.fst ∧ ∃ relisted, Replies after .entries (.ok (.entries relisted)) ∧
      relisted.Perm ((index, key) :: listed)
  absent : ∀ key, matching key key = false →
    Replies table (.contains key) (.ok (.flag false)) ∧
    Replies table (.indexOf key) (.ok (.slot none)) ∧
    ∀ (route : Route) (limit : Threshold),
      ((Op.erase key).perform route table).result limit = .ok (.slot none, table)
  stored : leaked.Perm (listed.filter fun entry => !matching entry.2 entry.2)
  size_eq : Replies table .size (.ok (.number listed.length))
  size_ge : leaked.length ≤ listed.length
  left_eq : (slotsLeft capacity leaked).length + leaked.length = capacity
  /-- Until the next clear, whatever is called: erases too name none of the leaked slots. -/
  lasting : ∀ later after, Trace (pure table) later after →
    (∀ call ∈ later, call.1.isClear = false) →
    (∀ call ∈ later, ∀ index, call.2 = .slot (some index) → index ∈ slotsLeft capacity leaked) ∧
    ∃ relisted, Replies after .entries (.ok (.entries relisted)) ∧
      (∀ entry ∈ leaked, entry ∈ relisted) ∧
      ∀ entry ∈ relisted, entry ∈ leaked ∨ entry.1 ∈ slotsLeft capacity leaked

namespace Rules

variable {rules : Rules K} {start slots after : Slots K} {leaked : List (Nat × K)}
  {history : History K} {op : Op K} {answer : Answer K} {key : K} {index : Nat}

/-- The stored keys that do not match themselves. -/
def irreflexive (rules : Rules K) (slots : Slots K) : List (Nat × K) :=
  (rules.entries slots).filter fun entry => !rules.matching entry.2 entry.2

theorem mem_irreflexive :
    (index, key) ∈ rules.irreflexive slots ↔
      (index < rules.capacity ∧ slots index = some key) ∧ rules.matching key key = false := by
  rw [irreflexive, List.mem_filter, mem_entries, Bool.not_eq_true']

theorem nodup_irreflexive (rules : Rules K) (slots : Slots K) :
    ((rules.irreflexive slots).map Prod.fst).Nodup := by
  refine ((List.filter_sublist (l := rules.entries slots)).map Prod.fst).nodup ?_
  rw [entries_map_fst]
  exact List.nodup_range.filter _

theorem irreflexive_empty (rules : Rules K) : rules.irreflexive (fun _ => none) = [] := by
  rw [irreflexive, entries_empty, List.filter_nil]

/-- Filling an empty slot adds the new key to them if it does not match itself. -/
theorem irreflexive_update_some (inside : index < rules.capacity) (empty : slots index = none)
    (key : K) :
    (rules.irreflexive (update slots index (some key))).Perm
      (if rules.matching key key then rules.irreflexive slots
        else (index, key) :: rules.irreflexive slots) := by
  have grown := (entries_update_some inside empty key).filter
    fun entry => !rules.matching entry.2 entry.2
  cases reflexive : rules.matching key key <;> simpa [irreflexive, reflexive] using grown

/-- Emptying a slot whose key matches itself takes none of them away. -/
theorem irreflexive_update_none (held : slots index = some key)
    (reflexive : rules.matching key key = true) :
    rules.irreflexive (update slots index none) = rules.irreflexive slots := by
  rw [irreflexive, entries_update_none, List.filter_filter]
  refine List.filter_congr fun entry listed => ?_
  by_cases same : entry.1 = index
  · have stored := (mem_entries.mp listed).2
    rw [same, held, Option.some.injEq] at stored
    simp [← stored, reflexive]
  · simp [same]

theorem leak_of_quiet (matching : K → K → Bool) (leaked : List (Nat × K))
    (quiet : Quiet op answer) : leak matching leaked (op, answer) = leaked := by
  unfold leak
  split
  · next same =>
    cases same
    exact absurd quiet id
  · next same =>
    cases same
    exact absurd quiet id
  · rfl

/-- What the answer to a call tells of the leaked slots is right. -/
theorem Effect.leaks (effect : rules.Effect slots op answer after)
    (partially : PartialEquivalence rules.matching)
    (known : leaked.Perm (rules.irreflexive slots)) :
    (leak rules.matching leaked (op, answer)).Perm (rules.irreflexive after) := by
  cases effect with
  | @stored key index landed =>
    obtain ⟨reached, empty⟩ := landing_eq_vacant_iff.mp landed
    refine List.Perm.trans ?_ (irreflexive_update_some reached.1 empty key).symm
    rw [leak]
    split
    · exact known
    · exact known.cons (index, key)
  | found landed =>
    obtain ⟨-, stored, -, answers⟩ := landing_eq_occupied_iff.mp landed
    rw [leak, if_pos (partially.self_right answers)]
    exact known
  | erased landed =>
    obtain ⟨-, stored, held, answers⟩ := landing_eq_occupied_iff.mp landed
    rw [irreflexive_update_none held (partially.self_left answers)]
    exact known
  | cleared =>
    rw [irreflexive_empty]
    exact .refl _
  | kept quiet =>
    rw [leak_of_quiet _ _ quiet]
    exact known

theorem Run.leaks (run : rules.Run start history slots)
    (partially : PartialEquivalence rules.matching)
    (known : leaked.Perm (rules.irreflexive start)) :
    (leaksAfter rules.matching leaked history).Perm (rules.irreflexive slots) := by
  induction run with
  | start => exact known
  | step before performed ih =>
    rw [leaksAfter_snoc]
    exact (perform_effect performed).leaks partially ih

/-- An answer that does not name a slot leaves it to its key. -/
theorem releases_eq_false {call : Op K × Answer K} (unnamed : call.2 ≠ .slot (some index))
    (unclear : call.1.isClear = false) : releases index call = false := by
  unfold releases
  split
  · refine beq_eq_false_iff_ne.mpr ?_
    rintro rfl
    exact unnamed rfl
  · cases unclear
  · rfl

/-- No answer names a slot whose key does not match itself, and the key stays there until the slots
are cleared. -/
theorem Run.keeps_irreflexive (run : rules.Run start history slots)
    (partially : PartialEquivalence rules.matching)
    (stored : ∀ entry ∈ leaked, start entry.1 = some entry.2 ∧
      rules.matching entry.2 entry.2 = false)
    (uncleared : ∀ call ∈ history, call.1.isClear = false) :
    (∀ call ∈ history, ∀ index, call.2 = .slot (some index) →
      index ∈ slotsLeft rules.capacity leaked) ∧
    ∀ entry ∈ leaked, slots entry.1 = some entry.2 := by
  induction run with
  | start => exact ⟨nofun, fun entry member => (stored entry member).1⟩
  | @step history slots after op answer before performed ih =>
    obtain ⟨earlier, last⟩ := List.forall_mem_append.mp uncleared
    obtain ⟨named, held⟩ := ih earlier
    have left : ∀ index, answer = .slot (some index) →
        index ∈ slotsLeft rules.capacity leaked := by
      rintro index rfl
      have unlisted : op ≠ .entries := by
        rintro rfl
        cases performed
      obtain ⟨key, landed⟩ :=
        landing_of_answer performed unlisted index (List.mem_singleton_self _)
      refine mem_slotsLeft.mpr ⟨landing_slot_lt landed, fun member => ?_⟩
      obtain ⟨entry, leaks, rfl⟩ := List.mem_map.mp member
      exact slot_ne_of_differs partially (held entry leaks) (stored entry leaks).2 key landed
    refine ⟨List.forall_mem_append.mpr ⟨named, List.forall_mem_singleton.mpr left⟩, ?_⟩
    intro entry member
    refine (perform_effect performed).held (held entry member) (releases_eq_false ?_ ?_)
    · intro names
      exact (mem_slotsLeft.mp (left entry.1 names)).2 (List.mem_map_of_mem member)
    · exact last (op, answer) (List.mem_singleton_self _)

end Rules

theorem Ruled.leaksSlots [Table T K] [Ruled T K] {rules : Rules K} {slots : Slots K} {table : T}
    {leaked : List (Nat × K)} (shows : Ruled.Shows rules slots table)
    (partially : PartialEquivalence rules.matching)
    (known : leaked.Perm (rules.irreflexive slots)) :
    LeaksSlots rules.capacity rules.matching table (rules.entries slots) leaked := by
  have stored : ∀ entry ∈ leaked, (entry.1 < rules.capacity ∧ slots entry.1 = some entry.2) ∧
      rules.matching entry.2 entry.2 = false :=
    fun entry member => Rules.mem_irreflexive.mp (known.mem_iff.mp member)
  constructor
  case taken =>
    intro key index route limit after differs performed
    obtain ⟨left, ruled, shown, -⟩ := Ruled.perform_of_ok shows performed
    obtain ⟨landed, rfl⟩ := (Rules.perform_effect ruled).stored_of_differs partially differs
    obtain ⟨reached, empty⟩ := Rules.landing_eq_vacant_iff.mp landed
    refine ⟨fun member => (Rules.mem_entries_map_fst.mp member).2 empty, _,
      (Ruled.replies_entries shown).mpr rfl, Rules.entries_update_some reached.1 empty key⟩
  case absent =>
    intro key differs
    have missing := Rules.indexOf_of_differs partially slots differs
    refine ⟨?_, (Ruled.replies_indexOf shows).mpr missing, fun route limit => ?_⟩
    · rw [Ruled.replies_contains shows, Rules.contains_eq_isSome, missing]
      rfl
    · obtain ⟨later, answered, -, same⟩ :=
        Ruled.perform_ok shows (Rules.perform_erase_missed missing) route limit
      rw [answered, same rfl rfl]
  case stored => exact known
  case size_eq => rw [Ruled.replies_size shows, Rules.length_entries]
  case size_ge =>
    rw [known.length_eq]
    exact List.length_filter_le ..
  case left_eq =>
    refine length_slotsLeft ?_ ?_
    · exact (known.map Prod.fst).nodup_iff.mpr (Rules.nodup_irreflexive rules slots)
    · intro slot member
      obtain ⟨entry, leaks, rfl⟩ := List.mem_map.mp member
      exact (stored entry leaks).1.1
  case lasting =>
    intro later after trace uncleared
    obtain ⟨left, run, shown⟩ := trace.run_later shows
    obtain ⟨named, held⟩ := run.keeps_irreflexive partially
      (fun entry member => ⟨(stored entry member).1.2, (stored entry member).2⟩) uncleared
    refine ⟨named, _, (Ruled.replies_entries shown).mpr rfl, ?_, ?_⟩
    · intro entry member
      exact Rules.mem_entries.mpr ⟨(stored entry member).1.1, held entry member⟩
    · rintro ⟨index, key⟩ listed
      obtain ⟨inside, holds⟩ := Rules.mem_entries.mp listed
      by_cases leaks : index ∈ leaked.map Prod.fst
      · obtain ⟨entry, member, rfl⟩ := List.mem_map.mp leaks
        rw [held entry member, Option.some.injEq] at holds
        exact .inl (holds ▸ member)
      · exact .inr (mem_slotsLeft.mpr ⟨inside, leaks⟩)

/-- After every run, under any hash and any symmetric and transitive match rule: each insert of a
key that does not match itself has taken a slot that was empty, and would take another one. No
lookup finds such a key and no erase of it changes the table. The listing has exactly the keys that
were put in this way since the last clear, each in its slot, so the size is not less than their
number. Until the next clear they stay there, no erase and no other call on a key is answered with
one of their slots, and every other key is in one of the remaining slots, of which there are as many
as the capacity less the number of those keys. -/
theorem irreflexive_keys_leak_slots (hash : K → UInt64) (matching : K → K → Bool)
    (partially : PartialEquivalence matching) (history : History K) :
    (∀ (capacity : Nat) (table : DynamicTable K),
      Trace (DynamicTable.create capacity hash matching) history table →
      ∃ listed, Replies table .entries (.ok (.entries listed)) ∧
        LeaksSlots capacity matching table listed (leaksAfter matching [] history)) ∧
    (∀ (n : Nat) [Placeholder K] (positive : 0 < n) (table : FixedTable K n),
      Trace (FixedTable.create positive hash matching) history table →
      ∃ listed, Replies table .entries (.ok (.entries listed)) ∧
        LeaksSlots n matching table listed (leaksAfter matching [] history)) ∧
    (∀ (S : Type) [Storage S K] [LawfulStorage S K] (given : S) (stored : List (Nat × K))
      (table : LinearTable K S), Storage.entries given = .ok stored →
      Trace (LinearTable.create given hash matching) history table →
      ∃ listed, Replies table .entries (.ok (.entries listed)) ∧
        LeaksSlots (Storage.capacity given) matching table listed
          (leaksAfter matching (stored.filter fun entry => !matching entry.2 entry.2)
            history)) := by
  refine ⟨?_, ?_, ?_⟩
  · intro capacity table trace
    obtain ⟨positive, slots, run, shows⟩ := DynamicTable.trace_run trace
    have known := run.leaks partially (.of_eq (Rules.irreflexive_empty _).symm)
    exact ⟨_, (Ruled.replies_entries shows).mpr rfl, Ruled.leaksSlots shows partially known⟩
  · intro n _ positive table trace
    obtain ⟨slots, run, shows⟩ := FixedTable.trace_run trace
    have known := run.leaks partially (.of_eq (Rules.irreflexive_empty _).symm)
    exact ⟨_, (Ruled.replies_entries shows).mpr rfl, Ruled.leaksSlots shows partially known⟩
  · intro S _ _ given stored table lists trace
    obtain ⟨positive, slots, run, shows⟩ := LinearTable.trace_run trace
    rw [entries_eq] at lists
    cases lists
    have known := run.leaks partially (.refl _)
    exact ⟨_, (Ruled.replies_entries shows).mpr rfl, Ruled.leaksSlots shows partially known⟩

/-- A NaN is stored twice, and erasing it does nothing. The slot of the 1 is free again for the 2,
which is equal to no NaN; the third NaN is refused. -/
theorem irreflexive_keys_leak_slots_of_nan :
    ∃ table : DynamicTable Binary64,
      PartialEquivalence (fun x y : Binary64 => x == y) ∧
      Trace (DynamicTable.create 3 (fun _ => 8) fun x y : Binary64 => x == y)
        [(.insert ⟨0x7ff8000000000000⟩, .slot (some 1)),
          (.insert ⟨0x3ff0000000000000⟩, .slot (some 2)),
          (.insert ⟨0x7ff8000000000000⟩, .slot (some 0)),
          (.erase ⟨0x7ff8000000000000⟩, .slot none),
          (.erase ⟨0x3ff0000000000000⟩, .slot (some 2)),
          (.insert ⟨0x4000000000000000⟩, .slot (some 2)),
          (.insert ⟨0x7ff8000000000000⟩, .rejected (.full 3))] table ∧
      LeaksSlots 3 (fun x y : Binary64 => x == y) table
        [(0, ⟨0x7ff8000000000000⟩), (1, ⟨0x7ff8000000000000⟩), (2, ⟨0x4000000000000000⟩)]
        [(0, ⟨0x7ff8000000000000⟩), (1, ⟨0x7ff8000000000000⟩)] := by
  have partially : PartialEquivalence fun x y : Binary64 => x == y :=
    ⟨Binary64.beq_symm, Binary64.beq_trans⟩
  have created : Trace (DynamicTable.create 3 (fun _ : Binary64 => 8) fun x y => x == y) [] _ :=
    .created (DynamicTable.create_result (by decide) _ _ .off)
  have trace := created
    |>.step .direct (.insert ⟨0x7ff8000000000000⟩) .off rfl
    |>.step .direct (.insert ⟨0x3ff0000000000000⟩) .off rfl
    |>.step .direct (.insert ⟨0x7ff8000000000000⟩) .off rfl
    |>.step .throughIndex (.erase ⟨0x7ff8000000000000⟩) .off rfl
    |>.step .direct (.erase ⟨0x3ff0000000000000⟩) .off rfl
    |>.step .direct (.insert ⟨0x4000000000000000⟩) .off rfl
    |>.step .direct (.insert ⟨0x7ff8000000000000⟩) .off rfl
  obtain ⟨listed, lists, leaks⟩ := (irreflexive_keys_leak_slots _ _ partially _).1 3 _ trace
  have same : (.ok (.entries [(0, ⟨0x7ff8000000000000⟩), (1, ⟨0x7ff8000000000000⟩),
      (2, ⟨0x4000000000000000⟩)]) : Except Fault (Answer Binary64)) = .ok (.entries listed) :=
    lists .direct .off
  cases same
  exact ⟨_, partially, trace, leaks⟩

end SlotTable

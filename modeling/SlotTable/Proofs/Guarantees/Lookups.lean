import SlotTable.Proofs.Rules.Entries
import SlotTable.Proofs.Table.Core

/-!
# What lookups tell

Every lookup of a key and every call that changes it is one walk from the same home slot. So the
lookups agree on the key, and they tell beforehand how an insert or an erase of it will be answered.
After an insert the walk passes what it passed before and ends at the new key, if that matches
itself; another insert of it then changes nothing. Nothing more is asked of the match rule, nothing
of the hash, and nothing of the run that led to the table.
-/
namespace SlotTable

variable {T K S : Type}

/-- What `after`, left by an insert of `key` into `table` that was answered with a slot, replies. -/
structure InsertSettles [Table T K] (table : T) (key : K) (index : Nat) (after : T) : Prop where
  found : Replies after (.indexOf key) (.ok (.slot (some index)))
  grows_iff : ∀ size, Replies table .size (.ok (.number size)) →
    (Replies after .size (.ok (.number (size + 1))) ↔
      Replies table (.contains key) (.ok (.flag false)))
  unchanged : Replies table (.contains key) (.ok (.flag true)) → after = table
  again : ∀ (route : Route) (limit : Threshold),
    ((Op.insert key).perform route after).result limit = .ok (.slot (some index), after)

/-- What the lookups of a key tell of one another and of the next call on it. An insert for which
there is no slot is replied to with `refused`. -/
structure LookupsForetell [Storage S K] [LawfulStorage S K] [Table T K] [Ruled T K] [Wraps T K S]
    (matching : K → K → Bool) (refused : Except Fault (Answer K)) (table : T) : Prop where
  /-- No lookup is left without an answer. -/
  answered : ∀ key, ∃ landing found index present, Locates table key landing ∧
    Replies table (.slotFor key) (.ok (.slot found)) ∧
    Replies table (.indexOf key) (.ok (.slot index)) ∧
    Replies table (.contains key) (.ok (.flag present)) ∧
    Replies table (.count key) (.ok (.number present.toNat))
  sized : ∃ size, Replies table .size (.ok (.number size))
  insert_iff : ∀ key index, Replies table (.insert key) (.ok (.slot (some index))) ↔
    Replies table (.slotFor key) (.ok (.slot (some index)))
  refused_iff : ∀ key, Replies table (.insert key) refused ↔
    Replies table (.slotFor key) (.ok (.slot none))
  erase_iff : ∀ key found, Replies table (.erase key) (.ok (.slot found)) ↔
    Replies table (.indexOf key) (.ok (.slot found))
  contains_iff : ∀ key, Replies table (.contains key) (.ok (.flag true)) ↔
    ∃ index, Replies table (.indexOf key) (.ok (.slot (some index)))
  count_iff : ∀ key, Replies table (.count key) (.ok (.number 1)) ↔
    ∃ index, Replies table (.indexOf key) (.ok (.slot (some index)))
  locates_iff : ∀ key index, Locates table key (.occupied index) ↔
    Replies table (.indexOf key) (.ok (.slot (some index)))
  slotFor_of_indexOf : ∀ key index, Replies table (.indexOf key) (.ok (.slot (some index))) →
    Replies table (.slotFor key) (.ok (.slot (some index)))
  settles : ∀ (key : K) (index : Nat) (after : T) (route : Route) (limit : Threshold),
    matching key key = true →
    ((Op.insert key).perform route table).result limit = .ok (.slot (some index), after) →
    InsertSettles table key index after

namespace Rules

variable {rules : Rules K} {slots after : Slots K} {key : K} {index : Nat}

theorem slot_of_indexOf (found : rules.indexOf slots key = some index) :
    (rules.landing slots key).slot? = some index := by
  rw [indexOf_eq_some_iff.mp found]
  rfl

/-- An insert that was answered with a slot has stored its key, unless it was there. -/
theorem Effect.insert_cases
    (effect : rules.Effect slots (.insert key) (.slot (some index)) after) :
    (rules.contains slots key = false ∧ rules.size after = rules.size slots + 1) ∨
      (rules.contains slots key = true ∧ after = slots) := by
  cases effect with
  | stored landed =>
    obtain ⟨reached, empty⟩ := landing_eq_vacant_iff.mp landed
    refine .inl ⟨?_, size_update_some reached.1 empty key⟩
    rw [contains_eq_isSome, indexOf_eq_none_of_vacant landed]
    rfl
  | found landed =>
    refine .inr ⟨?_, rfl⟩
    rw [contains_eq_isSome, indexOf_eq_some_iff.mpr landed]
    rfl
  | kept quiet => exact absurd quiet id

end Rules

section Ruled

variable {rules : Rules K} {slots : Slots K} {table after : T} {key : K} {index : Nat}

theorem Ruled.insertSettles [Table T K] [Ruled T K] (shows : Ruled.Shows rules slots table)
    {route : Route} {limit : Threshold} (reflexive : rules.matching key key = true)
    (inserted : ((Op.insert key).perform route table).result limit =
      .ok (.slot (some index), after)) : InsertSettles table key index after := by
  obtain ⟨left, performed, shown, same⟩ := Ruled.perform_of_ok shows inserted
  have effect := Rules.perform_effect performed
  have landed := effect.landing_of_matching reflexive
  constructor
  case found =>
    rw [Ruled.replies_indexOf shown, Rules.indexOf_eq_some_iff]
    exact landed
  case grows_iff =>
    intro size counted
    rw [Ruled.replies_size shows] at counted
    rw [Ruled.replies_size shown, Ruled.replies_contains shows, ← counted]
    obtain ⟨absent, grown⟩ | ⟨present, rfl⟩ := effect.insert_cases
    · exact iff_of_true grown absent
    · exact iff_of_false (Nat.ne_of_lt (Nat.lt_succ_self _)) (by simp [present])
  case unchanged =>
    intro present
    rw [Ruled.replies_contains shows] at present
    obtain ⟨absent, -⟩ | ⟨-, unchanged⟩ := effect.insert_cases
    · rw [absent] at present
      cases present
    · exact same rfl unchanged
  case again =>
    intro route limit
    obtain ⟨later, answered, -, unchanged⟩ :=
      Ruled.perform_ok shown (Rules.perform_insert_occupied landed) route limit
    rw [answered, unchanged rfl rfl]

variable [Storage S K] [LawfulStorage S K] [Table T K] [Ruled T K] [Wraps T K S]

theorem Wraps.lookupsForetell (shows : Ruled.Shows rules slots table) :
    LookupsForetell rules.matching (rules.refusal.answer rules.capacity) table where
  answered key := ⟨_, _, _, _, (Wraps.locates_iff shows).mpr rfl,
    (Ruled.replies_slotFor shows).mpr rfl, (Ruled.replies_indexOf shows).mpr rfl,
    (Ruled.replies_contains shows).mpr rfl, (Ruled.replies_count shows).mpr rfl⟩
  sized := ⟨_, (Ruled.replies_size shows).mpr rfl⟩
  insert_iff key index := by
    rw [Ruled.replies_insert_slot_iff shows, Ruled.replies_slotFor shows]
  refused_iff key := by
    rw [Ruled.replies_insert_refused_iff shows, Ruled.replies_slotFor shows,
      Landing.slot?_eq_none_iff]
  erase_iff key found := by
    rw [Ruled.replies_erase shows, Ruled.replies_indexOf shows]
  contains_iff key := by
    simp only [Ruled.replies_contains shows, Ruled.replies_indexOf shows,
      Rules.contains_eq_isSome, Option.isSome_iff_exists]
  count_iff key := by
    simp only [Ruled.replies_count shows, Ruled.replies_indexOf shows, Rules.contains_eq_isSome,
      Bool.toNat_eq_one, Option.isSome_iff_exists]
  locates_iff key index := by
    rw [Wraps.locates_iff shows, Ruled.replies_indexOf shows, Rules.indexOf_eq_some_iff]
  slotFor_of_indexOf key index := by
    rw [Ruled.replies_indexOf shows, Ruled.replies_slotFor shows]
    exact Rules.slot_of_indexOf
  settles _ _ _ _ _ reflexive inserted := Ruled.insertSettles shows reflexive inserted

end Ruled

/-- On every table that a run can lead to, damaged or not, under any hash and any match rule: an
insert is answered with the slot that a search for one gives, and refused when the search gives
none; an erase is answered like a lookup of the index. A key is contained, counted once and located
in an occupied slot exactly when its index is found, and the search then gives the same slot. A key
that matches itself is found after its insert in the slot of the answer. The table has one key more
if the key was not contained, else it is unchanged, and another insert of the key has the same
answer and changes nothing. -/
theorem lookups_foretell (hash : K → UInt64) (matching : K → K → Bool) (history : History K) :
    (∀ (capacity : Nat) (table : DynamicTable K),
      Trace (DynamicTable.create capacity hash matching) history table →
      LookupsForetell matching (.ok (.rejected (.full capacity))) table) ∧
    (∀ (n : Nat) [Placeholder K] (positive : 0 < n) (table : FixedTable K n),
      Trace (FixedTable.create positive hash matching) history table →
      LookupsForetell matching (.error (.slotsExhausted n)) table) ∧
    (∀ (S : Type) [Storage S K] [LawfulStorage S K] (given : S) (table : LinearTable K S),
      Trace (LinearTable.create given hash matching) history table →
      LookupsForetell matching (.ok (.slot none)) table) := by
  refine ⟨?_, ?_, ?_⟩
  · intro capacity table trace
    obtain ⟨positive, slots, run, shows⟩ := DynamicTable.trace_run trace
    exact Wraps.lookupsForetell shows
  · intro n _ positive table trace
    obtain ⟨slots, run, shows⟩ := FixedTable.trace_run trace
    exact Wraps.lookupsForetell shows
  · intro S _ _ given table trace
    obtain ⟨positive, slots, run, shows⟩ := LinearTable.trace_run trace
    exact Wraps.lookupsForetell shows

/-- The key 10 is hidden behind the hole in slot 0 and is stored a second time. The match rule is
not symmetric: a stored key matches every larger one. -/
theorem lookups_foretell_of_copy :
    ∃ table after : DynamicTable Nat,
      Trace (DynamicTable.create 4 UInt64.ofNat fun a b => a ≤ b)
        [(.insert 50, .slot (some 3)), (.insert 30, .slot (some 0)), (.insert 10, .slot (some 1)),
          (.erase 30, .slot (some 0)), (.count 10, .number 0), (.slotFor 10, .slot (some 0)),
          (.entries, .entries [(1, 10), (3, 50)])] table ∧
      LookupsForetell (fun a b : Nat => a ≤ b) (.ok (.rejected (.full 4))) table ∧
      ((Op.insert 10).perform .direct table).result .off = .ok (.slot (some 0), after) ∧
      InsertSettles table 10 0 after ∧ Replies after .size (.ok (.number 3)) := by
  have created : Trace (DynamicTable.create 4 UInt64.ofNat fun a b : Nat => a ≤ b) [] _ :=
    .created (DynamicTable.create_result (by decide) _ _ .off)
  have trace := created
    |>.step .direct (.insert 50) .off rfl |>.step .direct (.insert 30) .off rfl
    |>.step .direct (.insert 10) .off rfl |>.step .throughIndex (.erase 30) .off rfl
    |>.step .throughIndex (.count 10) .off rfl |>.step .direct (.slotFor 10) .off rfl
    |>.step .direct .entries .off rfl
  have foretell := (lookups_foretell UInt64.ofNat (fun a b => a ≤ b) _).1 4 _ trace
  have settles := foretell.settles 10 0 _ .direct .off (by decide) rfl
  have grown := (settles.grows_iff 2 fun route _ => by cases route <;> rfl).mpr
    fun route _ => by cases route <;> rfl
  exact ⟨_, _, trace, foretell, rfl, settles, grown⟩

end SlotTable

import SlotTable.Proofs.Rules.Entries
import SlotTable.Proofs.Table.Trace

/-!
# When an insert is refused

A walk goes round the whole table only if no slot on it is empty, so an insert is refused when every
slot is occupied and no stored key matches, and at no other time. Then nothing changes. It follows
that walks miss nothing on a full table: keys that are hidden behind a hole are found again once the
hole is filled. Nothing is asked of the hash, the match rule or the run that led to the table.
-/
namespace SlotTable

variable {T K : Type}

/-- When a table that lists these keys refuses an insert, and what that tells of other calls;
`refused` is what it replies then. -/
structure RefusesWhenFull [Table T K] (capacity : Nat) (matching : K → K → Bool)
    (refused : Except Fault (Answer K)) (table : T) (listed : List (Nat × K)) : Prop where
  capacity_eq : Replies table .capacity (.ok (.number capacity))
  size_eq : Replies table .size (.ok (.number listed.length))
  refused_iff : ∀ key, Replies table (.insert key) refused ↔
    listed.length = capacity ∧ ∀ entry ∈ listed, matching entry.2 key = false
  refused_iff_slotFor : ∀ key, Replies table (.insert key) refused ↔
    Replies table (.slotFor key) (.ok (.slot none))
  accepted : ∀ key, ¬ Replies table (.insert key) refused →
    ∃ index, Replies table (.insert key) (.ok (.slot (some index)))
  unchanged : ∀ key answer, refused = .ok answer → Replies table (.insert key) refused →
    ∀ (route : Route) (limit : Threshold),
      ((Op.insert key).perform route table).result limit = .ok (answer, table)
  room : ∀ index < capacity, (∀ entry ∈ listed, entry.1 ≠ index) →
    ∀ key, ∃ slot, Replies table (.insert key) (.ok (.slot (some slot)))
  complete : listed.length = capacity → ∀ key,
    Replies table (.contains key) (.ok (.flag (listed.any fun entry => matching entry.2 key)))

theorem Ruled.refusesWhenFull [Table T K] [Ruled T K] {rules : Rules K} {slots : Slots K}
    {table : T} (shows : Ruled.Shows rules slots table) :
    RefusesWhenFull rules.capacity rules.matching (rules.refusal.answer rules.capacity) table
      (rules.entries slots) where
  capacity_eq := Ruled.replies_capacity shows
  size_eq := by
    rw [Ruled.replies_size shows, Rules.length_entries]
  refused_iff := by
    intro key
    rw [Ruled.replies_insert_refused_iff shows, Rules.length_entries,
      Rules.landing_eq_exhausted_iff_entries]
  refused_iff_slotFor := by
    intro key
    rw [Ruled.replies_insert_refused_iff shows, Ruled.replies_slotFor shows,
      Landing.slot?_eq_none_iff]
  accepted := by
    intro key accepts
    rw [Ruled.replies_insert_refused_iff shows] at accepts
    exact Ruled.replies_insert_accepted shows accepts
  unchanged := by
    intro key answer replied refuses route limit
    rw [Ruled.replies_insert_refused_iff shows] at refuses
    have performed : rules.perform slots (.insert key) = .ok (answer, slots) := by
      rw [Rules.perform_insert_exhausted refuses, replied]
      rfl
    obtain ⟨later, answered, -, same⟩ := Ruled.perform_ok shows performed route limit
    rw [answered, same rfl rfl]
  room := by
    intro index inside free key
    refine Ruled.replies_insert_accepted shows fun landed => ?_
    have full := (Rules.landing_eq_exhausted_iff_entries.mp landed).1
    obtain ⟨stored, held⟩ :=
      Option.ne_none_iff_exists'.mp (Rules.size_eq_capacity_iff.mp full index inside)
    exact free (index, stored) (Rules.mem_entries.mpr ⟨inside, held⟩) rfl
  complete := by
    intro full key
    rw [Rules.length_entries] at full
    rw [Ruled.replies_contains shows, Rules.contains_eq_any_of_full full]

/-- After every run, under any hash and any match rule, an insert is refused exactly when the
listing is as long as the table has slots and no key in it matches, which is exactly when a search
finds no slot for the key. A refused insert leaves the table as it was. While a slot is empty no
insert is refused, and when none is, the table contains a key exactly when a stored one matches,
whatever erases have hidden before. -/
theorem refuses_when_full (hash : K → UInt64) (matching : K → K → Bool) (history : History K) :
    (∀ (capacity : Nat) (table : DynamicTable K),
      Trace (DynamicTable.create capacity hash matching) history table →
      ∃ listed, Replies table .entries (.ok (.entries listed)) ∧
        RefusesWhenFull capacity matching (.ok (.rejected (.full capacity))) table listed) ∧
    (∀ (n : Nat) [Placeholder K] (positive : 0 < n) (table : FixedTable K n),
      Trace (FixedTable.create positive hash matching) history table →
      ∃ listed, Replies table .entries (.ok (.entries listed)) ∧
        RefusesWhenFull n matching (.error (.slotsExhausted n)) table listed) ∧
    (∀ (S : Type) [Storage S K] [LawfulStorage S K] (given : S) (table : LinearTable K S),
      Trace (LinearTable.create given hash matching) history table →
      ∃ listed, Replies table .entries (.ok (.entries listed)) ∧
        RefusesWhenFull (Storage.capacity given) matching (.ok (.slot none)) table listed) := by
  refine ⟨?_, ?_, ?_⟩
  · intro capacity table trace
    obtain ⟨positive, slots, run, shows⟩ := DynamicTable.trace_run trace
    exact ⟨_, (Ruled.replies_entries shows).mpr rfl, Ruled.refusesWhenFull shows⟩
  · intro n _ positive table trace
    obtain ⟨slots, run, shows⟩ := FixedTable.trace_run trace
    exact ⟨_, (Ruled.replies_entries shows).mpr rfl, Ruled.refusesWhenFull shows⟩
  · intro S _ _ given table trace
    obtain ⟨positive, slots, run, shows⟩ := LinearTable.trace_run trace
    exact ⟨_, (Ruled.replies_entries shows).mpr rfl, Ruled.refusesWhenFull shows⟩

/-- Keys match that are not below the stored one. The key 1, hidden by an erase, is found again when
the table is full, and 0 is refused. -/
theorem refuses_when_full_after_erase :
    ∃ (table : DynamicTable Nat) (listed : List (Nat × Nat)),
      Trace (DynamicTable.create 3 (fun _ => 8) fun a b => a ≤ b)
        [(.insert 5, .slot (some 1)), (.insert 3, .slot (some 2)), (.insert 1, .slot (some 0)),
          (.erase 3, .slot (some 2)), (.contains 1, .flag false), (.insert 2, .slot (some 2)),
          (.contains 1, .flag true), (.insert 0, .rejected (.full 3)),
          (.entries, .entries [(0, 1), (1, 5), (2, 2)])] table ∧
      Replies table .entries (.ok (.entries listed)) ∧
      RefusesWhenFull 3 (fun a b : Nat => a ≤ b) (.ok (.rejected (.full 3))) table listed := by
  have created : Trace (DynamicTable.create 3 (fun _ : Nat => 8) fun a b => a ≤ b) [] _ :=
    .created (DynamicTable.create_result (by decide) _ _ .off)
  have trace := created
    |>.step .direct (.insert 5) .off rfl |>.step .direct (.insert 3) .off rfl
    |>.step .direct (.insert 1) .off rfl |>.step .direct (.erase 3) .off rfl
    |>.step .direct (.contains 1) .off rfl |>.step .direct (.insert 2) .off rfl
    |>.step .throughIndex (.contains 1) .off rfl |>.step .direct (.insert 0) .off rfl
    |>.step .direct .entries .off rfl
  obtain ⟨listed, lists, refuses⟩ := (refuses_when_full _ _ _).1 3 _ trace
  exact ⟨_, listed, trace, lists, refuses⟩

end SlotTable

import SlotTable.Proofs.Rules.Entries
import SlotTable.Proofs.Table.Trace

/-!
# Slots keep their keys, and the history accounts for them

Callers address arrays of their own by slot, so a key must stay where it was put. A call changes one
slot at most: an insert fills the empty slot that it is answered with, an erase empties the slot
that it is answered with, and nothing but these two and a clear changes any. It follows that a
stored key stays in its slot until that slot is erased or everything is cleared, and that the number
of occupied slots can be read off the answers. Nothing is asked of the hash or the match rule.
-/
namespace SlotTable

open Function (update update_self update_of_ne)

variable {T K : Type}

/-- What the answers since the last clear tell: which slots are occupied, how many inserts landed on
an empty slot and how many erases found their key. -/
structure Ledger where
  occupied : List Nat
  landed : Nat
  erased : Nat

namespace Ledger

/-- Keys that are there from the beginning count as landed. -/
def opening (occupied : List Nat) : Ledger := ⟨occupied, occupied.length, 0⟩

def record (ledger : Ledger) : Op K × Answer K → Ledger
  | (.insert _, .slot (some index)) =>
    if index ∈ ledger.occupied then ledger
    else { ledger with occupied := index :: ledger.occupied, landed := ledger.landed + 1 }
  | (.erase _, .slot (some index)) =>
    { ledger with occupied := ledger.occupied.filter (· != index), erased := ledger.erased + 1 }
  | (.clear, _) => opening []
  | _ => ledger

def after (start : Ledger) (history : History K) : Ledger := history.foldl record start

theorem after_snoc (start : Ledger) (history : History K) (call : Op K × Answer K) :
    start.after (history ++ [call]) = (start.after history).record call := by
  simp [after]

end Ledger

/-- A call after which a key may be gone from a slot. -/
def releases (index : Nat) : Op K × Answer K → Bool
  | (.erase _, .slot (some found)) => found == index
  | (.clear, _) => true
  | _ => false

/-- What the calls on a table that lists these keys can change, and how the ledger of its history
accounts for what it lists. -/
structure KeepsSlots [Table T K] (ledger : Ledger) (table : T) (listed : List (Nat × K)) :
    Prop where
  sorted : listed.Pairwise fun a b => a.1 < b.1
  size_eq : Replies table .size (.ok (.number listed.length))
  occupied_iff : ∀ index, index ∈ ledger.occupied ↔ index ∈ listed.map Prod.fst
  balance : listed.length + ledger.erased = ledger.landed
  inserted : ∀ key index route limit after,
    ((Op.insert key).perform route table).result limit = .ok (.slot (some index), after) →
    (index ∈ listed.map Prod.fst ∧ after = table) ∨
      (index ∉ listed.map Prod.fst ∧ ∃ relisted, Replies after .entries (.ok (.entries relisted)) ∧
        relisted.Perm ((index, key) :: listed))
  erased : ∀ key index route limit after,
    ((Op.erase key).perform route table).result limit = .ok (.slot (some index), after) →
    index ∈ listed.map Prod.fst ∧
      Replies after .entries (.ok (.entries (listed.filter fun entry => entry.1 != index)))
  cleared : ∀ answer route limit after,
    (Op.clear.perform route table).result limit = .ok (answer, after) →
    Replies after .entries (.ok (.entries []))
  unchanged : ∀ op answer route limit after, Rules.Quiet op answer →
    (op.perform route table).result limit = .ok (answer, after) → after = table
  kept : ∀ index key later after, (index, key) ∈ listed → Trace (pure table) later after →
    (∀ call ∈ later, releases index call = false) →
    ∃ relisted, Replies after .entries (.ok (.entries relisted)) ∧
      ∀ stored, (index, stored) ∈ relisted ↔ stored = key

namespace Rules

variable {rules : Rules K} {start slots after : Slots K} {ledger : Ledger} {history : History K}
  {op : Op K} {answer : Answer K} {key : K} {index : Nat}

theorem record_of_quiet (ledger : Ledger) (quiet : Quiet op answer) :
    ledger.record (op, answer) = ledger := by
  cases op with
  | insert key =>
    cases answer with
    | slot index =>
      cases index with
      | none => rfl
      | some index => exact absurd quiet id
    | _ => rfl
  | erase key =>
    cases answer with
    | slot index =>
      cases index with
      | none => rfl
      | some index => exact absurd quiet id
    | _ => rfl
  | clear => exact absurd quiet id
  | _ => rfl

/-- The ledger agrees with the slots. -/
structure Balanced (rules : Rules K) (ledger : Ledger) (slots : Slots K) : Prop where
  occupied_iff : ∀ index, index ∈ ledger.occupied ↔ index < rules.capacity ∧ slots index ≠ none
  balance : rules.size slots + ledger.erased = ledger.landed

theorem balanced_opening (rules : Rules K) (slots : Slots K) :
    Balanced rules (.opening ((rules.entries slots).map Prod.fst)) slots where
  occupied_iff := by
    intro index
    rw [Ledger.opening, mem_entries_map_fst]
  balance := by
    rw [Ledger.opening, List.length_map, length_entries, Nat.add_zero]

theorem balanced_empty (rules : Rules K) : Balanced rules (.opening []) fun _ => none := by
  have opened := balanced_opening rules fun _ => none
  rw [entries_empty] at opened
  exact opened

theorem Balanced.stored (balanced : Balanced rules ledger slots)
    (landed : rules.landing slots key = .vacant index) :
    Balanced rules (ledger.record (.insert key, .slot (some index)))
      (update slots index (some key)) := by
  obtain ⟨reached, empty⟩ := landing_eq_vacant_iff.mp landed
  have free : index ∉ ledger.occupied := fun member =>
    ((balanced.occupied_iff index).mp member).2 empty
  have recorded : ledger.record ((.insert key, .slot (some index)) : Op K × Answer K) =
      ⟨index :: ledger.occupied, ledger.landed + 1, ledger.erased⟩ := if_neg free
  rw [recorded]
  constructor
  · intro slot
    rw [List.mem_cons, balanced.occupied_iff]
    by_cases same : slot = index
    · subst slot
      simp [reached.1]
    · simp [same]
  · have balance := balanced.balance
    rw [size_update_some reached.1 empty]
    show rules.size slots + 1 + ledger.erased = ledger.landed + 1
    omega

theorem Balanced.erased (balanced : Balanced rules ledger slots)
    (landed : rules.landing slots key = .occupied index) :
    Balanced rules (ledger.record (.erase key, .slot (some index)))
      (update slots index none) := by
  obtain ⟨reached, stored, held, -⟩ := landing_eq_occupied_iff.mp landed
  constructor
  · intro slot
    rw [Ledger.record, List.mem_filter, balanced.occupied_iff]
    by_cases same : slot = index
    · subst slot
      simp
    · simp [same]
  · have balance := balanced.balance
    have size := size_update_none reached.1 held
    simp only [Ledger.record]
    omega

theorem Effect.balanced (effect : rules.Effect slots op answer after)
    (balanced : Balanced rules ledger slots) :
    Balanced rules (ledger.record (op, answer)) after := by
  cases effect with
  | stored landed => exact balanced.stored landed
  | @found key index landed =>
    obtain ⟨reached, found⟩ := landing_eq_occupied_iff.mp landed
    have known := (balanced.occupied_iff index).mpr ⟨reached.1, found.ne_none⟩
    have recorded : ledger.record ((.insert key, .slot (some index)) : Op K × Answer K) =
        ledger := if_pos known
    rw [recorded]
    exact balanced
  | erased landed => exact balanced.erased landed
  | cleared => exact balanced_empty rules
  | kept quiet =>
    rw [record_of_quiet ledger quiet]
    exact balanced

theorem Run.balanced (run : rules.Run start history slots)
    (opened : Balanced rules ledger start) : Balanced rules (ledger.after history) slots := by
  induction run with
  | start => exact opened
  | step before performed ih =>
    rw [Ledger.after_snoc]
    exact (perform_effect performed).balanced ih

theorem Effect.held (effect : rules.Effect slots op answer after)
    (held : slots index = some key) (stays : releases index (op, answer) = false) :
    after index = some key := by
  cases effect with
  | stored landed =>
    have empty := (landing_eq_vacant_iff.mp landed).2
    rw [update_of_ne, held]
    rintro rfl
    rw [held] at empty
    cases empty
  | found landed => exact held
  | erased landed =>
    rw [update_of_ne, held]
    rintro rfl
    simp [releases] at stays
  | cleared => cases stays
  | kept quiet => exact held

/-- A stored key stays in its slot over every run that does not release the slot. -/
theorem Run.held (run : rules.Run start history slots) (held : start index = some key)
    (stays : ∀ call ∈ history, releases index call = false) : slots index = some key := by
  induction run with
  | start => exact held
  | @step history slots after op answer before performed ih =>
    have earlier := ih fun call member => stays call (List.mem_append_left _ member)
    exact (perform_effect performed).held earlier (stays (op, answer) (by simp))

end Rules

theorem Ruled.keepsSlots [Table T K] [Ruled T K] {rules : Rules K} {slots : Slots K} {table : T}
    {ledger : Ledger} (shows : Ruled.Shows rules slots table)
    (balanced : Rules.Balanced rules ledger slots) :
    KeepsSlots ledger table (rules.entries slots) where
  sorted := Rules.entries_sorted rules slots
  size_eq := by
    rw [Ruled.replies_size shows, Rules.length_entries]
  occupied_iff := by
    intro index
    rw [balanced.occupied_iff, Rules.mem_entries_map_fst]
  balance := by
    rw [Rules.length_entries]
    exact balanced.balance
  inserted := by
    intro key index route limit after performed
    obtain ⟨left, ruled, shown, same⟩ := Ruled.perform_of_ok shows performed
    rw [Rules.mem_entries_map_fst]
    cases Rules.perform_effect ruled with
    | stored landed =>
      obtain ⟨reached, empty⟩ := Rules.landing_eq_vacant_iff.mp landed
      refine .inr ⟨fun occupied => occupied.2 empty, _, (Ruled.replies_entries shown).mpr rfl, ?_⟩
      exact Rules.entries_update_some reached.1 empty key
    | found landed =>
      obtain ⟨reached, found⟩ := Rules.landing_eq_occupied_iff.mp landed
      exact .inl ⟨⟨reached.1, found.ne_none⟩, same rfl rfl⟩
    | kept quiet => exact absurd quiet id
  erased := by
    intro key index route limit after performed
    obtain ⟨left, ruled, shown, -⟩ := Ruled.perform_of_ok shows performed
    rw [Rules.mem_entries_map_fst]
    cases Rules.perform_effect ruled with
    | erased landed =>
      obtain ⟨reached, found⟩ := Rules.landing_eq_occupied_iff.mp landed
      refine ⟨⟨reached.1, found.ne_none⟩, ?_⟩
      rw [Ruled.replies_entries shown, Rules.entries_update_none]
    | kept quiet => exact absurd quiet id
  cleared := by
    intro answer route limit after performed
    obtain ⟨left, ruled, shown, -⟩ := Ruled.perform_of_ok shows performed
    cases ruled
    rw [Ruled.replies_entries shown, Rules.entries_empty]
  unchanged := by
    intro op answer route limit after quiet performed
    obtain ⟨left, ruled, -, same⟩ := Ruled.perform_of_ok shows performed
    cases Rules.perform_effect ruled with
    | stored landed => exact absurd quiet id
    | found landed => exact absurd quiet id
    | erased landed => exact absurd quiet id
    | cleared => exact absurd quiet id
    | kept _ =>
      refine same ?_ rfl
      cases op with
      | clear => exact absurd quiet id
      | _ => rfl
  kept := by
    intro index key later after listed trace stays
    obtain ⟨inside, held⟩ := Rules.mem_entries.mp listed
    obtain ⟨left, run, shown⟩ := trace.run_later shows
    refine ⟨_, (Ruled.replies_entries shown).mpr rfl, fun stored => ?_⟩
    rw [Rules.mem_entries, run.held held stays]
    simp [inside, eq_comm]

/-- After every run, under any hash and any match rule: a key that is stored in a slot is listed
there, alone, until an erase is answered with that slot or the table is cleared. An insert changes
no slot but the one that it is answered with, and that only if it was empty; an erase empties the
slot that it is answered with and changes no other; all other calls but a clear leave the table as
it was. The listing is in the order of the slots, its length is the size, and that is the number of
inserts that landed on an empty slot less the number of erases that found their key, both since the
last clear. -/
theorem slots_kept_and_counted (hash : K → UInt64) (matching : K → K → Bool)
    (history : History K) :
    (∀ (capacity : Nat) (table : DynamicTable K),
      Trace (DynamicTable.create capacity hash matching) history table →
      ∃ listed, Replies table .entries (.ok (.entries listed)) ∧
        KeepsSlots ((Ledger.opening []).after history) table listed) ∧
    (∀ (n : Nat) [Placeholder K] (positive : 0 < n) (table : FixedTable K n),
      Trace (FixedTable.create positive hash matching) history table →
      ∃ listed, Replies table .entries (.ok (.entries listed)) ∧
        KeepsSlots ((Ledger.opening []).after history) table listed) ∧
    (∀ (S : Type) [Storage S K] [LawfulStorage S K] (given : S) (stored : List (Nat × K))
      (table : LinearTable K S), Storage.entries given = .ok stored →
      Trace (LinearTable.create given hash matching) history table →
      ∃ listed, Replies table .entries (.ok (.entries listed)) ∧
        KeepsSlots ((Ledger.opening (stored.map Prod.fst)).after history) table listed) := by
  refine ⟨?_, ?_, ?_⟩
  · intro capacity table trace
    obtain ⟨positive, slots, run, shows⟩ := DynamicTable.trace_run trace
    have balanced := run.balanced (Rules.balanced_empty _)
    exact ⟨_, (Ruled.replies_entries shows).mpr rfl, Ruled.keepsSlots shows balanced⟩
  · intro n _ positive table trace
    obtain ⟨slots, run, shows⟩ := FixedTable.trace_run trace
    have balanced := run.balanced (Rules.balanced_empty _)
    exact ⟨_, (Ruled.replies_entries shows).mpr rfl, Ruled.keepsSlots shows balanced⟩
  · intro S _ _ given stored table lists trace
    obtain ⟨positive, slots, run, shows⟩ := LinearTable.trace_run trace
    rw [entries_eq] at lists
    cases lists
    have balanced := run.balanced (Rules.balanced_opening _ _)
    exact ⟨_, (Ruled.replies_entries shows).mpr rfl, Ruled.keepsSlots shows balanced⟩

/-- Keys match that are not below the stored one. Since the clear three inserts landed on an empty
slot, one found its key stored, and one erase emptied a slot again. -/
theorem slots_kept_and_counted_after_clear :
    ∃ table : DynamicTable Nat,
      Trace (DynamicTable.create 3 (fun _ => 8) fun a b => a ≤ b)
        [(.insert 9, .slot (some 1)), (.clear, .done), (.insert 5, .slot (some 1)),
          (.insert 3, .slot (some 2)), (.insert 7, .slot (some 1)), (.erase 4, .slot (some 2)),
          (.insert 2, .slot (some 2)), (.entries, .entries [(1, 5), (2, 2)])] table ∧
      KeepsSlots ⟨[2, 1], 3, 1⟩ table [(1, 5), (2, 2)] := by
  have created : Trace (DynamicTable.create 3 (fun _ : Nat => 8) fun a b => a ≤ b) [] _ :=
    .created (DynamicTable.create_result (by decide) _ _ .off)
  have trace := created
    |>.step .direct (.insert 9) .off rfl |>.step .throughIndex .clear .off rfl
    |>.step .direct (.insert 5) .off rfl |>.step .direct (.insert 3) .off rfl
    |>.step .direct (.insert 7) .off rfl |>.step .direct (.erase 4) .off rfl
    |>.step .direct (.insert 2) .off rfl |>.step .direct .entries .off rfl
  obtain ⟨listed, lists, keeps⟩ := (slots_kept_and_counted _ _ _).1 3 _ trace
  have same : (.ok (.entries [(1, 5), (2, 2)]) : Except Fault (Answer Nat)) =
      .ok (.entries listed) := lists .direct .off
  cases same
  exact ⟨_, trace, keeps⟩

end SlotTable

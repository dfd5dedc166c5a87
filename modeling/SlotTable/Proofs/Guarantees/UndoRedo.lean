import SlotTable.Proofs.Table.Core

/-!
# Undoing inserts and erases

An insert that filled an empty slot is undone by an erase of its key, and an erase that found its
very key by an insert of it: the second walk passes what the first one passed and ends at the same
slot. Undone from the last one to the first one, any number of them lead back to the table of
before, to the last cell. Nothing more is asked of the match rule than that the keys that are
inserted match themselves, and nothing of the hash or of the run that led to the table.
-/
namespace SlotTable

open Function (update)

variable {T K S : Type}

/-- Calls that are answered like this, by either route and under every threshold, and that lead from
the first table to the last one. -/
inductive Leads [Table T K] : T → History K → T → Prop where
  | done (table : T) : Leads table [] table
  | call {first middle last : T} {op : Op K} {answer : Answer K} {history : History K}
      (performed : ∀ (route : Route) (limit : Threshold),
        (op.perform route first).result limit = .ok (answer, middle))
      (rest : Leads middle history last) : Leads first ((op, answer) :: history) last

section Runs

variable [Storage S K] [LawfulStorage S K] [Table T K] [Ruled T K] [Wraps T K S]

/-- Inserting the keys one after the other leads to the last table. Of those that filled an empty
slot the slot is kept too. -/
inductive Fills (first : T) : List K → List (K × Nat) → T → Prop where
  | start : Fills first [] [] first
  | filled {keys : List K} {fillings : List (K × Nat)} {table after : T} {slot : Nat}
      (before : Fills first keys fillings table) (route : Route) (key : K) (limit : Threshold)
      (inserted : ((Op.insert key).perform route table).result limit =
        .ok (.slot (some slot), after))
      (empty : Storage.keyAt (Wraps.core table).slots slot = .ok none) :
      Fills first (keys ++ [key]) (fillings ++ [(key, slot)]) after
  | other {keys : List K} {fillings : List (K × Nat)} {table after : T} {answer : Answer K}
      (before : Fills first keys fillings table) (route : Route) (key : K) (limit : Threshold)
      (inserted : ((Op.insert key).perform route table).result limit = .ok (answer, after))
      (held : ∀ slot, answer = .slot (some slot) →
        Storage.keyAt (Wraps.core table).slots slot ≠ .ok none) :
      Fills first (keys ++ [key]) fillings after

/-- Erasing the keys one after the other leads to the last table, and each erase finds the very key
that it is given, in this slot. -/
inductive Empties (first : T) : List (K × Nat) → T → Prop where
  | start : Empties first [] first
  | emptied {erasures : List (K × Nat)} {table after : T} {slot : Nat}
      (before : Empties first erasures table) (route : Route) (key : K) (limit : Threshold)
      (erased : ((Op.erase key).perform route table).result limit =
        .ok (.slot (some slot), after))
      (stored : Storage.keyAt (Wraps.core table).slots slot = .ok (some key)) :
      Empties first (erasures ++ [(key, slot)]) after

/-- What can be undone on a table. -/
structure Reversible (matching : K → K → Bool) (faults : List Fault) (table : T) : Prop where
  /-- Any keys can be inserted, as long as none of the inserts ends the program. -/
  fills : ∀ keys, (∃ fillings last, Fills table keys fillings last) ∨
    ∃ earlier key later fillings middle, keys = earlier ++ key :: later ∧
      Fills table earlier fillings middle ∧ ∃ fault ∈ faults, ∀ (route : Route)
        (limit : Threshold), ((Op.insert key).perform route middle).result limit = .error fault
  undo : ∀ keys fillings last, Fills table keys fillings last →
    (∀ key ∈ keys, matching key key = true) →
    Leads last (fillings.reverse.map fun filling => (.erase filling.1, .slot (some filling.2)))
      table
  redo : ∀ erasures last, Empties table erasures last →
    Leads last (erasures.reverse.map fun erasure => (.insert erasure.1, .slot (some erasure.2)))
      table

end Runs

namespace Rules

variable {rules : Rules K} {slots : Slots K} {key : K} {index : Nat}

/-- Erasing the key that an insert has stored takes the slots back. -/
theorem perform_erase_stored (landed : rules.landing slots key = .vacant index)
    (reflexive : rules.matching key key = true) :
    rules.perform (update slots index (some key)) (.erase key) =
      .ok (.slot (some index), slots) := by
  have empty := (landing_eq_vacant_iff.mp landed).2
  rw [perform_erase_found (landing_update_of_matches landed reflexive), Function.update_idem,
    ← empty, Function.update_eq_self]

/-- Inserting the key that an erase has taken out takes the slots back. -/
theorem perform_insert_erased (landed : rules.landing slots key = .occupied index)
    (stored : slots index = some key) :
    rules.perform (update slots index none) (.insert key) = .ok (.slot (some index), slots) := by
  have reached := (landing_eq_occupied_iff.mp landed).1
  rw [perform_insert_vacant (landing_update_none reached), Function.update_idem, ← stored,
    Function.update_eq_self]

end Rules

section Tables

variable [Storage S K] [LawfulStorage S K] [TidyStorage S K] [Table T K] [Ruled T K] [Wraps T K S]
  {rules : Rules K} {slots : Slots K} {table first last : T} {keys : List K}
  {fillings erasures : List (K × Nat)}

theorem Fills.pinned (fills : Fills first keys fillings last) (start : Pinned rules slots first) :
    ∃ left, Pinned rules left last := by
  induction fills with
  | start => exact ⟨slots, start⟩
  | filled before route key limit inserted empty ih =>
    obtain ⟨middle, pinned⟩ := ih
    obtain ⟨left, -, pinnedAfter, -⟩ := pinned.step inserted
    exact ⟨left, pinnedAfter⟩
  | other before route key limit inserted held ih =>
    obtain ⟨middle, pinned⟩ := ih
    obtain ⟨left, -, pinnedAfter, -⟩ := pinned.step inserted
    exact ⟨left, pinnedAfter⟩

theorem Empties.pinned (empties : Empties first erasures last)
    (start : Pinned rules slots first) : ∃ left, Pinned rules left last := by
  induction empties with
  | start => exact ⟨slots, start⟩
  | emptied before route key limit erased stored ih =>
    obtain ⟨middle, pinned⟩ := ih
    obtain ⟨left, -, pinnedAfter, -⟩ := pinned.step erased
    exact ⟨left, pinnedAfter⟩

/-- Inserts can be made until one of them ends the program. -/
theorem Fills.exists_of_keys {faults : List Fault} (start : Pinned rules slots first)
    (listed : rules.refusal = .fatal → .slotsExhausted rules.capacity ∈ faults) (keys : List K) :
    (∃ fillings last, Fills first keys fillings last) ∨
      ∃ earlier key later fillings middle, keys = earlier ++ key :: later ∧
        Fills first earlier fillings middle ∧ ∃ fault ∈ faults, ∀ (route : Route)
          (limit : Threshold),
          ((Op.insert key).perform route middle).result limit = .error fault := by
  induction keys using List.reverseRecOn with
  | nil => exact .inl ⟨[], first, .start⟩
  | append_singleton keys key ih =>
    obtain ⟨fillings, middle, fills⟩ |
      ⟨earlier, refused, later, fillings, middle, rfl, fills, ends⟩ := ih
    · obtain ⟨left, pinned⟩ := fills.pinned start
      cases ruled : rules.perform left (.insert key) with
      | error fault =>
        refine .inr ⟨keys, key, [], fillings, middle, rfl, fills, fault, ?_, ?_⟩
        · rw [Rules.perform_error_eq ruled]
          exact listed (Rules.fatal_of_error ruled)
        · exact Ruled.perform_error pinned.shows ruled
      | ok pair =>
        obtain ⟨answer, filled⟩ := pair
        obtain ⟨after, answered, -⟩ := Ruled.perform_ok pinned.shows ruled .direct .off
        by_cases held : ∀ slot, answer = .slot (some slot) →
            Storage.keyAt (Wraps.core middle).slots slot ≠ .ok none
        · exact .inl ⟨fillings, after, fills.other .direct key .off answered held⟩
        · push Not at held
          obtain ⟨slot, rfl, empty⟩ := held
          exact .inl ⟨_, after, fills.filled .direct key .off answered empty⟩
    · exact .inr ⟨earlier, refused, later ++ [key], fillings, middle, by simp, fills, ends⟩

section Inverse

variable (injective : Function.Injective (Wraps.core : T → LinearTable K S))
include injective

theorem Fills.undo (fills : Fills first keys fillings last) (start : Pinned rules slots first)
    (reflexive : ∀ key ∈ keys, rules.matching key key = true) :
    Leads last (fillings.reverse.map fun filling => (.erase filling.1, .slot (some filling.2)))
      first := by
  induction fills with
  | start => exact .done first
  | @filled keys fillings table after slot before route key limit inserted empty ih =>
    obtain ⟨earlier, newest⟩ := List.forall_mem_append.mp reflexive
    obtain ⟨middle, pinned⟩ := before.pinned start
    obtain ⟨landed, shown⟩ := Wraps.insert_stored pinned.shows inserted empty
    rw [List.reverse_append]
    refine .call ?_ (ih earlier)
    exact pinned.restore injective inserted shown
      (Rules.perform_erase_stored landed (newest key (List.mem_singleton_self key)))
  | @other keys fillings table after answer before route key limit inserted held ih =>
    obtain ⟨earlier, -⟩ := List.forall_mem_append.mp reflexive
    obtain ⟨middle, pinned⟩ := before.pinned start
    obtain ⟨left, ruled, -, same⟩ := pinned.step inserted
    have effect := Rules.perform_effect ruled
    have unchanged : after = table := by
      refine same rfl (effect.insert_eq_of_held fun slot named empty => ?_)
      subst named
      refine held slot rfl ?_
      rw [Wraps.keyAt_core pinned.shows effect.index_lt, empty]
    rw [unchanged]
    exact ih earlier

theorem Empties.redo (empties : Empties first erasures last) (start : Pinned rules slots first) :
    Leads last (erasures.reverse.map fun erasure => (.insert erasure.1, .slot (some erasure.2)))
      first := by
  induction empties with
  | start => exact .done first
  | @emptied erasures table after slot before route key limit erased stored ih =>
    obtain ⟨middle, pinned⟩ := before.pinned start
    obtain ⟨landed, shown⟩ := Ruled.erase_found pinned.shows erased
    have inside := (Rules.landing_eq_occupied_iff.mp landed).1.1
    rw [Wraps.keyAt_core pinned.shows inside, Except.ok.injEq] at stored
    rw [List.reverse_append]
    refine .call ?_ ih
    exact pinned.restore injective erased shown (Rules.perform_insert_erased landed stored)

theorem Pinned.reversible {faults : List Fault} (pinned : Pinned rules slots table)
    (listed : rules.refusal = .fatal → .slotsExhausted rules.capacity ∈ faults) :
    Reversible rules.matching faults table where
  fills keys := Fills.exists_of_keys pinned listed keys
  undo _ _ _ fills reflexive := fills.undo injective pinned reflexive
  redo _ _ empties := empties.redo injective pinned

end Inverse

end Tables

section Kinds

variable {hash : K → UInt64} {matching : K → K → Bool} {history : History K}

theorem DynamicTable.trace_pinned {capacity : Nat} {table : DynamicTable K}
    (trace : Trace (DynamicTable.create capacity hash matching) history table) :
    ∃ (positive : 0 < capacity) (slots : Slots K),
      Pinned (Rules.ofHash positive hash matching .reported) slots table := by
  obtain ⟨positive, slots, -, shows⟩ := DynamicTable.trace_run trace
  exact ⟨positive, slots, shows, trivial⟩

theorem FixedTable.trace_pinned {n : Nat} [Placeholder K] {positive : 0 < n}
    {table : FixedTable K n}
    (trace : Trace (FixedTable.create positive hash matching) history table) :
    ∃ slots : Slots K, Pinned (Rules.ofHash positive hash matching .fatal) slots table := by
  obtain ⟨slots, -, shows⟩ := FixedTable.trace_run trace
  refine ⟨slots, shows, TidyStorage.kept.trace (fun limit fresh made => ?_) trace⟩
  rw [FixedTable.create_result positive] at made
  cases made
  exact FlaggedSlots.tidy_empty

theorem LinearTable.trace_pinned [Storage S K] [LawfulStorage S K] [TidyStorage S K] {given : S}
    {table : LinearTable K S} (tidy : TidyStorage.Tidy given)
    (trace : Trace (LinearTable.create given hash matching) history table) :
    ∃ (positive : 0 < Storage.capacity given) (slots : Slots K),
      Pinned (Rules.ofHash positive hash matching .silent) slots table := by
  obtain ⟨positive, slots, -, shows⟩ := LinearTable.trace_run trace
  refine ⟨positive, slots, shows, TidyStorage.kept.trace (fun limit fresh made => ?_) trace⟩
  rw [LinearTable.create_result positive] at made
  cases made
  exact tidy

end Kinds

/-- On every table that a run can lead to, under any hash and any match rule: when keys that match
themselves are inserted and those that filled an empty slot are erased in the opposite order, each
erase is answered with the slot of its insert, and the table is again the one of before. When keys
are erased, each found as it is given, and inserted in the opposite order, they return to their
slots and the table is again the one of before. A flagged storage has its placeholders again,
whatever script of calls led to it. -/
theorem undo_redo (hash : K → UInt64) (matching : K → K → Bool) (history : History K) :
    (∀ (capacity : Nat) (table : DynamicTable K),
      Trace (DynamicTable.create capacity hash matching) history table →
      Reversible matching [] table) ∧
    (∀ (n : Nat) [Placeholder K] (positive : 0 < n) (table : FixedTable K n),
      Trace (FixedTable.create positive hash matching) history table →
      Reversible matching [.slotsExhausted n] table) ∧
    (∀ (given : OptionalSlots K) (table : LinearTable K (OptionalSlots K)),
      Trace (LinearTable.create given hash matching) history table →
      Reversible matching [] table) ∧
    (∀ (n : Nat) [Placeholder K] (script : List (Access K)) (given : FlaggedSlots K n)
      (table : LinearTable K (FlaggedSlots K n)),
      given = (Access.replay FlaggedSlots.empty script).2 →
      Trace (LinearTable.create given hash matching) history table →
      Reversible matching [] table) := by
  refine ⟨?_, ?_, ?_, ?_⟩
  · intro capacity table trace
    obtain ⟨positive, slots, pinned⟩ := DynamicTable.trace_pinned trace
    exact pinned.reversible DynamicTable.core_injective fun fatal => by cases fatal
  · intro n _ positive table trace
    obtain ⟨slots, pinned⟩ := FixedTable.trace_pinned trace
    exact pinned.reversible FixedTable.core_injective fun _ => List.mem_singleton_self _
  · intro given table trace
    obtain ⟨positive, slots, pinned⟩ := LinearTable.trace_pinned trivial trace
    exact pinned.reversible Function.injective_id fun fatal => by cases fatal
  · intro n _ script given table replayed trace
    have tidy : TidyStorage.Tidy given := by
      rw [replayed]
      exact TidyStorage.kept.replay FlaggedSlots.tidy_empty script
    obtain ⟨positive, slots, pinned⟩ := LinearTable.trace_pinned tidy trace
    exact pinned.reversible Function.injective_id fun fatal => by cases fatal

/-- A damaged fixed table: 6 is hidden behind the hole in slot 0. Of the keys that are inserted then
one is the placeholder, one matches a stored key, and the last one must pass the third one. -/
theorem undo_redo_of_damaged :
    ∃ (table last emptied : FixedTable (Option Nat) 6),
      Trace (FixedTable.create (by decide) (fun key => .ofNat (key.getD 0))
          fun a b => a.getD 0 ≤ b.getD 0)
        [(.insert (some 18), .slot (some 5)), (.insert (some 12), .slot (some 0)),
          (.insert (some 6), .slot (some 1)), (.insert (some 9), .slot (some 2)),
          (.erase (some 12), .slot (some 0)), (.contains (some 6), .flag false)] table ∧
      Reversible (fun a b => a.getD 0 ≤ b.getD 0) [.slotsExhausted 6] table ∧
      Fills table [none, some 24, some 3, some 2] [(none, 0), (some 3, 3), (some 2, 4)] last ∧
      Leads last [(.erase (some 2), .slot (some 4)), (.erase (some 3), .slot (some 3)),
        (.erase none, .slot (some 0))] table ∧
      Empties table [(some 9, 2), (some 18, 5)] emptied ∧
      Leads emptied [(.insert (some 18), .slot (some 5)), (.insert (some 9), .slot (some 2))]
        table := by
  have created : Trace (FixedTable.create (by decide : 0 < 6)
      (fun key : Option Nat => UInt64.ofNat (key.getD 0))
      fun a b => a.getD 0 ≤ b.getD 0) [] _ :=
    .created (FixedTable.create_result (by decide) _ _ .off)
  have trace := created
    |>.step .direct (.insert (some 18)) .off rfl |>.step .direct (.insert (some 12)) .off rfl
    |>.step .direct (.insert (some 6)) .off rfl |>.step .direct (.insert (some 9)) .off rfl
    |>.step .throughIndex (.erase (some 12)) .off rfl
    |>.step .direct (.contains (some 6)) .off rfl
  have starts : ∀ {create : Logged (FixedTable (Option Nat) 6)} {history : History (Option Nat)}
      {table : FixedTable (Option Nat) 6}, Trace create history table →
      Fills table [] [] table ∧ Empties table [] table := fun _ => ⟨.start, .start⟩
  have fills := (starts trace).1
    |>.filled .direct none .off rfl rfl
    |>.other .direct (some 24) .off rfl (by rintro _ ⟨⟩ ⟨⟩)
    |>.filled .direct (some 3) .off rfl rfl |>.filled .throughIndex (some 2) .off rfl rfl
  have empties := (starts trace).2
    |>.emptied .direct (some 9) .off rfl rfl |>.emptied .throughIndex (some 18) .off rfl rfl
  have reversible := (undo_redo _ _ _).2.1 6 (by decide) _ trace
  exact ⟨_, _, _, trace, reversible, fills, reversible.undo _ _ _ fills (by decide), empties,
    reversible.redo _ _ empties⟩

end SlotTable

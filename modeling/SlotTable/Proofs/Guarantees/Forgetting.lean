import Mathlib.Tactic.IntervalCases
import SlotTable.Proofs.Rules.Entries
import SlotTable.Proofs.Table.Core
import SlotTable.Proofs.Table.Transcript

/-!
# What happened to a storage leaves no mark

An empty flagged cell holds the placeholder, which reading does not show but comparing whole cells
does. Clearing puts it back, so that after every script of calls a flagged storage is determined by
the keys that can be read, and two of them compare like two optional storages with these keys. A
table that is cleared is the new table again, to the last cell, and shows what the new one shows.
-/
namespace SlotTable

variable {T K S : Type}

/-- Both slots are empty, or both hold keys and these are equal. -/
def AgreeAt [Storage S K] [BEq K] (first second : S) (index : Nat) : Prop :=
  (Storage.keyAt first index = .ok none ∧ Storage.keyAt second index = .ok none) ∨
    ∃ a b, Storage.keyAt first index = .ok (some a) ∧ Storage.keyAt second index = .ok (some b) ∧
      (a == b) = true

/-- Two storages, perhaps of different kinds, that cannot be told apart by reading. -/
def ReadsLike {S' : Type} [Storage S K] [Storage S' K] (slots : S) (other : S') : Prop :=
  Storage.capacity slots = Storage.capacity other ∧
    ∀ index < Storage.capacity slots, Storage.keyAt slots index = Storage.keyAt other index

/-- Two flagged storages that show nothing but the keys that can be read. -/
structure Unmarked {n : Nat} [Placeholder K] [BEq K] (first second : FlaggedSlots K n) : Prop where
  empty_iff : ∀ index, Storage.keyAt first index = .ok none ↔
    first.cell index = .ok (Placeholder.placeholder, false)
  equal_iff : ((Placeholder.placeholder : K) == Placeholder.placeholder) = true →
    ((first == second) = true ↔ ∀ index < n, AgreeAt first second index)
  equal_eq : ((Placeholder.placeholder : K) == Placeholder.placeholder) = true →
    ∀ optional other : OptionalSlots K, ReadsLike optional first → ReadsLike other second →
      (optional == other) = (first == second)

/-- A clear of the table leaves the one that this constructor makes, which shows the same of later
calls. -/
structure StartsAnew [Table T K] (create : Logged T) (table : T) : Prop where
  restored : ∃ fresh, (∀ limit, create.result limit = .ok fresh) ∧
    ∀ (route : Route) (limit : Threshold),
      (Op.clear.perform route table).result limit = .ok (.done, fresh)
  later : ∀ (route : Route) (limit limitNew : Threshold) (calls : List (Route × Op K)),
    ∃ shown : Transcript K, transcript create limitNew calls = .ok shown ∧
      (play limit table (Op.clear.perform route ::
        calls.map fun call => call.2.perform call.1)).transcript =
        ⟨(.done, .ok []) :: shown.steps, shown.fault⟩

section Storage

variable [Storage S K] [LawfulStorage S K]

theorem ReadsLike.slotOf_eq {S' : Type} [Storage S' K] [LawfulStorage S' K] {slots : S}
    {other : S'} (reads : ReadsLike slots other) : slotOf slots = slotOf other := by
  obtain ⟨same, reads⟩ := reads
  funext index
  by_cases inside : index < Storage.capacity slots
  · have read := reads index inside
    rw [keyAt_eq_slotOf inside, keyAt_eq_slotOf (same ▸ inside)] at read
    exact Except.ok.inj read
  · have outside := Nat.le_of_not_lt inside
    rw [slotOf_eq_none outside, slotOf_eq_none (same ▸ outside)]

theorem agreeAt_iff [BEq K] {first second : S} {index : Nat}
    (insideFirst : index < Storage.capacity first)
    (insideSecond : index < Storage.capacity second) :
    AgreeAt first second index ↔ (slotOf first index == slotOf second index) = true := by
  unfold AgreeAt
  rw [keyAt_eq_slotOf insideFirst, keyAt_eq_slotOf insideSecond]
  cases slotOf first index <;> cases slotOf second index <;> simp

end Storage

theorem FlaggedSlots.unmarked {n : Nat} [Placeholder K] [BEq K] {first second : FlaggedSlots K n}
    (tidyFirst : TidyStorage.Tidy first) (tidySecond : TidyStorage.Tidy second) :
    Unmarked first second where
  empty_iff := by
    intro index
    by_cases inside : index < n
    · have cell : first.cell index = .ok first.cells[index] := dif_pos inside
      rw [keyAt_eq_slotOf (inside : index < Storage.capacity first), slotOf_eq_held inside, cell,
        Except.ok.injEq, Except.ok.injEq]
      constructor
      · intro vacant
        exact (tidyFirst index inside).eq_of_held (fun _ => rfl) vacant
      · intro empty
        rw [empty]
        rfl
    · have cell : first.cell index = .error (.indexOutOfBounds n index) := dif_neg inside
      simp [Storage.keyAt, cell, Functor.map, Except.map]
  equal_iff := by
    intro reflexive
    rw [FlaggedSlots.beq_iff reflexive tidyFirst tidySecond]
    exact forall₂_congr fun index inside => (agreeAt_iff inside inside).symm
  equal_eq := by
    intro reflexive optional other reads readsOther
    have sized : Storage.capacity optional = n := reads.1
    have same : Storage.capacity optional = Storage.capacity other :=
      reads.1.trans readsOther.1.symm
    rw [Bool.eq_iff_iff, OptionalSlots.beq_iff same,
      FlaggedSlots.beq_iff reflexive tidyFirst tidySecond, reads.slotOf_eq, readsOther.slotOf_eq,
      sized]

/-- A table that has the hash and the match rule of a new one starts anew when clearing its storage
leaves the storage of the new one. -/
theorem Wraps.startsAnew [Storage S K] [LawfulStorage S K] [Table T K] [Ruled T K] [Wraps T K S]
    {create : Logged T} {table fresh : T} {rules : Rules K}
    (injective : Function.Injective (core : T → LinearTable K S))
    (made : ∀ limit, create.result limit = .ok fresh)
    (shows : Ruled.Shows rules (fun _ => none) fresh)
    (hash_eq : (core table).hash = (core fresh).hash)
    (matching_eq : (core table).matching = (core fresh).matching)
    (emptied : Storage.clearAll (core table).slots = .ok (core fresh).slots) :
    StartsAnew create table := by
  have restored : ∀ (route : Route) (limit : Threshold),
      (Op.clear.perform route table).result limit = .ok (.done, fresh) := by
    intro route limit
    have wrapped : wrap (core fresh) = fresh := injective (core_wrap (core fresh))
    rw [Wraps.clear_result emptied, hash_eq, matching_eq]
    exact congrArg (fun cleared => Except.ok (Answer.done, cleared)) wrapped
  constructor
  · exact ⟨fresh, made, restored⟩
  · intro route limit limitNew calls
    refine ⟨_, Ruled.transcript_eq (made limitNew) shows calls, ?_⟩
    rw [transcript_play_ok (restored route limit), Ruled.transcript_play shows,
      Ruled.entries shows, Rules.entries_empty]

section Kinds

variable {hash : K → UInt64} {matching : K → K → Bool} {history : History K}

theorem DynamicTable.startsAnew {capacity : Nat} {table : DynamicTable K}
    (trace : Trace (DynamicTable.create capacity hash matching) history table) :
    StartsAnew (DynamicTable.create capacity hash matching) table := by
  obtain ⟨positive, slots, -, shows⟩ := DynamicTable.trace_run trace
  obtain ⟨hash_eq, matching_eq⟩ := DynamicTable.trace_keeps trace
  have made := DynamicTable.create_result positive hash matching
  have emptied := OptionalSlots.clearAll_eq table.core.slots
  rw [shows.1.capacity_eq] at emptied
  exact Wraps.startsAnew DynamicTable.core_injective made
    (DynamicTable.create_shows positive (made .off)) hash_eq matching_eq emptied

theorem FixedTable.startsAnew {n : Nat} [Placeholder K] {positive : 0 < n} {table : FixedTable K n}
    (trace : Trace (FixedTable.create positive hash matching) history table) :
    StartsAnew (FixedTable.create positive hash matching) table := by
  obtain ⟨hash_eq, matching_eq⟩ := FixedTable.trace_keeps trace
  have made := FixedTable.create_result positive hash matching
  exact Wraps.startsAnew FixedTable.core_injective made
    (FixedTable.create_shows positive (made .off)) hash_eq matching_eq
    (FlaggedSlots.clearAll_eq table.core.slots)

/-- A linear table starts anew if its storage is cleared to a storage without keys. -/
theorem LinearTable.startsAnew [Storage S K] [LawfulStorage S K] {given new : S}
    {table : LinearTable K S} (trace : Trace (LinearTable.create given hash matching) history table)
    (sized : Storage.capacity new = Storage.capacity given) (vacant : slotOf new = fun _ => none)
    (emptied : Storage.clearAll table.slots = .ok new) :
    StartsAnew (LinearTable.create new hash matching) table := by
  obtain ⟨positive, slots, -, shows⟩ := LinearTable.trace_run trace
  obtain ⟨hash_eq, matching_eq⟩ := LinearTable.trace_keeps trace
  rw [← sized] at positive
  have made := LinearTable.create_result positive hash matching
  have begins := LinearTable.create_shows positive (made .off)
  rw [vacant] at begins
  exact Wraps.startsAnew Function.injective_id made begins hash_eq matching_eq emptied

end Kinds

/-- After any two scripts on new flagged storages, an empty slot holds the placeholder and no flag.
If the placeholder is equal to itself then the storages are equal exactly when all their slots
agree, empty or with equal keys, as are optional storages in which the same keys can be read. Every
table that is cleared, whatever happened to it and over whichever storage, is the one that its
constructor makes, and all later calls show what they show on a new table. -/
theorem forgets_its_history (hash : K → UInt64) (matching : K → K → Bool) :
    (∀ (n : Nat) [Placeholder K] [BEq K] (first second : List (Access K)),
      Unmarked (Access.replay (FlaggedSlots.empty : FlaggedSlots K n) first).2
        (Access.replay (FlaggedSlots.empty : FlaggedSlots K n) second).2) ∧
    (∀ (capacity : Nat) (history : History K) (table : DynamicTable K),
      Trace (DynamicTable.create capacity hash matching) history table →
      StartsAnew (DynamicTable.create capacity hash matching) table) ∧
    (∀ (n : Nat) [Placeholder K] (positive : 0 < n) (history : History K) (table : FixedTable K n),
      Trace (FixedTable.create positive hash matching) history table →
      StartsAnew (FixedTable.create positive hash matching) table) ∧
    (∀ (given : OptionalSlots K) (history : History K) (table : LinearTable K (OptionalSlots K)),
      Trace (LinearTable.create given hash matching) history table →
      StartsAnew (LinearTable.create (OptionalSlots.empty (Storage.capacity given)) hash matching)
        table) ∧
    (∀ (n : Nat) [Placeholder K] (given : FlaggedSlots K n) (history : History K)
      (table : LinearTable K (FlaggedSlots K n)),
      Trace (LinearTable.create given hash matching) history table →
      StartsAnew (LinearTable.create (FlaggedSlots.empty : FlaggedSlots K n) hash matching)
        table) := by
  refine ⟨?_, ?_, ?_, ?_, ?_⟩
  · intro n _ _ first second
    exact FlaggedSlots.unmarked (TidyStorage.kept.replay FlaggedSlots.tidy_empty first)
      (TidyStorage.kept.replay FlaggedSlots.tidy_empty second)
  · intro capacity history table trace
    exact DynamicTable.startsAnew trace
  · intro n _ positive history table trace
    exact FixedTable.startsAnew trace
  · intro given history table trace
    obtain ⟨_, slots, -, shows⟩ := LinearTable.trace_run trace
    have sized : Storage.capacity table.slots = Storage.capacity given := shows.1.capacity_eq
    refine LinearTable.startsAnew trace (OptionalSlots.capacity_empty _)
      (OptionalSlots.slotOf_empty _) ?_
    rw [← sized]
    exact OptionalSlots.clearAll_eq table.slots
  · intro n _ given history table trace
    exact LinearTable.startsAnew trace rfl FlaggedSlots.slotOf_empty
      (FlaggedSlots.clearAll_eq table.slots)

/-- Storages with different pasts are equal; one more, in which the placeholder itself is stored, is
not equal to them. A fixed table is damaged and cleared. -/
theorem forgets_its_history_of_placeholder :
    ∃ (first second third : FlaggedSlots Bool 2) (table : FixedTable Bool 2),
      first = (Access.replay FlaggedSlots.empty [.write 0 false, .write 1 true, .clear 1,
        .write 0 true, .clear 5]).2 ∧
      second = (Access.replay FlaggedSlots.empty [.write 1 true, .clear 0, .clear 1,
        .write 0 true]).2 ∧
      third = (Access.replay FlaggedSlots.empty [.write 1 false, .write 0 true]).2 ∧
      (first == second) = true ∧ (first == third) = false ∧
      Trace (FixedTable.create Nat.two_pos (fun _ => 7) fun a b => a == b)
        [(.insert false, .slot (some 0)), (.insert true, .slot (some 1)),
          (.erase false, .slot (some 0)), (.contains true, .flag false)] table ∧
      StartsAnew (FixedTable.create Nat.two_pos (fun _ => 7) fun a b => a == b) table := by
  have created : Trace (FixedTable.create Nat.two_pos (fun _ : Bool => 7) fun a b => a == b)
      [] _ := .created (FixedTable.create_result Nat.two_pos _ _ .off)
  have trace := created
    |>.step .direct (.insert false) .off rfl |>.step .direct (.insert true) .off rfl
    |>.step .throughIndex (.erase false) .off rfl |>.step .direct (.contains true) .off rfl
  have forgets := forgets_its_history (fun _ : Bool => 7) fun a b => a == b
  have unmarked := forgets.1 2
  refine ⟨_, _, _, _, rfl, rfl, rfl, ?_, ?_, trace, forgets.2.2.1 2 Nat.two_pos _ _ trace⟩
  · refine ((unmarked _ _).equal_iff rfl).mpr fun index inside => ?_
    interval_cases index
    · exact .inr ⟨true, true, rfl, rfl, rfl⟩
    · exact .inl ⟨rfl, rfl⟩
  · refine Bool.eq_false_iff.mpr fun equal => ?_
    have agree := ((unmarked _ _).equal_iff rfl).mp equal 1 (by decide)
    obtain ⟨-, stored⟩ | ⟨a, b, empty, -⟩ := agree
    · cases stored
    · cases empty

end SlotTable

import SlotTable.Proofs.Rules.Lawful
import SlotTable.Proofs.Table.Core
import SlotTable.Proofs.Walk.Asked

/-!
# What an insert does to the other keys

An insert that fills an empty slot moves no walk that ends elsewhere. A walk that used to end at
this slot ends there still if the new key matches; else it goes on behind the slot, as a walk over
the rest of its path, and may come to a key that the hole has hidden. So a key that is found is
found in the same slot after any number of inserts, also on a table that erases have damaged.
-/
namespace SlotTable

open Function (update update_self update_of_ne)

variable {T K S : Type}

/-- What is found on `after`, left by an insert of `key` that filled the empty slot `filled` of
`table`. -/
structure InsertEffect [Storage S K] [LawfulStorage S K] [Table T K] [Ruled T K] [Wraps T K S]
    (capacity : Nat) (hash : K → UInt64) (matching : K → K → Bool) (table : T) (key : K)
    (filled : Nat) (after : T) : Prop where
  /-- Before, every walk came to an end at some slot. -/
  ends : ∀ other, ∃ index,
    Locates table other (.vacant index) ∨ Locates table other (.occupied index)
  occupied : ∀ other index, Locates table other (.occupied index) →
    Locates after other (.occupied index)
  vacant : ∀ other index, index ≠ filled → Locates table other (.vacant index) →
    Locates after other (.vacant index)
  matched : ∀ other, Locates table other (.vacant filled) → matching key other = true →
    Locates after other (.occupied filled)
  continued : ∀ other, Locates table other (.vacant filled) → matching key other = false →
    ∃ walk, Walk.along (Wraps.core table).slots matching other
        (onward capacity (homeIndex (hash other) capacity) filled) = .ok walk ∧
      Locates after other walk.landing
  filled_slot : Storage.keyAt (Wraps.core after).slots filled = .ok (some key)
  other_slots : ∀ slot < capacity, slot ≠ filled →
    Storage.keyAt (Wraps.core after).slots slot = Storage.keyAt (Wraps.core table).slots slot

/-- What inserts do to a table. -/
structure InsertsReveal [Storage S K] [LawfulStorage S K] [Table T K] [Ruled T K] [Wraps T K S]
    (capacity : Nat) (hash : K → UInt64) (matching : K → K → Bool) (table : T) : Prop where
  stored : ∀ (key : K) (filled : Nat) (after : T) (route : Route) (limit : Threshold),
    ((Op.insert key).perform route table).result limit = .ok (.slot (some filled), after) →
    Storage.keyAt (Wraps.core table).slots filled = .ok none →
    InsertEffect capacity hash matching table key filled after
  hides_none : ∀ keys last, Inserted (pure table) keys last → ∀ other index,
    Replies table (.indexOf other) (.ok (.slot (some index))) →
    Replies last (.indexOf other) (.ok (.slot (some index)))

namespace Rules

variable {rules : Rules K} {slots after : Slots K} {history : History K} {answer : Answer K}
  {key other : K} {filled index : Nat}

/-- The walk that ended at a slot goes on behind it once a key is there that does not match. -/
theorem landing_update_of_differs (landed : rules.landing slots other = .vacant filled)
    (differs : rules.matching key other = false) :
    rules.landing (update slots filled (some key)) other =
      Walk.stop slots rules.matching other
        (onward rules.capacity (rules.home other) filled) := by
  obtain ⟨reached, -⟩ := landing_eq_vacant_iff.mp landed
  have below := rules.home_lt other
  have passed : ∀ slot ∈ path rules.capacity (rules.home other) filled,
      rules.Passes (update slots filled (some key)) other slot := by
    intro slot member
    obtain ⟨inside, near⟩ := (mem_path below reached.1).mp member
    rcases Nat.lt_or_eq_of_le near with less | equal
    · refine (passes_update_of_ne ?_).mpr (reached.2 slot inside less)
      rintro rfl
      exact Nat.lt_irrefl _ less
    · rw [depth_inj inside reached.1 equal]
      exact ⟨key, update_self .., differs⟩
  rw [landing, visitOrder_eq_append below reached.1, Walk.stop_append passed]
  refine Walk.stop_eq_of_agree fun slot member => update_of_ne ?_ ..
  rintro rfl
  exact Nat.lt_irrefl _ (distance_lt_of_mem_onward below reached.1 member).2

/-- Inserts leave every key where it is found. -/
theorem Run.keeps_found (run : rules.Run slots history after)
    (inserts : ∀ call ∈ history, ∃ key, call.1 = .insert key)
    (found : rules.landing slots other = .occupied index) :
    rules.landing after other = .occupied index := by
  induction run with
  | start => exact found
  | @step history slots after op answer before performed ih =>
    obtain ⟨earlier, last⟩ := List.forall_mem_append.mp inserts
    obtain ⟨key, rfl⟩ : ∃ key, op = .insert key := last (op, answer) (List.mem_singleton_self _)
    exact (perform_effect performed).landing_kept (ih earlier) nofun rfl

/-- Where there is an empty slot, every walk comes to an end at some slot. -/
theorem exists_landing_of_empty (inside : filled < rules.capacity) (empty : slots filled = none)
    (other : K) :
    ∃ index, rules.landing slots other = .vacant index ∨
      rules.landing slots other = .occupied index := by
  cases landed : rules.landing slots other with
  | vacant index => exact ⟨index, .inl rfl⟩
  | occupied index => exact ⟨index, .inr rfl⟩
  | exhausted =>
    have passed := landing_eq_exhausted_iff.mp landed filled inside
    exact absurd passed (Walk.not_passes_of_none empty)

end Rules

section Tables

variable [Storage S K] [LawfulStorage S K] [Table T K] [Ruled T K] [Wraps T K S]
  {slots : Slots K} {table after : T}
  {capacity : Nat} {positive : 0 < capacity} {hash : K → UInt64} {matching : K → K → Bool}
  {refusal : Refusal}

theorem Wraps.insertEffect
    (shows : Ruled.Shows (Rules.ofHash positive hash matching refusal) slots table) {key : K}
    {filled : Nat}
    (landed : (Rules.ofHash positive hash matching refusal).landing slots key = .vacant filled)
    (shown : Ruled.Shows (Rules.ofHash positive hash matching refusal)
      (update slots filled (some key)) after) :
    InsertEffect capacity hash matching table key filled after := by
  obtain ⟨reached, empty⟩ := Rules.landing_eq_vacant_iff.mp landed
  constructor
  case ends =>
    intro other
    simp only [locates_iff shows]
    exact Rules.exists_landing_of_empty reached.1 empty other
  case occupied =>
    intro other index found
    rw [locates_iff shows] at found
    rw [locates_iff shown]
    exact Rules.landing_update_of_occupied reached.1 empty found
  case vacant =>
    intro other index different ends
    rw [locates_iff shows] at ends
    have stop : ((Rules.ofHash positive hash matching refusal).landing slots other).slot? =
        some index := by
      rw [ends]
      rfl
    rw [locates_iff shown, Rules.landing_update_of_ne reached.1 empty stop different, ends]
  case matched =>
    intro other ends answers
    rw [locates_iff shows] at ends
    rw [locates_iff shown]
    exact Rules.landing_update_of_matches ends answers
  case continued =>
    intro other ends differs
    rw [locates_iff shows] at ends
    have core := shows_core shows
    have walked := Walk.along_eq (Wraps.core table).slots matching other
      (onward capacity (homeIndex (hash other) capacity) filled) fun index member => by
        rw [core.capacity_eq]
        exact (distance_lt_of_mem_onward (homeIndex_lt _ positive) reached.1 member).1
    refine ⟨_, walked, ?_⟩
    rw [locates_iff shown, Rules.landing_update_of_differs ends differs]
    simp only [Rules.ofHash, core.slotOf_eq]
  case filled_slot =>
    rw [keyAt_core shown reached.1, update_self]
  case other_slots =>
    intro slot inside different
    rw [keyAt_core shown inside, keyAt_core shows inside, update_of_ne different]

theorem Wraps.insertsReveal
    (shows : Ruled.Shows (Rules.ofHash positive hash matching refusal) slots table) :
    InsertsReveal capacity hash matching table where
  stored := by
    intro key filled after route limit inserted empty
    obtain ⟨landed, shown⟩ := Wraps.insert_stored shows inserted empty
    exact insertEffect shows landed shown
  hides_none := by
    intro keys last inserted other index found
    obtain ⟨history, inserts, trace⟩ := inserted
    obtain ⟨left, run, shown⟩ := trace.run_later shows
    rw [Ruled.replies_indexOf shows, Rules.indexOf_eq_some_iff] at found
    rw [Ruled.replies_indexOf shown, Rules.indexOf_eq_some_iff]
    refine run.keeps_found (fun call member => ?_) found
    have listed := List.mem_map_of_mem (f := Prod.fst) member
    rw [inserts, List.mem_map] at listed
    obtain ⟨key, -, equal⟩ := listed
    exact ⟨key, equal.symm⟩

end Tables

/-- When an insert fills an empty slot, every other walk ends where it did, but for those that used
to end at this slot: they end there if the new key matches, and else where the walk over the rest of
their path ends. No insert hides a key that is found or moves it. That is so of every table that a
run can lead to, damaged or not, under any hash and any match rule. -/
theorem insert_effect (hash : K → UInt64) (matching : K → K → Bool) (history : History K) :
    (∀ (capacity : Nat) (table : DynamicTable K),
      Trace (DynamicTable.create capacity hash matching) history table →
      InsertsReveal capacity hash matching table) ∧
    (∀ (n : Nat) [Placeholder K] (positive : 0 < n) (table : FixedTable K n),
      Trace (FixedTable.create positive hash matching) history table →
      InsertsReveal n hash matching table) ∧
    (∀ (S : Type) [Storage S K] [LawfulStorage S K] (given : S) (table : LinearTable K S),
      Trace (LinearTable.create given hash matching) history table →
      InsertsReveal (Storage.capacity given) hash matching table) := by
  refine ⟨?_, ?_, ?_⟩
  · intro capacity table trace
    obtain ⟨positive, slots, run, shows⟩ := DynamicTable.trace_run trace
    exact Wraps.insertsReveal shows
  · intro n _ positive table trace
    obtain ⟨slots, run, shows⟩ := FixedTable.trace_run trace
    exact Wraps.insertsReveal shows
  · intro S _ _ given table trace
    obtain ⟨positive, slots, run, shows⟩ := LinearTable.trace_run trace
    exact Wraps.insertsReveal shows

/-- An erase hides 10 behind the hole in slot 0, and the insert that fills it reveals the key again.
The match rule is not symmetric: a stored key matches every larger one. -/
theorem insert_effect_of_hole :
    ∃ table after : DynamicTable Nat,
      Trace (DynamicTable.create 4 UInt64.ofNat fun a b => a ≤ b)
        [(.insert 50, .slot (some 3)), (.insert 30, .slot (some 0)), (.insert 10, .slot (some 1)),
          (.erase 30, .slot (some 0)), (.indexOf 10, .slot none)] table ∧
      ((Op.insert 22).perform .direct table).result .off = .ok (.slot (some 0), after) ∧
      InsertsReveal 4 UInt64.ofNat (fun a b => a ≤ b) table ∧
      InsertEffect 4 UInt64.ofNat (fun a b => a ≤ b) table 22 0 after ∧
      Locates after 10 (.occupied 1) ∧ Locates after 26 (.occupied 0) := by
  have created : Trace (DynamicTable.create 4 UInt64.ofNat fun a b : Nat => a ≤ b) [] _ :=
    .created (DynamicTable.create_result (by decide) _ _ .off)
  have trace := created
    |>.step .direct (.insert 50) .off rfl |>.step .direct (.insert 30) .off rfl
    |>.step .direct (.insert 10) .off rfl |>.step .throughIndex (.erase 30) .off rfl
    |>.step .direct (.indexOf 10) .off rfl
  have reveal := (insert_effect UInt64.ofNat (fun a b => a ≤ b) _).1 4 _ trace
  have effect := reveal.stored 22 0 _ .direct .off rfl rfl
  obtain ⟨walk, walked, located⟩ := effect.continued 10 (fun _ => rfl) rfl
  have behind : walk = ⟨.occupied 1, [10]⟩ := (Except.ok.inj walked).symm
  rw [behind] at located
  exact ⟨_, _, trace, rfl, reveal, effect, located, effect.matched 26 (fun _ => rfl) rfl⟩

end SlotTable

import SlotTable.Proofs.Rules.Entries
import SlotTable.Proofs.Rules.Lawful
import SlotTable.Proofs.Table.Trace

/-!
# A table from which nothing was erased is a set

The set is read off the history: the inserts that were answered with a slot since the last clear.
Among them the first one equal to a key decides everything about that key, its slot included. The
invariant (`Remembers`) ties the slots to these inserts from both sides: a stored key is the first
of its class, and every such insert still leads to its slot. What the table replies then follows
without another look at the walk.
-/
namespace SlotTable

open Function (update update_self update_of_ne)

variable {T K : Type}

def accept (kept : List (K × Nat)) : Op K × Answer K → List (K × Nat)
  | (.insert key, .slot (some index)) => kept ++ [(key, index)]
  | (.clear, _) => []
  | _ => kept

/-- The inserts that were answered with a slot since the last clear, each with that slot. -/
def accepted (history : History K) : List (K × Nat) := history.foldl accept []

/-- The first of some inserts whose key matches. -/
def firstEqual (matching : K → K → Bool) (inserts : List (K × Nat)) (key : K) :
    Option (K × Nat) :=
  inserts.find? fun entry => matching entry.1 key

/-- The listing has one key of each class of matching keys, the first that was inserted, with the
slot that this insert was given. -/
structure ListsClasses (matching : K → K → Bool) (inserts : List (K × Nat))
    (listed : List (Nat × K)) : Prop where
  first : ∀ index key, (index, key) ∈ listed ↔
    firstEqual matching inserts key = some (key, index)
  sorted : listed.Pairwise fun a b => a.1 < b.1
  apart : listed.Pairwise fun a b => matching a.2 b.2 = false
  covers : ∀ entry ∈ inserts, ∃ pair ∈ listed, matching pair.2 entry.1 = true

/-- A table replies as the set of the inserted keys does; an insert that finds no room is answered
`refused`. -/
structure ActsAsSet [Table T K] (capacity : Nat) (matching : K → K → Bool)
    (refused : Except Fault (Answer K)) (inserts : List (K × Nat)) (table : T) : Prop where
  contains : ∀ key, Replies table (.contains key)
    (.ok (.flag (inserts.any fun entry => matching entry.1 key)))
  indexOf : ∀ key, Replies table (.indexOf key)
    (.ok (.slot ((firstEqual matching inserts key).map Prod.snd)))
  distinct : ∀ a ∈ inserts, ∀ b ∈ inserts, a.2 = b.2 ↔ matching a.1 b.1 = true
  listing : ∃ listed, Replies table .entries (.ok (.entries listed)) ∧
    Replies table .size (.ok (.number listed.length)) ∧
    ListsClasses matching inserts listed ∧
    ∀ key,
      (Replies table (.insert key) refused ↔
        listed.length = capacity ∧ ∀ entry ∈ inserts, matching entry.1 key = false) ∧
      (¬ Replies table (.insert key) refused →
        ∃ index, Replies table (.insert key) (.ok (.slot (some index))))

theorem accepted_snoc (history : History K) (call : Op K × Answer K) :
    accepted (history ++ [call]) = accept (accepted history) call := by
  simp [accepted]

namespace Rules

variable {rules : Rules K} {slots after : Slots K} {history : History K}
  {inserts : List (K × Nat)} {op : Op K} {answer : Answer K} {key : K} {index : Nat}

theorem accept_of_quiet (quiet : Quiet op answer) : accept inserts (op, answer) = inserts := by
  cases op with
  | insert key =>
    cases answer with
    | slot index =>
      cases index with
      | none => rfl
      | some index => exact absurd quiet id
    | _ => rfl
  | clear => exact absurd quiet id
  | _ => rfl

theorem Lawful.firstEqual_congr {a b : K} (lawful : rules.Lawful)
    (equal : rules.matching a b = true) :
    firstEqual rules.matching inserts a = firstEqual rules.matching inserts b := by
  unfold firstEqual
  simp only [lawful.matching_congr_right equal]

/-- What the slots know of the inserts. -/
structure Remembers (rules : Rules K) (inserts : List (K × Nat)) (slots : Slots K) : Prop where
  recorded : ∀ index key, slots index = some key →
    firstEqual rules.matching inserts key = some (key, index)
  found : ∀ entry ∈ inserts, rules.landing slots entry.1 = .occupied entry.2

theorem Remembers.empty (rules : Rules K) : Remembers rules [] fun _ => none where
  recorded := by
    intro index key held
    cases held
  found := by
    intro entry member
    cases member

theorem Remembers.not_firstEqual (remembers : Remembers rules inserts slots)
    (lawful : rules.Lawful) (landed : rules.landing slots key = .vacant index) :
    firstEqual rules.matching inserts key = none := by
  refine List.find?_eq_none.mpr ?_
  intro entry member equal
  have leads := remembers.found entry member
  rw [lawful.landing_congr slots equal, landed] at leads
  cases leads

theorem Effect.remembers (effect : rules.Effect slots op answer after) (lawful : rules.Lawful)
    (remembers : Remembers rules inserts slots)
    (unerased : isRemoval (op, answer) = false) :
    Remembers rules (accept inserts (op, answer)) after := by
  cases effect with
  | @stored key index landed =>
    obtain ⟨reached, empty⟩ := landing_eq_vacant_iff.mp landed
    constructor
    · intro slot stored held
      unfold accept firstEqual
      rw [List.find?_append]
      by_cases same : slot = index
      · subst slot
        rw [update_self, Option.some.injEq] at held
        subst stored
        have absent := remembers.not_firstEqual lawful landed
        unfold firstEqual at absent
        simp [absent, lawful.refl]
      · rw [update_of_ne same] at held
        have first := remembers.recorded slot stored held
        unfold firstEqual at first
        rw [first, Option.some_or]
    · intro entry member
      rcases List.mem_append.mp member with old | new
      · exact landing_update_of_occupied reached.1 empty (remembers.found entry old)
      · rw [List.mem_singleton.mp new]
        exact lawful.landing_stored landed
  | @found key index landed =>
    constructor
    · intro slot stored held
      have first := remembers.recorded slot stored held
      unfold firstEqual at first
      unfold accept firstEqual
      rw [List.find?_append, first, Option.some_or]
    · intro entry member
      rcases List.mem_append.mp member with old | new
      · exact remembers.found entry old
      · rw [List.mem_singleton.mp new]
        exact landed
  | erased landed => cases unerased
  | cleared => exact Remembers.empty rules
  | kept quiet =>
    rw [accept_of_quiet quiet]
    exact remembers

/-- The invariant holds after every run in which no erase found a key. -/
theorem Run.remembers (run : rules.Run (fun _ => none) history slots) (lawful : rules.Lawful)
    (unerased : Unerased history) : Remembers rules (accepted history) slots := by
  induction run with
  | start => exact Remembers.empty rules
  | @step history slots after op answer before performed ih =>
    have earlier := ih fun call member => unerased call (List.mem_append_left _ member)
    have last := unerased (op, answer) (by simp)
    rw [accepted_snoc]
    exact (perform_effect performed).remembers lawful earlier last

namespace Remembers

variable (remembers : Remembers rules inserts slots) (lawful : rules.Lawful)
include remembers lawful

theorem indexOf_eq (key : K) :
    rules.indexOf slots key = (firstEqual rules.matching inserts key).map Prod.snd := by
  cases first : firstEqual rules.matching inserts key with
  | some entry =>
    have leads := remembers.found entry (List.mem_of_find?_eq_some first)
    have equal : rules.matching entry.1 key = true := by
      simpa using List.find?_some first
    rw [lawful.landing_congr slots equal] at leads
    exact indexOf_eq_some_iff.mpr leads
  | none =>
    refine Option.eq_none_iff_forall_ne_some.mpr ?_
    intro index located
    have landed := indexOf_eq_some_iff.mp located
    obtain ⟨-, stored, held, equal⟩ := landing_eq_occupied_iff.mp landed
    have recorded := remembers.recorded index stored held
    rw [lawful.firstEqual_congr equal, first] at recorded
    cases recorded

theorem contains_eq (key : K) :
    rules.contains slots key = inserts.any fun entry => rules.matching entry.1 key := by
  rw [contains_eq_isSome, remembers.indexOf_eq lawful, Option.isSome_map, firstEqual,
    List.isSome_find?]

theorem indexOf_eq_none_iff (key : K) :
    rules.indexOf slots key = none ↔ ∀ entry ∈ inserts, rules.matching entry.1 key = false := by
  rw [remembers.indexOf_eq lawful, Option.map_eq_none_iff, firstEqual, List.find?_eq_none]
  simp only [Bool.not_eq_true]

theorem slots_eq_some_iff :
    slots index = some key ↔ firstEqual rules.matching inserts key = some (key, index) := by
  constructor
  · exact remembers.recorded index key
  · intro first
    have leads := remembers.found _ (List.mem_of_find?_eq_some first)
    obtain ⟨-, stored, held, equal⟩ := landing_eq_occupied_iff.mp leads
    have recorded := remembers.recorded index stored held
    rw [lawful.firstEqual_congr equal, first] at recorded
    cases recorded
    exact held

theorem slot_eq_iff {a b : K × Nat} (memberA : a ∈ inserts) (memberB : b ∈ inserts) :
    a.2 = b.2 ↔ rules.matching a.1 b.1 = true := by
  have leadsA := remembers.found a memberA
  have leadsB := remembers.found b memberB
  constructor
  · intro same
    obtain ⟨-, stored, held, equalA⟩ := landing_eq_occupied_iff.mp leadsA
    obtain ⟨-, other, heldOther, equalB⟩ := landing_eq_occupied_iff.mp leadsB
    rw [← same, held, Option.some.injEq] at heldOther
    subst other
    exact lawful.trans (lawful.symm equalA) equalB
  · intro equal
    rw [lawful.landing_congr slots equal, leadsB] at leadsA
    exact (Landing.occupied.inj leadsA).symm

theorem listsClasses : ListsClasses rules.matching inserts (rules.entries slots) where
  first := by
    intro index key
    rw [mem_entries, ← remembers.slots_eq_some_iff lawful]
    constructor
    · intro listed
      exact listed.2
    · intro held
      have first := remembers.recorded index key held
      have leads := remembers.found _ (List.mem_of_find?_eq_some first)
      exact ⟨(landing_eq_occupied_iff.mp leads).1.1, held⟩
  sorted := entries_sorted rules slots
  apart := by
    refine (entries_sorted rules slots).imp_of_mem ?_
    intro a b memberA memberB less
    refine Bool.eq_false_iff.mpr fun equal => ?_
    have heldA := remembers.recorded a.1 a.2 (mem_entries.mp memberA).2
    have heldB := remembers.recorded b.1 b.2 (mem_entries.mp memberB).2
    rw [lawful.firstEqual_congr equal, heldB] at heldA
    cases a
    cases b
    cases heldA
    exact absurd less (Nat.lt_irrefl _)
  covers := by
    intro entry member
    have leads := remembers.found entry member
    obtain ⟨reached, stored, held, equal⟩ := landing_eq_occupied_iff.mp leads
    exact ⟨(entry.2, stored), mem_entries.mpr ⟨reached.1, held⟩, equal⟩

end Remembers

end Rules

theorem Rules.Remembers.actsAsSet [Table T K] [Ruled T K] {rules : Rules K} {slots : Slots K}
    {inserts : List (K × Nat)} {table : T} (remembers : Remembers rules inserts slots)
    (lawful : rules.Lawful) (shows : Ruled.Shows rules slots table) :
    ActsAsSet rules.capacity rules.matching (rules.refusal.answer rules.capacity) inserts
      table where
  contains := by
    intro key
    rw [Ruled.replies_contains shows]
    exact remembers.contains_eq lawful key
  indexOf := by
    intro key
    rw [Ruled.replies_indexOf shows]
    exact remembers.indexOf_eq lawful key
  distinct := by
    intro a memberA b memberB
    exact remembers.slot_eq_iff lawful memberA memberB
  listing := by
    refine ⟨rules.entries slots, (Ruled.replies_entries shows).mpr rfl, ?_,
      remembers.listsClasses lawful, ?_⟩
    · rw [Ruled.replies_size shows, length_entries]
    · intro key
      have refused := Ruled.replies_insert_refused_iff shows key
      rw [length_entries, ← remembers.indexOf_eq_none_iff lawful,
        ← landing_eq_exhausted_iff_full]
      refine ⟨refused, fun accepts => ?_⟩
      rw [refused] at accepts
      exact Ruled.replies_insert_accepted shows accepts

/-- Under a lawful hash and match rule a table from which nothing was erased replies to every call
as the set of the inserted keys does, whatever the calls before were and however many. A key keeps
the slot of the first insert that was equal to it, and an insert is refused when the slots are as
many as the classes stored and its own class is not among them, and at no other time. -/
theorem set_refinement {hash : K → UInt64} {matching : K → K → Bool}
    (lawful : Lawful hash matching) :
    (∀ capacity, 0 < capacity →
      (∃ fresh, Trace (DynamicTable.create capacity hash matching) [] fresh) ∧
      ∀ (history : History K) (table : DynamicTable K),
        Trace (DynamicTable.create capacity hash matching) history table → Unerased history →
        ActsAsSet capacity matching (.ok (.rejected (.full capacity))) (accepted history) table) ∧
    (∀ (n : Nat) [Placeholder K] (positive : 0 < n),
      (∃ fresh : FixedTable K n, Trace (FixedTable.create positive hash matching) [] fresh) ∧
      ∀ (history : History K) (table : FixedTable K n),
        Trace (FixedTable.create positive hash matching) history table → Unerased history →
        ActsAsSet n matching (.error (.slotsExhausted n)) (accepted history) table) := by
  refine ⟨fun capacity positive => ⟨?_, ?_⟩, fun n _ positive => ⟨?_, ?_⟩⟩
  · exact ⟨_, .created (DynamicTable.create_result positive hash matching .off)⟩
  · intro history table trace unerased
    obtain ⟨positive, slots, run, shows⟩ := DynamicTable.trace_run trace
    have lawfulRules := Rules.ofHash_lawful lawful positive .reported
    exact (run.remembers lawfulRules unerased).actsAsSet lawfulRules shows
  · exact ⟨_, .created (FixedTable.create_result positive hash matching .off)⟩
  · intro history table trace unerased
    obtain ⟨slots, run, shows⟩ := FixedTable.trace_run trace
    have lawfulRules := Rules.ofHash_lawful lawful positive .fatal
    exact (run.remembers lawfulRules unerased).actsAsSet lawfulRules shows

/-- After a clear, a table of four slots fills with four classes, two keys being equal. -/
theorem set_refinement_shared_home :
    ∃ table : DynamicTable Nat,
      Trace (DynamicTable.create 4 (fun key => UInt64.ofNat (key % 100))
          fun a b => a % 100 == b % 100)
        [(.insert 10, .slot (some 3)), (.insert 30, .slot (some 0)), (.clear, .done),
          (.insert 50, .slot (some 3)), (.insert 30, .slot (some 0)),
          (.insert 130, .slot (some 0)), (.insert 70, .slot (some 1)),
          (.insert 20, .slot (some 2)), (.insert 40, .rejected (.full 4))] table ∧
      ActsAsSet 4 (fun a b : Nat => a % 100 == b % 100) (.ok (.rejected (.full 4)))
        [(50, 3), (30, 0), (130, 0), (70, 1), (20, 2)] table := by
  have created : Trace (DynamicTable.create 4 (fun key : Nat => UInt64.ofNat (key % 100))
      fun a b => a % 100 == b % 100) [] _ :=
    .created (DynamicTable.create_result (by decide) _ _ .off)
  have trace := created
    |>.step .direct (.insert 10) .off rfl |>.step .direct (.insert 30) .off rfl
    |>.step .throughIndex .clear .off rfl |>.step .direct (.insert 50) .off rfl
    |>.step .direct (.insert 30) .off rfl |>.step .direct (.insert 130) .off rfl
    |>.step .direct (.insert 70) .off rfl |>.step .direct (.insert 20) .off rfl
    |>.step .direct (.insert 40) .off rfl
  have refines := (set_refinement (.of_part (· % 100) UInt64.ofNat)).1 4 (by decide)
  exact ⟨_, trace, refines.2 _ _ trace (by decide)⟩

end SlotTable

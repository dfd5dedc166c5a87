import SlotTable.Proofs.Table.Rebuild

/-!
# Moving the stored keys to a new table

Whatever a run has left in a table, hidden keys and second copies included, a rebuild inserts all of
it, in slot order, and what the new table then holds depends on the classes of these keys alone. If
there are no more classes than slots, each is stored once and found again. If there are more, the
first ones fill the table, and a key is refused if and only if its class is not among them.
-/
namespace SlotTable

variable {K : Type}

/-- Each class of the keys is stored once, and an insert was answered with the slot where its key is
found at the end. -/
structure MovesAll (matching : K → K → Bool) (keys : List K) (answer : K → Except InsertError Nat)
    (rebuilt : DynamicTable K) (relisted : List (Nat × K)) : Prop where
  size_eq : Replies rebuilt .size (.ok (.number (classes matching keys).length))
  stored : (relisted.map Prod.snd).Perm (classes matching keys)
  accepted : ∀ key ∈ keys, ∃ index, answer key = .ok index ∧
    Replies rebuilt (.indexOf key) (.ok (.slot (some index)))
  visible : ∀ key ∈ keys, Replies rebuilt (.contains key) (.ok (.flag true))
  once : ∀ key ∈ keys, ∃! entry, entry ∈ relisted ∧ matching entry.2 key = true

/-- As many classes of the keys as there are slots are stored, the first ones. Their keys were
accepted, all others refused. -/
structure MovesFirst (capacity : Nat) (matching : K → K → Bool) (keys : List K)
    (answer : K → Except InsertError Nat) (rebuilt : DynamicTable K)
    (relisted : List (Nat × K)) : Prop where
  full : Replies rebuilt .isFull (.ok (.flag true))
  size_eq : Replies rebuilt .size (.ok (.number capacity))
  stored : (relisted.map Prod.snd).Perm ((classes matching keys).take capacity)
  accepted : ∀ key ∈ keys,
    (∃ first ∈ (classes matching keys).take capacity, matching first key = true) →
    ∃ index, answer key = .ok index ∧ Replies rebuilt (.indexOf key) (.ok (.slot (some index)))
  refused : ∀ key ∈ keys,
    (∀ first ∈ (classes matching keys).take capacity, matching first key = false) →
    answer key = .error (.full capacity) ∧ Replies rebuilt (.indexOf key) (.ok (.slot none))

namespace Rules.Gathered

variable {rules : Rules K} {slots : Slots K} {keys : List K} {rebuilt : DynamicTable K}
  (gathered : Gathered rules keys slots) (lawful : rules.Lawful)
  (shows : Ruled.Shows rules slots rebuilt)
include gathered lawful shows

theorem accepted {key first : K}
    (member : first ∈ (classes rules.matching keys).take rules.capacity)
    (equal : rules.matching first key = true) :
    ∃ index, rules.verdict slots key = .ok index ∧
      Replies rebuilt (.indexOf key) (.ok (.slot (some index))) := by
  obtain ⟨index, found⟩ := gathered.indexOf_found lawful member equal
  exact ⟨index, verdict_found found, (Ruled.replies_indexOf shows).mpr found⟩

theorem movesAll (fits : (classes rules.matching keys).length ≤ rules.capacity) :
    MovesAll rules.matching keys (rules.verdict slots) rebuilt (rules.entries slots) := by
  have whole := List.take_of_length_le fits
  have classOf : ∀ key ∈ keys, ∃ first ∈ (classes rules.matching keys).take rules.capacity,
      rules.matching first key = true := by
    intro key member
    rw [whole]
    exact lawful.exists_class member
  constructor
  · rw [Ruled.replies_size shows, gathered.size_eq, Nat.min_eq_right fits]
  · rw [← whole]
    exact gathered.perm
  · intro key member
    obtain ⟨first, kept, equal⟩ := classOf key member
    exact gathered.accepted lawful shows kept equal
  · intro key member
    obtain ⟨first, kept, equal⟩ := classOf key member
    obtain ⟨index, found⟩ := gathered.indexOf_found lawful kept equal
    rw [Ruled.replies_contains shows, contains_eq_isSome, found]
    rfl
  · intro key member
    obtain ⟨first, kept, equal⟩ := classOf key member
    obtain ⟨index, held⟩ := gathered.mem_take_iff.mp kept
    have inside := (landing_eq_occupied_iff.mp (gathered.found index first held)).1.1
    have listed : (index, first) ∈ rules.entries slots := mem_entries.mpr ⟨inside, held⟩
    refine ⟨(index, first), ⟨listed, equal⟩, ?_⟩
    rintro other ⟨memberOther, equalOther⟩
    have matched := lawful.matching_of_common equalOther equal
    exact gathered.entry_unique lawful memberOther listed matched

theorem movesFirst (overflows : rules.capacity < (classes rules.matching keys).length) :
    MovesFirst rules.capacity rules.matching keys (rules.verdict slots) rebuilt
      (rules.entries slots) := by
  have size : rules.size slots = rules.capacity := by
    rw [gathered.size_eq, Nat.min_eq_left (Nat.le_of_lt overflows)]
  constructor
  · rw [Ruled.replies_isFull shows, size]
    exact beq_self_eq_true _
  · rw [Ruled.replies_size shows, size]
  · exact gathered.perm
  · rintro key - ⟨first, kept, equal⟩
    exact gathered.accepted lawful shows kept equal
  · rintro key - other
    have missed := gathered.indexOf_missed other
    exact ⟨verdict_missed missed, (Ruled.replies_indexOf shows).mpr missed⟩

end Rules.Gathered

/-- Under a lawful hash and match rule, after every run, a rebuild inserts the keys that the table
lists, in slot order, into a new table of any capacity. Matching keys are answered alike. If the new
table has a slot for each of their classes then all inserts succeed, and at the end every class is
stored once, where the inserts of its keys were answered. Otherwise the new table is full, of the
first classes in slot order; the keys of these succeed all the same, and those of any other class
are refused. -/
theorem rebuild_stores_classes {hash : K → UInt64} {matching : K → K → Bool}
    (lawful : Lawful hash matching) {capacity : Nat} {history : History K} {table : DynamicTable K}
    (trace : Trace (DynamicTable.create capacity hash matching) history table) {n : Nat}
    (positive : 0 < n) (limit : Threshold) :
    ∃ listed answer rebuilt relisted, Replies table .entries (.ok (.entries listed)) ∧
      (table.rebuild n).result limit =
        .ok (listed.map fun entry => (entry.1, answer entry.2), rebuilt) ∧
      Inserted (DynamicTable.create n hash matching) (listed.map Prod.snd) rebuilt ∧
      Replies rebuilt .entries (.ok (.entries relisted)) ∧
      (∀ a b, matching a b = true → answer a = answer b) ∧
      ((classes matching (listed.map Prod.snd)).length ≤ n →
        MovesAll matching (listed.map Prod.snd) answer rebuilt relisted) ∧
      (n < (classes matching (listed.map Prod.snd)).length →
        MovesFirst n matching (listed.map Prod.snd) answer rebuilt relisted) := by
  obtain ⟨_, slots, -, shows⟩ := DynamicTable.trace_run trace
  obtain ⟨rfl, rfl⟩ := DynamicTable.trace_keeps trace
  obtain ⟨listed, lists, replied⟩ : ∃ listed, table.entries = .ok listed ∧
      Replies table .entries (.ok (.entries listed)) :=
    ⟨_, shows.1.entries, (Ruled.replies_entries shows).mpr rfl⟩
  have created := DynamicTable.create_result positive table.core.hash table.core.matching limit
  have lawfulRules := Rules.ofHash_lawful lawful positive .reported
  obtain ⟨rebuilt, moved, inserted, shown⟩ := DynamicTable.rebuild_result lawfulRules lists created
    (DynamicTable.create_shows positive created)
  have gathered := Rules.gathered_storeAll lawfulRules (listed.map Prod.snd)
  exact ⟨listed, _, rebuilt, _, replied, moved, inserted, (Ruled.replies_entries shown).mpr rfl,
    fun _ _ => lawfulRules.verdict_congr _, gathered.movesAll lawfulRules shown,
    gathered.movesFirst lawfulRules shown⟩

/-- Keys match that end in the same digit. The source holds two copies of one class, 2 and 12, and
behind a hole the key 7. A new table of one slot takes the first class only, one of two slots takes
both. -/
theorem rebuild_of_damaged_table :
    ∃ (table : DynamicTable Nat) (answer : Nat → Except InsertError Nat)
      (rebuilt : DynamicTable Nat) (relisted : List (Nat × Nat)),
      Trace (DynamicTable.create 4 (fun key => UInt64.ofNat (key % 10)) fun a b => a % 10 == b % 10)
        [(.insert 6, .slot (some 3)), (.insert 2, .slot (some 0)), (.insert 3, .slot (some 1)),
          (.insert 7, .slot (some 2)), (.erase 6, .slot (some 3)), (.insert 12, .slot (some 3)),
          (.erase 3, .slot (some 1)), (.contains 7, .flag false),
          (.entries, .entries [(0, 2), (2, 7), (3, 12)])] table ∧
      Prod.fst <$> (table.rebuild 2).result .off = .ok [(0, .ok 1), (2, .ok 0), (3, .ok 1)] ∧
      Prod.fst <$> (table.rebuild 1).result .off =
        .ok [(0, .ok 0), (2, .error (.full 1)), (3, .ok 0)] ∧
      (table.rebuild 1).result .off =
        .ok ([(0, answer 2), (2, answer 7), (3, answer 12)], rebuilt) ∧
      MovesFirst 1 (fun a b => a % 10 == b % 10) [2, 7, 12] answer rebuilt relisted := by
  have created : Trace (DynamicTable.create 4 (fun key : Nat => UInt64.ofNat (key % 10))
      fun a b => a % 10 == b % 10) [] _ :=
    .created (DynamicTable.create_result (by decide) _ _ .off)
  have trace := created
    |>.step .direct (.insert 6) .off rfl |>.step .direct (.insert 2) .off rfl
    |>.step .direct (.insert 3) .off rfl |>.step .direct (.insert 7) .off rfl
    |>.step .throughIndex (.erase 6) .off rfl |>.step .direct (.insert 12) .off rfl
    |>.step .direct (.erase 3) .off rfl |>.step .direct (.contains 7) .off rfl
    |>.step .direct .entries .off rfl
  obtain ⟨listed, answer, rebuilt, relisted, lists, moved, -, -, -, -, first⟩ :=
    rebuild_stores_classes (.of_part (· % 10) UInt64.ofNat) trace Nat.one_pos .off
  have same : (.ok (.entries [(0, 2), (2, 7), (3, 12)]) : Except Fault (Answer Nat)) =
      .ok (.entries listed) := lists .direct .off
  cases same
  exact ⟨_, answer, rebuilt, relisted, trace, rfl, rfl, moved, first (by decide)⟩

end SlotTable

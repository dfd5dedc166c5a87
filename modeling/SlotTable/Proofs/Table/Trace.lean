import Mathlib.Data.List.Induction
import SlotTable.Proofs.Rules.Gather
import SlotTable.Proofs.Table.Kinds
import SlotTable.Table.Session

/-!
# Traces: what can happen to a table after its constructor

A trace is a list of calls with their answers, made one after the other on a table as its
constructor left it, by either route and under any threshold each. Every played run is a trace
(`Trace.play`). Every trace of a ruled table is a run under its rules (`Trace.run`), which the three
constructors begin with empty slots or with those of the given storage.
-/
namespace SlotTable

variable {T K : Type}

inductive Trace [Table T K] (create : Logged T) : History K → T → Prop where
  | created {table : T} {limit : Threshold} (made : create.result limit = .ok table) :
      Trace create [] table
  | step {history : History K} {table after : T} {answer : Answer K}
      (before : Trace create history table) (route : Route) (op : Op K) (limit : Threshold)
      (performed : (op.perform route table).result limit = .ok (answer, after)) :
      Trace create (history ++ [(op, answer)]) after

/-- The table after inserting the keys one after the other, whatever the inserts were answered. -/
def Inserted [Table T K] (create : Logged T) (keys : List K) (table : T) : Prop :=
  ∃ history : History K, history.map Prod.fst = keys.map Op.insert ∧ Trace create history table

/-- What a table replies to a call, by either route and under every threshold. -/
def Replies [Table T K] (table : T) (op : Op K) (reply : Except Fault (Answer K)) : Prop :=
  ∀ (route : Route) (limit : Threshold),
    Prod.fst <$> (op.perform route table).result limit = reply

theorem Inserted.snoc [Table T K] {create : Logged T} {keys : List K} {table after : T} {key : K}
    {answer : Answer K} {limit : Threshold} (before : Inserted create keys table)
    (performed : ((Op.insert key).perform .direct table).result limit = .ok (answer, after)) :
    Inserted create (keys ++ [key]) after := by
  obtain ⟨history, inserts, trace⟩ := before
  refine ⟨history ++ [(.insert key, answer)], ?_, trace.step .direct (.insert key) limit performed⟩
  rw [List.map_append, List.map_append, inserts]
  rfl

/-- The table after a run, which is the first one if the run made no call. -/
def Run.last {A : Type} (run : Run T A) (first : T) : T :=
  run.steps.foldl (fun _ step => step.after) first

/-- The calls that a run answered, with its answers, follow the trace of the table it began with. -/
theorem Trace.play [Table T K] {create : Logged T} {history : History K} {table : T}
    (trace : Trace create history table) (limit : Threshold) (calls : List (Route × Op K)) :
    Trace create
      (history ++ (calls.map Prod.snd).zip
        ((SlotTable.play limit table (calls.map fun call => call.2.perform call.1)).steps.map
          Step.answer))
      ((SlotTable.play limit table (calls.map fun call => call.2.perform call.1)).last table) := by
  induction calls generalizing history table with
  | nil => simpa [SlotTable.play, Run.last] using trace
  | cons call rest ih =>
    obtain ⟨route, op⟩ := call
    rcases performed : (op.perform route table).run limit with ⟨events, fault | ⟨answer, after⟩⟩
    · simpa [SlotTable.play, performed, Run.last] using trace
    · have next := ih (trace.step route op limit (congrArg Outcome.result performed))
      simpa [SlotTable.play, performed, Run.last] using next

section Ruled

variable [Table T K] [Ruled T K] {rules : Rules K} {start slots : Slots K} {create : Logged T}
  {history : History K} {table : T}

theorem Ruled.replies_iff (shows : Ruled.Shows rules slots table) {op : Op K}
    {reply : Except Fault (Answer K)} :
    Replies table op reply ↔ Prod.fst <$> rules.perform slots op = reply := by
  have same : ∀ route limit, Prod.fst <$> (op.perform route table).result limit =
      Prod.fst <$> rules.perform slots op := by
    intro route limit
    cases performed : rules.perform slots op with
    | error fault =>
      rw [Ruled.perform_error shows performed]
      rfl
    | ok pair =>
      obtain ⟨later, answered, -⟩ := Ruled.perform_ok shows performed route limit
      rw [answered]
      rfl
  constructor
  · intro replies
    rw [← same .direct .off]
    exact replies .direct .off
  · intro replies route limit
    rw [same, replies]

theorem Ruled.replies_slotFor (shows : Ruled.Shows rules slots table) {key : K}
    {found : Option Nat} :
    Replies table (.slotFor key) (.ok (.slot found)) ↔
      (rules.landing slots key).slot? = found := by
  rw [Ruled.replies_iff shows]
  simp [Rules.perform, Functor.map, Except.map]

theorem Ruled.replies_indexOf (shows : Ruled.Shows rules slots table) {key : K}
    {found : Option Nat} :
    Replies table (.indexOf key) (.ok (.slot found)) ↔ rules.indexOf slots key = found := by
  rw [Ruled.replies_iff shows]
  simp [Rules.perform, Functor.map, Except.map]

theorem Ruled.replies_contains (shows : Ruled.Shows rules slots table) {key : K} {found : Bool} :
    Replies table (.contains key) (.ok (.flag found)) ↔ rules.contains slots key = found := by
  rw [Ruled.replies_iff shows]
  simp [Rules.perform, Functor.map, Except.map]

theorem Ruled.replies_count (shows : Ruled.Shows rules slots table) {key : K} {number : Nat} :
    Replies table (.count key) (.ok (.number number)) ↔
      (rules.contains slots key).toNat = number := by
  rw [Ruled.replies_iff shows]
  simp [Rules.perform, Functor.map, Except.map]

theorem Ruled.replies_erase (shows : Ruled.Shows rules slots table) {key : K}
    {found : Option Nat} :
    Replies table (.erase key) (.ok (.slot found)) ↔ rules.indexOf slots key = found := by
  rw [Ruled.replies_iff shows]
  cases landed : rules.landing slots key <;>
    simp [Rules.perform, Rules.indexOf, landed, Functor.map, Except.map]

/-- An insert is answered with a slot when the walk finds one, and with this one. -/
theorem Ruled.replies_insert_slot_iff (shows : Ruled.Shows rules slots table) {key : K}
    {index : Nat} :
    Replies table (.insert key) (.ok (.slot (some index))) ↔
      (rules.landing slots key).slot? = some index := by
  rw [Ruled.replies_iff shows]
  cases landed : rules.landing slots key <;> cases refusal : rules.refusal <;>
    simp [Rules.perform, landed, refusal, Refusal.answer, Landing.slot?, Functor.map, Except.map]

theorem Ruled.replies_insert_accepted (shows : Ruled.Shows rules slots table) {key : K}
    (room : rules.landing slots key ≠ .exhausted) :
    ∃ index, Replies table (.insert key) (.ok (.slot (some index))) := by
  obtain ⟨index, landed⟩ := Option.ne_none_iff_exists'.mp (mt Landing.slot?_eq_none_iff.mp room)
  exact ⟨index, (Ruled.replies_insert_slot_iff shows).mpr landed⟩

/-- An insert is refused when the walk finds no slot, and at no other time. -/
theorem Ruled.replies_insert_refused_iff (shows : Ruled.Shows rules slots table) (key : K) :
    Replies table (.insert key) (rules.refusal.answer rules.capacity) ↔
      rules.landing slots key = .exhausted := by
  rw [Ruled.replies_iff shows]
  cases landed : rules.landing slots key <;> cases refusal : rules.refusal <;>
    simp [Rules.perform, landed, refusal, Refusal.answer, Functor.map, Except.map]

theorem Ruled.replies_size (shows : Ruled.Shows rules slots table) {size : Nat} :
    Replies table .size (.ok (.number size)) ↔ rules.size slots = size := by
  rw [Ruled.replies_iff shows]
  simp [Rules.perform, Functor.map, Except.map]

theorem Ruled.replies_isFull (shows : Ruled.Shows rules slots table) {full : Bool} :
    Replies table .isFull (.ok (.flag full)) ↔ (rules.size slots == rules.capacity) = full := by
  rw [Ruled.replies_iff shows]
  simp [Rules.perform, Functor.map, Except.map]

theorem Ruled.replies_capacity (shows : Ruled.Shows rules slots table) :
    Replies table .capacity (.ok (.number rules.capacity)) :=
  (Ruled.replies_iff shows).mpr rfl

theorem Ruled.replies_entries (shows : Ruled.Shows rules slots table)
    {listed : List (Nat × K)} :
    Replies table .entries (.ok (.entries listed)) ↔ rules.entries slots = listed := by
  rw [Ruled.replies_iff shows]
  simp [Rules.perform, Functor.map, Except.map]

/-- A trace is a run under the rules of its constructor. -/
theorem Trace.run (trace : Trace create history table)
    (starts : ∀ limit table, create.result limit = .ok table → Ruled.Shows rules start table) :
    ∃ slots, rules.Run start history slots ∧ Ruled.Shows rules slots table := by
  induction trace with
  | created made => exact ⟨start, .start, starts _ _ made⟩
  | @step history table after answer before route op limit performed ih =>
    obtain ⟨slots, run, shows⟩ := ih
    obtain ⟨left, ruled, shown, -⟩ := Ruled.perform_of_ok shows performed
    exact ⟨left, .step run ruled, shown⟩

/-- The calls on a table at hand are a run from its slots. -/
theorem Trace.run_later {later : History K} {after : T} (shows : Ruled.Shows rules slots table)
    (trace : Trace (pure table) later after) :
    ∃ left, rules.Run slots later left ∧ Ruled.Shows rules left after := by
  refine trace.run fun limit fresh made => ?_
  cases made
  exact shows

/-- The table after inserts has the slots that storing the keys leaves. -/
theorem Inserted.shows {keys : List K} (inserted : Inserted create keys table)
    (starts : ∀ limit table, create.result limit = .ok table → Ruled.Shows rules start table) :
    Ruled.Shows rules (rules.storeAll start keys) table := by
  obtain ⟨history, inserts, trace⟩ := inserted
  obtain ⟨slots, run, shows⟩ := trace.run starts
  rw [← run.eq_storeAll inserts]
  exact shows

/-- Any calls can be made on a new table that answers every call. -/
theorem Trace.exists_of_ops {limit : Threshold} {fresh : T} (mild : rules.refusal ≠ .fatal)
    (made : create.result limit = .ok fresh)
    (starts : ∀ limit table, create.result limit = .ok table → Ruled.Shows rules start table)
    (ops : List (Op K)) :
    ∃ history table, history.map Prod.fst = ops ∧ Trace create history table := by
  induction ops using List.reverseRecOn with
  | nil => exact ⟨[], fresh, rfl, .created made⟩
  | append_singleton ops op ih =>
    obtain ⟨history, table, rfl, trace⟩ := ih
    obtain ⟨slots, -, shows⟩ := trace.run starts
    obtain ⟨answer, after, performed⟩ := Rules.perform_answered mild slots op
    obtain ⟨later, answered, -⟩ := Ruled.perform_ok shows performed .direct limit
    exact ⟨history ++ [(op, answer)], later, by simp, trace.step .direct op limit answered⟩

end Ruled

section Constructors

variable {hash : K → UInt64} {matching : K → K → Bool} {history : History K} {capacity : Nat}

theorem Trace.exists_made [Table T K] {create : Logged T} {table : T}
    (trace : Trace create history table) : ∃ limit fresh, create.result limit = .ok fresh := by
  induction trace with
  | created made => exact ⟨_, _, made⟩
  | step before route op limit performed ih => exact ih

theorem LinearTable.create_result {S : Type} [Storage S K] {given : S}
    (positive : 0 < Storage.capacity given) (hash : K → UInt64) (matching : K → K → Bool)
    (limit : Threshold) :
    (LinearTable.create given hash matching).result limit = .ok ⟨given, hash, matching⟩ := by
  rw [LinearTable.create, if_neg (Nat.ne_of_gt positive), Logged.result_pure]

theorem LinearTable.create_positive {S : Type} [Storage S K] {given : S} {limit : Threshold}
    {table : LinearTable K S}
    (made : (LinearTable.create given hash matching).result limit = .ok table) :
    0 < Storage.capacity given := by
  refine Nat.pos_of_ne_zero fun none => ?_
  rw [LinearTable.create, if_pos none, Logged.result_fail] at made
  cases made

theorem LinearTable.create_shows {S : Type} [Storage S K] [LawfulStorage S K] {given : S}
    {limit : Threshold} {table : LinearTable K S} (positive : 0 < Storage.capacity given)
    (made : (LinearTable.create given hash matching).result limit = .ok table) :
    Ruled.Shows (Rules.ofHash positive hash matching .silent) (slotOf given) table := by
  rw [LinearTable.create_result positive] at made
  cases made
  exact ⟨⟨rfl, rfl, fun _ => rfl, rfl⟩, rfl⟩

theorem LinearTable.trace_run {S : Type} [Storage S K] [LawfulStorage S K] {given : S}
    {table : LinearTable K S}
    (trace : Trace (LinearTable.create given hash matching) history table) :
    ∃ (positive : 0 < Storage.capacity given) (slots : Slots K),
      (Rules.ofHash positive hash matching .silent).Run (slotOf given) history slots ∧
        Ruled.Shows (Rules.ofHash positive hash matching .silent) slots table := by
  obtain ⟨limit, fresh, made⟩ := trace.exists_made
  have positive := create_positive made
  exact ⟨positive, trace.run fun limit fresh made => create_shows positive made⟩

theorem DynamicTable.create_result (positive : 0 < capacity) (hash : K → UInt64)
    (matching : K → K → Bool) (limit : Threshold) :
    (DynamicTable.create capacity hash matching).result limit =
      .ok ⟨⟨OptionalSlots.empty capacity, hash, matching⟩⟩ := by
  have core := LinearTable.create_result
    (OptionalSlots.capacity_empty (K := K) capacity ▸ positive) hash matching limit
  simp only [DynamicTable.create, if_neg (Nat.ne_of_gt positive), Logged.result_bind,
    Logged.result_emit, core, ok_bind, Logged.result_pure]

theorem DynamicTable.create_positive {limit : Threshold} {table : DynamicTable K}
    (made : (DynamicTable.create capacity hash matching).result limit = .ok table) :
    0 < capacity := by
  refine Nat.pos_of_ne_zero fun none => ?_
  rw [DynamicTable.create, if_pos none, Logged.result_fail] at made
  cases made

theorem DynamicTable.create_shows {limit : Threshold} {table : DynamicTable K}
    (positive : 0 < capacity)
    (made : (DynamicTable.create capacity hash matching).result limit = .ok table) :
    Ruled.Shows (Rules.ofHash positive hash matching .reported) (fun _ => none) table := by
  rw [DynamicTable.create_result positive] at made
  cases made
  exact ⟨⟨OptionalSlots.capacity_empty capacity, OptionalSlots.slotOf_empty capacity,
    fun _ => rfl, rfl⟩, rfl⟩

theorem DynamicTable.trace_run {table : DynamicTable K}
    (trace : Trace (DynamicTable.create capacity hash matching) history table) :
    ∃ (positive : 0 < capacity) (slots : Slots K),
      (Rules.ofHash positive hash matching .reported).Run (fun _ => none) history slots ∧
        Ruled.Shows (Rules.ofHash positive hash matching .reported) slots table := by
  obtain ⟨limit, fresh, made⟩ := trace.exists_made
  have positive := create_positive made
  exact ⟨positive, trace.run fun limit fresh made => create_shows positive made⟩

theorem FixedTable.create_result {n : Nat} [Placeholder K] (positive : 0 < n)
    (hash : K → UInt64) (matching : K → K → Bool) (limit : Threshold) :
    (FixedTable.create positive hash matching).result limit =
      .ok (⟨⟨FlaggedSlots.empty, hash, matching⟩⟩ : FixedTable K n) := by
  have core : (LinearTable.create (FlaggedSlots.empty : FlaggedSlots K n) hash matching).result
      limit = .ok ⟨FlaggedSlots.empty, hash, matching⟩ :=
    LinearTable.create_result positive hash matching limit
  simp only [FixedTable.create, Logged.result_bind, core, ok_bind, Logged.result_pure]

theorem FixedTable.create_shows {n : Nat} [Placeholder K] {limit : Threshold}
    {table : FixedTable K n} (positive : 0 < n)
    (made : (FixedTable.create positive hash matching).result limit = .ok table) :
    Ruled.Shows (Rules.ofHash positive hash matching .fatal) (fun _ => none) table := by
  rw [FixedTable.create_result positive] at made
  cases made
  exact ⟨⟨rfl, FlaggedSlots.slotOf_empty, fun _ => rfl, rfl⟩, rfl⟩

theorem FixedTable.trace_run {n : Nat} [Placeholder K] {positive : 0 < n}
    {table : FixedTable K n}
    (trace : Trace (FixedTable.create positive hash matching) history table) :
    ∃ slots : Slots K,
      (Rules.ofHash positive hash matching .fatal).Run (fun _ => none) history slots ∧
        Ruled.Shows (Rules.ofHash positive hash matching .fatal) slots table :=
  trace.run fun _ _ made => create_shows positive made

end Constructors

end SlotTable

import SlotTable.Proofs.Storage.Tidy
import SlotTable.Proofs.Table.Trace
import SlotTable.Proofs.Table.Wraps

/-!
# What calls do to the core of a table

A call may write to the storage of the core or clear it, and does nothing else to it. So what
writing and clearing keep is kept by every call (`Kept.call`) and holds after every trace
(`Kept.trace`), while the hash and the match rule stay as they were (`Trace.keeps`). Which slot an
insert has filled or an erase emptied can be told from its answer (`Wraps.insert_stored`,
`Ruled.erase_found`). A table with a tidy storage is pinned: there is no more to it than its rules,
its hash and the keys in its slots (`Pinned.unique`). So a call that takes the slots back takes the
table back (`Pinned.restore`).
-/
namespace SlotTable

open Function (update)

variable {T K S : Type}

namespace Kept

variable [Storage S K] {P : S → Prop}

section Linear

variable {table after : LinearTable K S} {key : K} {limit : Threshold} {slot : Option Nat}

theorem insert (kept : Kept P) (start : P table.slots)
    (inserted : (table.insert key).result limit = .ok (slot, after)) : P after.slots := by
  rw [LinearTable.insert, Logged.result_bind_eq_ok] at inserted
  obtain ⟨landing, -, inserted⟩ := inserted
  cases landing with
  | vacant index =>
    simp only [Logged.result_bind_eq_ok, Logged.result_lift] at inserted
    obtain ⟨slots, written, _, -, inserted⟩ := inserted
    cases inserted
    exact kept.write start written
  | _ =>
    cases inserted
    exact start

theorem erase (kept : Kept P) (start : P table.slots)
    (erased : (table.erase key).result limit = .ok (slot, after)) : P after.slots := by
  rw [LinearTable.erase, Logged.result_bind_eq_ok] at erased
  obtain ⟨landing, -, erased⟩ := erased
  cases landing with
  | occupied index =>
    simp only [Logged.result_bind_eq_ok, Logged.result_lift] at erased
    obtain ⟨⟨held, slots⟩, cleared, _, -, erased⟩ := erased
    cases erased
    exact kept.clear start cleared
  | _ =>
    cases erased
    exact start

theorem clearTable (kept : Kept P) (start : P table.slots)
    (cleared : table.clear.result limit = .ok after) : P after.slots := by
  simp only [LinearTable.clear, Logged.result_bind_eq_ok, Logged.result_lift] at cleared
  obtain ⟨slots, emptied, _, -, cleared⟩ := cleared
  cases cleared
  exact kept.clearAll start emptied

end Linear

variable [LawfulStorage S K] [Table T K] [Ruled T K] [Wraps T K S]

theorem call {table after : T} {op : Op K} {answer : Answer K} {route : Route} {limit : Threshold}
    (kept : Kept P) (start : P (Wraps.core table).slots)
    (performed : (op.perform route table).result limit = .ok (answer, after)) :
    P (Wraps.core after).slots := by
  rw [Ruled.perform_eq] at performed
  cases op with
  | insert key =>
    rw [Op.performOn, Wraps.insert_eq, Logged.result_bind_eq_ok] at performed
    obtain ⟨⟨slot, later⟩, inserted, performed⟩ := performed
    have held := kept.insert start inserted
    cases slot with
    | some slot =>
      cases performed
      rw [Wraps.core_wrap]
      exact held
    | none =>
      rw [Wraps.refuse_keeps performed, Wraps.core_wrap]
      exact held
  | erase key =>
    simp only [Op.performOn, KeyIndex.interface, Wraps.erase_eq, Logged.result_bind_eq_ok]
      at performed
    obtain ⟨_, ⟨⟨_, later⟩, erased, rest⟩, performed⟩ := performed
    cases rest
    cases performed
    rw [Wraps.core_wrap]
    exact kept.erase start erased
  | clear =>
    simp only [Op.performOn, KeyIndex.interface, Wraps.clear_eq, Logged.result_bind_eq_ok]
      at performed
    obtain ⟨_, ⟨later, cleared, settled⟩, performed⟩ := performed
    rw [Wraps.settle_result] at settled
    cases settled
    cases performed
    rw [Wraps.core_wrap]
    exact kept.clearTable start cleared
  | capacity =>
    cases performed
    exact start
  | _ =>
    simp only [Op.performOn, Logged.result_bind_eq_ok] at performed
    obtain ⟨_, -, performed⟩ := performed
    cases performed
    exact start

theorem trace {create : Logged T} {history : History K} {table : T} (kept : Kept P)
    (made : ∀ limit fresh, create.result limit = .ok fresh → P (Wraps.core fresh).slots)
    (trace : Trace create history table) : P (Wraps.core table).slots := by
  induction trace with
  | created done => exact made _ _ done
  | step before route op limit performed ih => exact kept.call ih performed

end Kept

/-- An erase that found its key empties the slot in which the walk found it. -/
theorem Ruled.erase_found [Table T K] [Ruled T K] {rules : Rules K} {slots : Slots K}
    {table after : T} {key : K} {hole : Nat} {route : Route} {limit : Threshold}
    (shows : Ruled.Shows rules slots table)
    (erased : ((Op.erase key).perform route table).result limit = .ok (.slot (some hole), after)) :
    rules.landing slots key = .occupied hole ∧
      Ruled.Shows rules (update slots hole none) after := by
  obtain ⟨left, performed, shown, -⟩ := Ruled.perform_of_ok shows erased
  obtain ⟨landed, rfl⟩ := (Rules.perform_effect performed).erased_slot
  exact ⟨landed, shown⟩

section Wraps

variable [Storage S K] [LawfulStorage S K] [Table T K] [Ruled T K] [Wraps T K S]

/-- No call changes the hash or the match rule that the constructor was given. -/
theorem Trace.keeps {create : Logged T} {history : History K} {table : T}
    {hash : K → UInt64} {matching : K → K → Bool} (trace : Trace create history table)
    (made : ∀ limit fresh, create.result limit = .ok fresh →
      (Wraps.core fresh).hash = hash ∧ (Wraps.core fresh).matching = matching) :
    (Wraps.core table).hash = hash ∧ (Wraps.core table).matching = matching := by
  induction trace with
  | created done => exact made _ _ done
  | step before route op limit performed ih =>
    obtain ⟨slots, kept⟩ := Wraps.perform_keeps performed
    rw [kept]
    exact ih

/-- Where the walk for a key ends on a table. -/
def Locates (table : T) (key : K) (landing : Landing) : Prop :=
  ∀ limit, ((Wraps.core table).locate key).result limit = .ok landing

theorem Wraps.locates_iff {rules : Rules K} {slots : Slots K} {table : T}
    (shows : Ruled.Shows rules slots table) {key : K} {landing : Landing} :
    Locates table key landing ↔ rules.landing slots key = landing := by
  have located : ∀ limit, ((core table).locate key).result limit =
      .ok (rules.landing slots key) := fun _ => (shows_core shows).locate key
  constructor
  · intro locates
    exact Except.ok.inj ((located .off).symm.trans (locates .off))
  · intro landed limit
    rw [located limit, landed]

theorem Wraps.keyAt_core {rules : Rules K} {slots : Slots K} {table : T}
    (shows : Ruled.Shows rules slots table) {slot : Nat} (inside : slot < rules.capacity) :
    Storage.keyAt (Wraps.core table).slots slot = .ok (slots slot) := by
  have shown := Wraps.shows_core shows
  rw [← shown.capacity_eq] at inside
  rw [keyAt_eq_slotOf inside, shown.slotOf_eq]

/-- An insert that was answered with an empty slot has put its key there. -/
theorem Wraps.insert_stored {rules : Rules K} {slots : Slots K} {table after : T} {key : K}
    {filled : Nat} {route : Route} {limit : Threshold} (shows : Ruled.Shows rules slots table)
    (inserted : ((Op.insert key).perform route table).result limit =
      .ok (.slot (some filled), after))
    (empty : Storage.keyAt (Wraps.core table).slots filled = .ok none) :
    rules.landing slots key = .vacant filled ∧
      Ruled.Shows rules (update slots filled (some key)) after := by
  obtain ⟨left, performed, shown, -⟩ := Ruled.perform_of_ok shows inserted
  have effect := Rules.perform_effect performed
  rw [Wraps.keyAt_core shows effect.index_lt, Except.ok.injEq] at empty
  obtain ⟨landed, rfl⟩ := effect.stored_of_empty empty
  exact ⟨landed, shown⟩

theorem Wraps.clear_result {table : T} {slots : S}
    (emptied : Storage.clearAll (Wraps.core table).slots = .ok slots) (route : Route)
    (limit : Threshold) :
    (Op.clear.perform route table).result limit =
      .ok (.done, Wraps.wrap ⟨slots, (Wraps.core table).hash, (Wraps.core table).matching⟩) := by
  rw [Ruled.perform_eq]
  simp only [Op.performOn, KeyIndex.interface, Wraps.clear_eq, LinearTable.clear,
    Logged.result_bind, Logged.result_lift, emptied, ok_bind, Logged.result_emit,
    Logged.result_pure, Wraps.settle_result]

end Wraps

/-- A table with these rules and these keys, and nothing else that a storage can hold. -/
structure Pinned [Storage S K] [LawfulStorage S K] [TidyStorage S K] [Table T K] [Ruled T K]
    [Wraps T K S] (rules : Rules K) (slots : Slots K) (table : T) : Prop where
  shows : Ruled.Shows rules slots table
  tidy : TidyStorage.Tidy (Wraps.core table).slots

namespace Pinned

variable [Storage S K] [LawfulStorage S K] [TidyStorage S K] [Table T K] [Ruled T K] [Wraps T K S]
  {rules : Rules K} {slots left : Slots K} {table after : T} {op back : Op K}
  {answer reply : Answer K} {route : Route} {limit : Threshold}

theorem step (pinned : Pinned rules slots table)
    (performed : (op.perform route table).result limit = .ok (answer, after)) :
    ∃ left, rules.perform slots op = .ok (answer, left) ∧ Pinned rules left after ∧
      (op.isClear = false → left = slots → after = table) := by
  obtain ⟨left, ruled, shown, same⟩ := Ruled.perform_of_ok pinned.shows performed
  exact ⟨left, ruled, ⟨shown, TidyStorage.kept.call pinned.tidy performed⟩, same⟩

theorem unique (injective : Function.Injective (Wraps.core : T → LinearTable K S)) {other : T}
    (pinned : Pinned rules slots table) (pinnedOther : Pinned rules slots other)
    (hash_eq : (Wraps.core table).hash = (Wraps.core other).hash) : table = other := by
  have first := Wraps.shows_core pinned.shows
  have second := Wraps.shows_core pinnedOther.shows
  have slots_eq := TidyStorage.eq_of_slotOf pinned.tidy pinnedOther.tidy
    (first.capacity_eq.trans second.capacity_eq.symm)
    (first.slotOf_eq.trans second.slotOf_eq.symm)
  have matching_eq := first.matching_eq.trans second.matching_eq.symm
  apply injective
  cases core : Wraps.core table
  cases coreOther : Wraps.core other
  simp only [core, coreOther] at slots_eq matching_eq hash_eq
  rw [slots_eq, matching_eq, hash_eq]

/-- A call that takes the slots back takes the table back, by either route. -/
theorem restore (injective : Function.Injective (Wraps.core : T → LinearTable K S))
    (pinned : Pinned rules slots table)
    (performed : (op.perform route table).result limit = .ok (answer, after))
    (shown : Ruled.Shows rules left after)
    (returns : rules.perform left back = .ok (reply, slots)) (routeBack : Route)
    (limitBack : Threshold) :
    (back.perform routeBack after).result limitBack = .ok (reply, table) := by
  obtain ⟨last, answered, shownLast, -⟩ := Ruled.perform_ok shown returns routeBack limitBack
  have tidy := TidyStorage.kept.call (TidyStorage.kept.call pinned.tidy performed) answered
  obtain ⟨_, kept⟩ := Wraps.perform_keeps performed
  obtain ⟨_, keptLast⟩ := Wraps.perform_keeps answered
  have hash_eq : (Wraps.core last).hash = (Wraps.core table).hash := by
    rw [keptLast, kept]
  rw [answered, unique injective ⟨shownLast, tidy⟩ pinned hash_eq]

end Pinned

section Kinds

variable {hash : K → UInt64} {matching : K → K → Bool} {history : History K}

theorem DynamicTable.core_injective :
    Function.Injective (Wraps.core : DynamicTable K → LinearTable K (OptionalSlots K)) := by
  rintro ⟨first⟩ ⟨second⟩ same
  exact congrArg DynamicTable.mk same

theorem FixedTable.core_injective {n : Nat} [Placeholder K] :
    Function.Injective (Wraps.core : FixedTable K n → LinearTable K (FlaggedSlots K n)) := by
  rintro ⟨first⟩ ⟨second⟩ same
  exact congrArg FixedTable.mk same

theorem DynamicTable.trace_keeps {capacity : Nat} {table : DynamicTable K}
    (trace : Trace (DynamicTable.create capacity hash matching) history table) :
    table.core.hash = hash ∧ table.core.matching = matching := by
  refine trace.keeps fun limit fresh made => ?_
  rw [DynamicTable.create_result (DynamicTable.create_positive made)] at made
  cases made
  exact ⟨rfl, rfl⟩

theorem FixedTable.trace_keeps {n : Nat} [Placeholder K] {positive : 0 < n}
    {table : FixedTable K n}
    (trace : Trace (FixedTable.create positive hash matching) history table) :
    table.core.hash = hash ∧ table.core.matching = matching := by
  refine trace.keeps fun limit fresh made => ?_
  rw [FixedTable.create_result positive] at made
  cases made
  exact ⟨rfl, rfl⟩

theorem LinearTable.trace_keeps [Storage S K] [LawfulStorage S K] {given : S}
    {table : LinearTable K S}
    (trace : Trace (LinearTable.create given hash matching) history table) :
    table.hash = hash ∧ table.matching = matching := by
  refine trace.keeps fun limit fresh made => ?_
  rw [LinearTable.create_result (LinearTable.create_positive made)] at made
  cases made
  exact ⟨rfl, rfl⟩

end Kinds

end SlotTable

import SlotTable.Proofs.Log.Replay
import SlotTable.Proofs.Table.Kinds

/-!
# Tables that wrap a linear table

Every kind of table passes its calls on to a linear table, its core. The kinds differ in what comes
of an insert for which the core has no slot and in what is said after the core is cleared; there
they add remarks to the log and nothing to the slots. What `Wraps` asks of a kind is enough to carry
facts about linear tables over to it: all calls are uniform (`perform_uniform`) and leave the hash
and the match rule alone (`perform_keeps`).
-/
namespace SlotTable

variable {T K S : Type}

class Wraps (T : Type) (K S : outParam Type) [Storage S K] [LawfulStorage S K] [Table T K]
    [Ruled T K] where
  core : T → LinearTable K S
  wrap : LinearTable K S → T
  core_wrap (inner : LinearTable K S) : core (wrap inner) = inner
  shows_core {rules : Rules K} {slots : Slots K} {table : T}
    (shows : Ruled.Shows rules slots table) : (core table).Shows rules slots
  /-- What comes of an insert for which the core has no slot. -/
  refuse : LinearTable K S → Logged (Answer K × T)
  /-- What comes after the core is cleared. -/
  settle : LinearTable K S → Logged T
  slotFor_eq (table : T) (key : K) : KeyIndex.slotFor? table key = (core table).slotFor? key
  indexOf_eq (table : T) (key : K) : KeyIndex.indexOf? table key = (core table).indexOf? key
  contains_eq (table : T) (key : K) : KeyIndex.contains table key = (core table).contains key
  erase_eq (table : T) (key : K) : KeyIndex.erase table key =
    (core table).erase key >>= fun erased => pure (erased.1, wrap erased.2)
  clear_eq (table : T) : KeyIndex.clear table = (core table).clear >>= settle
  insert_eq (table : T) (key : K) : Table.insert table key =
    (core table).insert key >>= fun inserted =>
      match inserted.1 with
      | some slot => pure (.slot (some slot), wrap inserted.2)
      | none => refuse inserted.2
  refuse_uniform (inner : LinearTable K S) : (refuse inner).Uniform
  refuse_remarks (inner : LinearTable K S) : ∀ event ∈ (refuse inner).trail, event.isRemark = true
  refuse_keeps {inner : LinearTable K S} {limit : Threshold} {answer : Answer K} {after : T}
    (refused : (refuse inner).result limit = .ok (answer, after)) : after = wrap inner
  settle_uniform (inner : LinearTable K S) : (settle inner).Uniform
  settle_remarks (inner : LinearTable K S) : ∀ event ∈ (settle inner).trail, event.isRemark = true
  settle_result (inner : LinearTable K S) (limit : Threshold) :
    (settle inner).result limit = .ok (wrap inner)

namespace LinearTable

variable [Storage S K] (table : LinearTable K S) (key : K)

theorem locate_uniform : (table.locate key).Uniform :=
  (Logged.uniform_lift _).bind fun _ => (Logged.uniform_emit _).bind fun _ => Logged.uniform_pure _

theorem insert_uniform : (table.insert key).Uniform := by
  refine (table.locate_uniform key).bind fun landing => ?_
  cases landing with
  | vacant slot =>
    exact (Logged.uniform_lift _).bind fun _ =>
      (Logged.uniform_emit _).bind fun _ => Logged.uniform_pure _
  | _ => exact Logged.uniform_pure _

theorem erase_uniform : (table.erase key).Uniform := by
  refine (table.locate_uniform key).bind fun landing => ?_
  cases landing with
  | occupied slot =>
    exact (Logged.uniform_lift _).bind fun _ =>
      (Logged.uniform_emit _).bind fun _ => Logged.uniform_pure _
  | _ => exact Logged.uniform_pure _

theorem slotFor_uniform : (table.slotFor? key).Uniform :=
  (table.locate_uniform key).bind fun _ => Logged.uniform_pure _

theorem indexOf_uniform : (table.indexOf? key).Uniform := by
  refine (table.locate_uniform key).bind fun landing => ?_
  cases landing <;> exact Logged.uniform_pure _

theorem contains_uniform : (table.contains key).Uniform :=
  (table.locate_uniform key).bind fun _ => Logged.uniform_pure _

theorem clear_uniform : table.clear.Uniform :=
  (Logged.uniform_lift _).bind fun _ => (Logged.uniform_emit _).bind fun _ => Logged.uniform_pure _

section Keeps

variable {table after : LinearTable K S} {key : K} {limit : Threshold} {slot : Option Nat}

theorem insert_keeps (inserted : (table.insert key).result limit = .ok (slot, after)) :
    ∃ slots, after = { table with slots } := by
  rw [LinearTable.insert, Logged.result_bind_eq_ok] at inserted
  obtain ⟨landing, -, inserted⟩ := inserted
  cases landing with
  | vacant index =>
    simp only [Logged.result_bind_eq_ok] at inserted
    obtain ⟨slots, -, _, -, inserted⟩ := inserted
    cases inserted
    exact ⟨slots, rfl⟩
  | occupied index =>
    cases inserted
    exact ⟨table.slots, rfl⟩
  | exhausted =>
    cases inserted
    exact ⟨table.slots, rfl⟩

theorem erase_keeps (erased : (table.erase key).result limit = .ok (slot, after)) :
    ∃ slots, after = { table with slots } := by
  rw [LinearTable.erase, Logged.result_bind_eq_ok] at erased
  obtain ⟨landing, -, erased⟩ := erased
  cases landing with
  | occupied index =>
    simp only [Logged.result_bind_eq_ok] at erased
    obtain ⟨⟨_, slots⟩, -, _, -, erased⟩ := erased
    cases erased
    exact ⟨slots, rfl⟩
  | vacant index =>
    cases erased
    exact ⟨table.slots, rfl⟩
  | exhausted =>
    cases erased
    exact ⟨table.slots, rfl⟩

theorem clear_keeps (cleared : table.clear.result limit = .ok after) :
    ∃ slots, after = { table with slots } := by
  simp only [LinearTable.clear, Logged.result_bind_eq_ok] at cleared
  obtain ⟨slots, -, _, -, cleared⟩ := cleared
  cases cleared
  exact ⟨slots, rfl⟩

end Keeps

end LinearTable

instance [Storage S K] [LawfulStorage S K] : Wraps (LinearTable K S) K S where
  core table := table
  wrap inner := inner
  core_wrap _ := rfl
  shows_core shows := shows.1
  refuse inner := pure (.slot none, inner)
  settle := pure
  slotFor_eq _ _ := rfl
  indexOf_eq _ _ := rfl
  contains_eq _ _ := rfl
  erase_eq table key := (bind_pure (table.erase key)).symm
  clear_eq table := (bind_pure table.clear).symm
  insert_eq table key := by
    refine bind_congr fun inserted => ?_
    obtain ⟨slot | slot, later⟩ := inserted <;> rfl
  refuse_uniform _ := Logged.uniform_pure _
  refuse_remarks _ _ member := absurd member List.not_mem_nil
  refuse_keeps refused := by
    cases refused
    rfl
  settle_uniform _ := Logged.uniform_pure _
  settle_remarks _ _ member := absurd member List.not_mem_nil
  settle_result _ _ := rfl

instance : Wraps (DynamicTable K) K (OptionalSlots K) where
  core := DynamicTable.core
  wrap inner := ⟨inner⟩
  core_wrap _ := rfl
  shows_core shows := shows.1
  refuse inner := do
    Logged.emit (.dynamicFull inner.capacity)
    return (.rejected (.full inner.capacity), ⟨inner⟩)
  settle inner := pure ⟨inner⟩
  slotFor_eq _ _ := rfl
  indexOf_eq _ _ := rfl
  contains_eq _ _ := rfl
  erase_eq _ _ := rfl
  clear_eq _ := rfl
  insert_eq table key := by
    refine (bind_assoc ..).trans (bind_congr fun inserted => ?_)
    obtain ⟨slot | slot, later⟩ := inserted
    · simp only [bind_assoc, pure_bind]
    · simp only [pure_bind]
  refuse_uniform _ := (Logged.uniform_emit _).bind fun _ => Logged.uniform_pure _
  refuse_remarks inner event member := by
    have emitted : event ∈ [Event.dynamicFull inner.capacity] := member
    rw [List.mem_singleton.mp emitted]
    rfl
  refuse_keeps refused := by
    cases refused
    rfl
  settle_uniform _ := Logged.uniform_pure _
  settle_remarks _ _ member := absurd member List.not_mem_nil
  settle_result _ _ := rfl

instance {n : Nat} [Placeholder K] : Wraps (FixedTable K n) K (FlaggedSlots K n) where
  core := FixedTable.core
  wrap inner := ⟨inner⟩
  core_wrap _ := rfl
  shows_core shows := shows.1
  refuse _ := do
    Logged.emit (.fixedFull n)
    Logged.fail (.slotsExhausted n)
  settle inner := do
    Logged.emit (.fixedCleared n)
    return ⟨inner⟩
  slotFor_eq _ _ := rfl
  indexOf_eq _ _ := rfl
  contains_eq _ _ := rfl
  erase_eq _ _ := rfl
  clear_eq _ := rfl
  insert_eq table key := by
    refine (bind_assoc ..).trans (bind_congr fun inserted => ?_)
    obtain ⟨slot | slot, later⟩ := inserted
    · exact bind_assoc ..
    · simp only [pure_bind]
  refuse_uniform _ := (Logged.uniform_emit _).bind fun _ => Logged.uniform_fail _
  refuse_remarks _ event member := by
    have emitted : event ∈ [Event.fixedFull n] := member
    rw [List.mem_singleton.mp emitted]
    rfl
  refuse_keeps refused := by cases refused
  settle_uniform _ := (Logged.uniform_emit _).bind fun _ => Logged.uniform_pure _
  settle_remarks _ event member := by
    have emitted : event ∈ [Event.fixedCleared n] := member
    rw [List.mem_singleton.mp emitted]
    rfl
  settle_result _ _ := rfl

namespace Wraps

variable [Storage S K] [LawfulStorage S K] [Table T K] [Ruled T K] [Wraps T K S]

include S in
theorem perform_uniform (route : Route) (op : Op K) (table : T) :
    (op.perform route table).Uniform := by
  rw [Ruled.perform_eq]
  cases op with
  | insert key =>
    rw [Op.performOn, insert_eq]
    refine ((core table).insert_uniform key).bind fun inserted => ?_
    obtain ⟨slot | slot, later⟩ := inserted
    · exact refuse_uniform later
    · exact Logged.uniform_pure _
  | erase key =>
    simp only [Op.performOn, KeyIndex.interface, erase_eq]
    exact (((core table).erase_uniform key).bind fun _ => Logged.uniform_pure _).bind
      fun _ => Logged.uniform_pure _
  | slotFor key =>
    simp only [Op.performOn, KeyIndex.interface, slotFor_eq]
    exact ((core table).slotFor_uniform key).bind fun _ => Logged.uniform_pure _
  | indexOf key =>
    simp only [Op.performOn, KeyIndex.interface, indexOf_eq]
    exact ((core table).indexOf_uniform key).bind fun _ => Logged.uniform_pure _
  | contains key =>
    simp only [Op.performOn, KeyIndex.interface, contains_eq]
    exact ((core table).contains_uniform key).bind fun _ => Logged.uniform_pure _
  | count key =>
    simp only [Op.performOn, KeyIndex.interface, KeyIndex.count, contains_eq]
    exact (((core table).contains_uniform key).bind fun _ => Logged.uniform_pure _).bind
      fun _ => Logged.uniform_pure _
  | clear =>
    simp only [Op.performOn, KeyIndex.interface, clear_eq]
    exact ((core table).clear_uniform.bind settle_uniform).bind fun _ => Logged.uniform_pure _
  | capacity => exact Logged.uniform_pure _
  | _ => exact (Logged.uniform_lift _).bind fun _ => Logged.uniform_pure _

/-- A call changes the slots of the core and nothing else. -/
theorem perform_keeps {table after : T} {op : Op K} {answer : Answer K} {route : Route}
    {limit : Threshold} (performed : (op.perform route table).result limit = .ok (answer, after)) :
    ∃ slots, core after = { core table with slots } := by
  rw [Ruled.perform_eq] at performed
  cases op with
  | insert key =>
    rw [Op.performOn, insert_eq, Logged.result_bind_eq_ok] at performed
    obtain ⟨⟨slot, later⟩, inserted, performed⟩ := performed
    obtain ⟨slots, rfl⟩ := LinearTable.insert_keeps inserted
    refine ⟨slots, ?_⟩
    cases slot with
    | some slot =>
      cases performed
      exact core_wrap _
    | none =>
      rw [refuse_keeps performed]
      exact core_wrap _
  | erase key =>
    simp only [Op.performOn, KeyIndex.interface, erase_eq, Logged.result_bind_eq_ok] at performed
    obtain ⟨_, ⟨⟨_, later⟩, erased, rest⟩, performed⟩ := performed
    obtain ⟨slots, rfl⟩ := LinearTable.erase_keeps erased
    cases rest
    cases performed
    exact ⟨slots, core_wrap _⟩
  | clear =>
    simp only [Op.performOn, KeyIndex.interface, clear_eq, Logged.result_bind_eq_ok] at performed
    obtain ⟨_, ⟨later, cleared, settled⟩, performed⟩ := performed
    obtain ⟨slots, rfl⟩ := LinearTable.clear_keeps cleared
    rw [settle_result] at settled
    cases settled
    cases performed
    exact ⟨slots, core_wrap _⟩
  | capacity =>
    cases performed
    exact ⟨(core table).slots, rfl⟩
  | _ =>
    simp only [Op.performOn, Logged.result_bind_eq_ok] at performed
    obtain ⟨_, -, performed⟩ := performed
    cases performed
    exact ⟨(core table).slots, rfl⟩

end Wraps

end SlotTable

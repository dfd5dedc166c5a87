import SlotTable.Proofs.Storage.Tidy

/-!
# What a script does to a storage

Every call of a script is answered from the keys in the slots, and storages that hold the same keys
answer every script alike (`SameKeys.replay`). What a script leaves in a slot is the key of the last
write to it, unless a clear came after; if nothing happened to the slot, it is what was there before
(`slotOf_replay_iff`).
-/
namespace SlotTable

variable {K S S' : Type} [Storage S K] [LawfulStorage S K] [Storage S' K] [LawfulStorage S' K]

namespace Access

/-- The slot that a call is about. -/
def index? : Access K → Option Nat
  | write index _ => some index
  | clear index => some index
  | keyAt index => some index
  | isOccupied index => some index
  | _ => none

/-- A call that puts a key into a slot or empties it. -/
def alters (index : Nat) : Access K → Bool
  | write slot _ => slot == index
  | clear slot => slot == index
  | _ => false

/-- The last call of a script that alters a slot puts this key there. -/
def LastWritten (script : List (Access K)) (index : Nat) (key : K) : Prop :=
  ∃ before later, script = before ++ .write index key :: later ∧
    ∀ access ∈ later, access.alters index = false

theorem not_lastWritten_nil {index : Nat} {key : K} :
    ¬ LastWritten ([] : List (Access K)) index key := by
  rintro ⟨before, later, split, -⟩
  simp at split

theorem lastWritten_cons {access : Access K} {rest : List (Access K)} {index : Nat} {key : K} :
    LastWritten (access :: rest) index key ↔ LastWritten rest index key ∨
      (access = .write index key ∧ ∀ later ∈ rest, later.alters index = false) := by
  constructor
  · rintro ⟨before, later, split, unaltered⟩
    cases before with
    | nil =>
      cases split
      exact .inr ⟨rfl, unaltered⟩
    | cons first before =>
      cases split
      exact .inl ⟨before, later, rfl, unaltered⟩
  · rintro (⟨before, later, rfl, unaltered⟩ | ⟨rfl, unaltered⟩)
    · exact ⟨access :: before, later, rfl, unaltered⟩
    · exact ⟨[], rest, rfl, unaltered⟩

variable {slots : S} {access : Access K} {index : Nat} {key : K}

theorem attempt_past (about : access.index? = some index)
    (past : Storage.capacity slots ≤ index) :
    access.attempt slots = (.error (.indexOutOfBounds (Storage.capacity slots) index), slots) := by
  cases access <;> cases about <;>
    simp only [attempt, perform, keyAt_past past, isOccupied_past past, write_past past,
      clear_past past, error_bind]

theorem attempt_keyAt (inside : index < Storage.capacity slots) :
    (keyAt index).attempt slots = (.ok (.held (slotOf slots index)), slots) := by
  simp only [attempt, perform, keyAt_eq_slotOf inside, ok_bind]
  rfl

theorem attempt_isOccupied (inside : index < Storage.capacity slots) :
    (isOccupied index).attempt slots = (.ok (.flag (slotOf slots index).isSome), slots) := by
  simp only [attempt, perform, isOccupied_eq_slotOf inside, ok_bind]
  rfl

theorem attempt_write (inside : index < Storage.capacity slots) (key : K) :
    ∃ after, (write index key).attempt slots = (.ok .done, after) ∧
      Changes slots after index (some key) := by
  obtain ⟨after, written, change⟩ := write_changes inside key
  refine ⟨after, ?_, change⟩
  simp only [attempt, perform, written, ok_bind]
  rfl

theorem attempt_clear (inside : index < Storage.capacity slots) :
    ∃ after, (clear index).attempt slots = (.ok (.held (slotOf slots index)), after) ∧
      Changes slots after index none := by
  obtain ⟨after, emptied, change⟩ := clear_changes inside
  refine ⟨after, ?_, change⟩
  simp only [attempt, perform, emptied, ok_bind]
  rfl

theorem attempt_occupiedCount (slots : S) :
    occupiedCount.attempt slots =
      (.ok (.number ((List.range (Storage.capacity slots)).countP fun index =>
        (slotOf slots index).isSome)), slots) := by
  simp only [attempt, perform, occupiedCount_eq, ok_bind]
  rfl

omit [LawfulStorage S K] in
theorem attempt_capacity (slots : S) :
    capacity.attempt slots = (.ok (.number (Storage.capacity slots)), slots) := rfl

omit [LawfulStorage S K] in
theorem replay_cons (slots : S) (access : Access K) (rest : List (Access K)) :
    replay slots (access :: rest) =
      ((access.attempt slots).1 :: (replay (access.attempt slots).2 rest).1,
        (replay (access.attempt slots).2 rest).2) := rfl

omit [LawfulStorage S K] in
/-- A call that only reads hands the storage back, be it with an answer or a fault. -/
theorem attempt_reading {A : Type} {read : Except Fault A} {answer : A → AccessAnswer K}
    (reads : access.perform slots = read >>= fun value => pure (answer value, slots)) :
    (access.attempt slots).2 = slots := by
  rw [attempt, reads]
  cases read <;> rfl

theorem slotOf_attempt_iff (inside : index < Storage.capacity slots) :
    slotOf (access.attempt slots).2 index = some key ↔ access = .write index key ∨
      (slotOf slots index = some key ∧ access.alters index = false) := by
  cases access with
  | write slot stored =>
    by_cases within : slot < Storage.capacity slots
    · obtain ⟨after, done, change⟩ := attempt_write within stored
      rw [done, change.slotOf_eq]
      by_cases same : slot = index
      · simp [alters, same]
      · simp [alters, same, Ne.symm same]
    · have different : slot ≠ index := by omega
      rw [attempt_past rfl (Nat.le_of_not_lt within)]
      simp [alters, different]
  | clear slot =>
    by_cases within : slot < Storage.capacity slots
    · obtain ⟨after, done, change⟩ := attempt_clear within
      rw [done, change.slotOf_eq]
      by_cases same : slot = index
      · simp [alters, same]
      · simp [alters, same, Ne.symm same]
    · have different : slot ≠ index := by omega
      rw [attempt_past rfl (Nat.le_of_not_lt within)]
      simp [alters, different]
  | capacity => simp [attempt_capacity, alters]
  | _ =>
    rw [attempt_reading rfl]
    simp [alters]

end Access

theorem kept_capacity (n : Nat) : Kept fun slots : S => Storage.capacity slots = n where
  write sized written := (changes_of_write written).capacity_eq.trans sized
  clear sized cleared := (changes_of_clear cleared).capacity_eq.trans sized

theorem Access.slotOf_replay_iff {slots : S} {index : Nat} (inside : index < Storage.capacity slots)
    (script : List (Access K)) (key : K) :
    slotOf (replay slots script).2 index = some key ↔ LastWritten script index key ∨
      (slotOf slots index = some key ∧ ∀ access ∈ script, access.alters index = false) := by
  induction script generalizing slots with
  | nil => simp [replay, not_lastWritten_nil]
  | cons access rest ih =>
    have sized : Storage.capacity (access.attempt slots).2 = Storage.capacity slots :=
      (kept_capacity (Storage.capacity slots)).replay rfl [access]
    have within : index < Storage.capacity (access.attempt slots).2 := sized.symm ▸ inside
    rw [replay_cons, ih within, slotOf_attempt_iff inside, lastWritten_cons, List.forall_mem_cons,
      or_and_right, and_assoc, or_assoc]

/-- Two storages, perhaps of different kinds, with equally many slots and the same keys in them. -/
structure SameKeys (first : S) (second : S') : Prop where
  capacity_eq : Storage.capacity first = Storage.capacity second
  slotOf_eq : slotOf first = slotOf second

namespace SameKeys

variable {first : S} {second : S'}

/-- The same change leaves the same keys. -/
theorem change (same : SameKeys first second) {left : S} {right : S'} {index : Nat}
    {entry : Option K} (changeFirst : Changes first left index entry)
    (changeSecond : Changes second right index entry) : SameKeys left right where
  capacity_eq := by rw [changeFirst.capacity_eq, changeSecond.capacity_eq, same.capacity_eq]
  slotOf_eq := by
    funext other
    rw [changeFirst.slotOf_eq, changeSecond.slotOf_eq, same.slotOf_eq]

theorem attempt (same : SameKeys first second) (access : Access K) :
    (access.attempt first).1 = (access.attempt second).1 ∧
      SameKeys (access.attempt first).2 (access.attempt second).2 := by
  have sized := same.capacity_eq
  have holds := same.slotOf_eq
  by_cases past : ∃ index, access.index? = some index ∧ Storage.capacity first ≤ index
  · obtain ⟨index, about, past⟩ := past
    rw [Access.attempt_past about past, Access.attempt_past about (sized ▸ past), sized]
    exact ⟨rfl, same⟩
  · have inside : ∀ index, access.index? = some index → index < Storage.capacity first :=
      fun index about => Nat.lt_of_not_le fun beyond => past ⟨index, about, beyond⟩
    cases access with
    | write index key =>
      have within := inside index rfl
      obtain ⟨left, doneFirst, changeFirst⟩ := Access.attempt_write within key
      obtain ⟨right, doneSecond, changeSecond⟩ := Access.attempt_write (sized ▸ within) key
      rw [doneFirst, doneSecond]
      exact ⟨rfl, same.change changeFirst changeSecond⟩
    | clear index =>
      have within := inside index rfl
      obtain ⟨left, doneFirst, changeFirst⟩ := Access.attempt_clear within
      obtain ⟨right, doneSecond, changeSecond⟩ := Access.attempt_clear (sized ▸ within)
      rw [doneFirst, doneSecond, holds]
      exact ⟨rfl, same.change changeFirst changeSecond⟩
    | keyAt index =>
      have within := inside index rfl
      rw [Access.attempt_keyAt within, Access.attempt_keyAt (sized ▸ within), holds]
      exact ⟨rfl, same⟩
    | isOccupied index =>
      have within := inside index rfl
      rw [Access.attempt_isOccupied within, Access.attempt_isOccupied (sized ▸ within), holds]
      exact ⟨rfl, same⟩
    | occupiedCount =>
      rw [Access.attempt_occupiedCount, Access.attempt_occupiedCount, sized, holds]
      exact ⟨rfl, same⟩
    | capacity =>
      rw [Access.attempt_capacity, Access.attempt_capacity, sized]
      exact ⟨rfl, same⟩

/-- Storages with the same keys cannot be told apart by any script, and it leaves the same keys. -/
theorem replay (same : SameKeys first second) (script : List (Access K)) :
    (Access.replay first script).1 = (Access.replay second script).1 ∧
      SameKeys (Access.replay first script).2 (Access.replay second script).2 := by
  induction script generalizing first second with
  | nil => exact ⟨rfl, same⟩
  | cons access rest ih =>
    obtain ⟨answered, left⟩ := same.attempt access
    obtain ⟨answers, last⟩ := ih left
    rw [Access.replay_cons, Access.replay_cons, answered, answers]
    exact ⟨rfl, last⟩

end SameKeys

end SlotTable

import SlotTable.Proofs.Rules.Landing

/-!
# Runs under rules

A run is a list of calls with their answers, each made on the slots that the one before left.
`Effect` says once what a call can do to the slots; invariants of runs are proved over its five
cases and by induction on the run.
-/
namespace SlotTable

open Function (update)

variable {K : Type}

/-- Calls and their answers, the first one first. -/
abbrev History (K : Type) := List (Op K × Answer K)

/-- An erase that found its key. -/
def isRemoval : Op K × Answer K → Bool
  | (.erase _, .slot (some _)) => true
  | _ => false

/-- The error value of an insert without room. -/
def Answer.isRefusal : Answer K → Bool
  | .rejected _ => true
  | _ => false

/-- No erase found its key. -/
def Unerased (history : History K) : Prop := ∀ call ∈ history, isRemoval call = false

instance (history : History K) : Decidable (Unerased history) :=
  inferInstanceAs (Decidable (∀ call ∈ history, isRemoval call = false))

namespace Rules

variable {rules : Rules K} {start slots after : Slots K} {history : History K} {op : Op K}
  {answer : Answer K}

/-- A call that stored nothing, emptied nothing and found no slot for its key to take. -/
def Quiet : Op K → Answer K → Prop
  | .insert _, .slot (some _) => False
  | .erase _, .slot (some _) => False
  | .clear, _ => False
  | _, _ => True

/-- What a call does to the slots. -/
inductive Effect (rules : Rules K) (slots : Slots K) : Op K → Answer K → Slots K → Prop where
  | stored {key : K} {index : Nat} (landed : rules.landing slots key = .vacant index) :
      Effect rules slots (.insert key) (.slot (some index)) (update slots index (some key))
  | found {key : K} {index : Nat} (landed : rules.landing slots key = .occupied index) :
      Effect rules slots (.insert key) (.slot (some index)) slots
  | erased {key : K} {index : Nat} (landed : rules.landing slots key = .occupied index) :
      Effect rules slots (.erase key) (.slot (some index)) (update slots index none)
  | cleared : Effect rules slots .clear .done fun _ => none
  | kept {op : Op K} {answer : Answer K} (quiet : Quiet op answer) :
      Effect rules slots op answer slots

theorem perform_effect (performed : rules.perform slots op = .ok (answer, after)) :
    Effect rules slots op answer after := by
  cases op with
  | insert key =>
    simp only [perform] at performed
    cases landed : rules.landing slots key with
    | vacant index =>
      rw [landed] at performed
      cases performed
      exact .stored landed
    | occupied index =>
      rw [landed] at performed
      cases performed
      exact .found landed
    | exhausted =>
      simp only [landed] at performed
      cases refusal : rules.refusal <;> rw [refusal] at performed <;> cases performed <;>
        exact .kept trivial
  | erase key =>
    simp only [perform] at performed
    cases landed : rules.landing slots key with
    | vacant index =>
      rw [landed] at performed
      cases performed
      exact .kept trivial
    | occupied index =>
      rw [landed] at performed
      cases performed
      exact .erased landed
    | exhausted =>
      rw [landed] at performed
      cases performed
      exact .kept trivial
  | clear =>
    cases performed
    exact .cleared
  | _ =>
    cases performed
    exact .kept trivial

/-- An insert without room. -/
def Exceeds (rules : Rules K) (slots : Slots K) (op : Op K) : Prop :=
  ∃ key, op = .insert key ∧ rules.landing slots key = .exhausted

theorem perform_accepted (within : ¬ rules.Exceeds slots op) :
    ∃ answer after, rules.perform slots op = .ok (answer, after) ∧ answer.isRefusal = false := by
  cases op with
  | insert key =>
    cases landed : rules.landing slots key with
    | vacant index => exact ⟨_, _, perform_insert_vacant landed, rfl⟩
    | occupied index => exact ⟨_, _, perform_insert_occupied landed, rfl⟩
    | exhausted => exact absurd ⟨key, rfl, landed⟩ within
  | erase key =>
    cases found : rules.indexOf slots key with
    | none => exact ⟨_, _, perform_erase_missed found, rfl⟩
    | some index => exact ⟨_, _, perform_erase_found (indexOf_eq_some_iff.mp found), rfl⟩
  | _ => exact ⟨_, _, rfl, rfl⟩

/-- Rules that do not end the program answer every call. -/
theorem perform_answered (mild : rules.refusal ≠ .fatal) (slots : Slots K) (op : Op K) :
    ∃ answer after, rules.perform slots op = .ok (answer, after) := by
  by_cases exceeds : rules.Exceeds slots op
  · obtain ⟨key, rfl, landed⟩ := exceeds
    rw [perform_insert_exhausted landed]
    cases refusal : rules.refusal with
    | fatal => exact absurd refusal mild
    | _ => exact ⟨_, _, rfl⟩
  · obtain ⟨answer, after, performed, -⟩ := perform_accepted exceeds
    exact ⟨answer, after, performed⟩

/-- Nothing but an insert without room is ever left without an answer. -/
theorem perform_error_eq {fault : Fault} (performed : rules.perform slots op = .error fault) :
    fault = .slotsExhausted rules.capacity := by
  cases op with
  | insert key =>
    simp only [perform] at performed
    cases landed : rules.landing slots key with
    | vacant index => simp [landed] at performed
    | occupied index => simp [landed] at performed
    | exhausted =>
      rw [landed] at performed
      cases refusal : rules.refusal <;> rw [refusal] at performed <;> cases performed
      rfl
  | erase key =>
    simp only [perform] at performed
    cases landed : rules.landing slots key <;> simp [landed] at performed
  | _ => cases performed

/-- Rules that leave a call without an answer end the program. -/
theorem fatal_of_error {fault : Fault} (performed : rules.perform slots op = .error fault) :
    rules.refusal = .fatal := by
  by_contra mild
  obtain ⟨answer, after, answered⟩ := perform_answered mild slots op
  rw [answered] at performed
  cases performed

/-- An insert that was answered with an empty slot has put its key there. -/
theorem Effect.stored_of_empty {key : K} {index : Nat}
    (effect : Effect rules slots (.insert key) (.slot (some index)) after)
    (empty : slots index = none) :
    rules.landing slots key = .vacant index ∧ after = update slots index (some key) := by
  cases effect with
  | stored landed => exact ⟨landed, rfl⟩
  | found landed => exact absurd empty (landing_eq_occupied_iff.mp landed).2.ne_none
  | kept quiet => exact absurd quiet id

/-- An insert that was not answered with an empty slot changes nothing. -/
theorem Effect.insert_eq_of_held {key : K}
    (effect : Effect rules slots (.insert key) answer after)
    (held : ∀ index, answer = .slot (some index) → slots index ≠ none) : after = slots := by
  cases effect with
  | stored landed => exact absurd (landing_eq_vacant_iff.mp landed).2 (held _ rfl)
  | found landed => rfl
  | kept quiet => rfl

/-- An erase that was answered with a slot has found its key there and emptied the slot. -/
theorem Effect.erased_slot {key : K} {index : Nat}
    (effect : Effect rules slots (.erase key) (.slot (some index)) after) :
    rules.landing slots key = .occupied index ∧ after = update slots index none := by
  cases effect with
  | erased landed => exact ⟨landed, rfl⟩
  | kept quiet => exact absurd quiet id

/-- A slot with which an insert is answered is one of the table's slots. -/
theorem Effect.index_lt {key : K} {index : Nat}
    (effect : Effect rules slots (.insert key) (.slot (some index)) after) :
    index < rules.capacity := by
  cases effect with
  | stored landed => exact (landing_eq_vacant_iff.mp landed).1.1
  | found landed => exact (landing_eq_occupied_iff.mp landed).1.1
  | kept quiet => exact absurd quiet id

/-- A key that matches itself is found in the slot with which its insert was answered. -/
theorem Effect.landing_of_matching {key : K} {index : Nat}
    (effect : Effect rules slots (.insert key) (.slot (some index)) after)
    (reflexive : rules.matching key key = true) : rules.landing after key = .occupied index := by
  cases effect with
  | stored landed => exact landing_update_of_matches landed reflexive
  | found landed => exact landed
  | kept quiet => exact absurd quiet id

theorem Effect.insert_of_ne {key : K} {index other : Nat}
    (effect : Effect rules slots (.insert key) (.slot (some index)) after)
    (different : other ≠ index) : after other = slots other := by
  cases effect with
  | stored landed => exact Function.update_of_ne different ..
  | found landed => rfl
  | kept quiet => exact absurd quiet id

inductive Run (rules : Rules K) (start : Slots K) : History K → Slots K → Prop where
  | start : Run rules start [] start
  | step {history : History K} {slots after : Slots K} {op : Op K} {answer : Answer K}
      (before : Run rules start history slots)
      (performed : rules.perform slots op = .ok (answer, after)) :
      Run rules start (history ++ [(op, answer)]) after

end Rules

end SlotTable

import SlotTable.Proofs.Table.Transcript

/-!
# Dynamic and fixed tables in lockstep

The two public kinds of table differ in how a slot is stored, in the placeholder that fills empty
cells and in what a full table does with a new key. The same calls on a new table of each kind show
that only the last of these can be seen: up to the first refused insert of the dynamic table both
give the same answers and list the same keys, and at that very call the fixed one ends the program.
-/
namespace SlotTable

variable {K : Type}

/-- What the same calls on a dynamic and on a fixed table of `n` slots have in common. -/
structure Lockstep (n : Nat) (ops : List (Op K)) (dynamic fixed : Transcript K) : Prop where
  complete : dynamic.fault = none ∧ dynamic.steps.length = ops.length
  listed : ∀ step ∈ dynamic.steps, ∃ listed, step.2 = .ok listed
  refused : ∀ (time : Nat) (answer : Answer K) listed,
    dynamic.steps[time]? = some (answer, listed) →
    answer.isRefusal = true → answer = .rejected (.full n) ∧ ∃ key, ops[time]? = some (.insert key)
  agrees : fixed.steps = dynamic.steps.takeWhile fun step => !step.1.isRefusal
  aborts_iff : ∀ fault, fixed.fault = some fault ↔ fault = .slotsExhausted n ∧
    ∃ listed, dynamic.steps[fixed.steps.length]? = some (.rejected (.full n), listed)
  survives_iff : fixed.fault = none ↔ ∀ step ∈ dynamic.steps, step.1.isRefusal = false

namespace Lockstep

variable {n : Nat} {ops : List (Op K)} {dynamic fixed : Transcript K}

theorem nil (n : Nat) : Lockstep n ([] : List (Op K)) ⟨[], none⟩ ⟨[], none⟩ where
  complete := ⟨rfl, rfl⟩
  listed := by simp
  refused := by simp
  agrees := rfl
  aborts_iff := by simp
  survives_iff := by simp

/-- A call that both tables answer alike. -/
theorem answered (op : Op K) {answer : Answer K} (accepted : answer.isRefusal = false)
    (listed : List (Nat × K)) (later : Lockstep n ops dynamic fixed) :
    Lockstep n (op :: ops) ⟨(answer, .ok listed) :: dynamic.steps, dynamic.fault⟩
      ⟨(answer, .ok listed) :: fixed.steps, fixed.fault⟩ where
  complete := ⟨later.complete.1, by simp [later.complete.2]⟩
  listed := List.forall_mem_cons.mpr ⟨⟨listed, rfl⟩, later.listed⟩
  refused := by
    intro time seen entries found refusal
    cases time with
    | zero =>
      cases found
      rw [accepted] at refusal
      cases refusal
    | succ time => exact later.refused time seen entries found refusal
  agrees := by
    rw [List.takeWhile_cons_of_pos (by simp [accepted]), later.agrees]
  aborts_iff := later.aborts_iff
  survives_iff := by
    rw [later.survives_iff, List.forall_mem_cons]
    exact (and_iff_right accepted).symm

/-- An insert without room: the fixed run is over, the dynamic one goes on. -/
theorem parted (key : K) (listed : List (Nat × K)) (later : Lockstep n ops dynamic fixed) :
    Lockstep n (.insert key :: ops)
      ⟨(.rejected (.full n), .ok listed) :: dynamic.steps, dynamic.fault⟩
      ⟨[], some (.slotsExhausted n)⟩ where
  complete := ⟨later.complete.1, by simp [later.complete.2]⟩
  listed := List.forall_mem_cons.mpr ⟨⟨listed, rfl⟩, later.listed⟩
  refused := by
    intro time seen entries found refusal
    cases time with
    | zero =>
      cases found
      exact ⟨rfl, key, rfl⟩
    | succ time => exact later.refused time seen entries found refusal
  agrees := rfl
  aborts_iff := by
    intro fault
    simp [eq_comm]
  survives_iff := by simp [Answer.isRefusal]

end Lockstep

namespace Rules

variable {rules : Rules K} {slots : Slots K} {op : Op K} {key : K}

/-- The same rules, but for the insert without room. -/
def withRefusal (rules : Rules K) (refusal : Refusal) : Rules K := { rules with refusal }

/-- What a call within bounds does is independent of the refusal. -/
theorem perform_withRefusal (within : ¬ rules.Exceeds slots op) (refusal : Refusal) :
    (rules.withRefusal refusal).perform slots op = rules.perform slots op := by
  cases op with
  | insert key =>
    have same : (rules.withRefusal refusal).landing slots key = rules.landing slots key := rfl
    simp only [perform, same]
    cases landed : rules.landing slots key with
    | exhausted => exact absurd ⟨key, rfl, landed⟩ within
    | _ => rfl
  | _ => rfl

theorem lockstep (rules : Rules K) (slots : Slots K) (ops : List (Op K)) :
    Lockstep rules.capacity ops ((rules.withRefusal .reported).transcript slots ops)
      ((rules.withRefusal .fatal).transcript slots ops) := by
  induction ops generalizing slots with
  | nil => exact .nil rules.capacity
  | cons op rest ih =>
    by_cases exceeds : rules.Exceeds slots op
    · obtain ⟨key, rfl, landed⟩ := exceeds
      have reported : (rules.withRefusal .reported).perform slots (.insert key) =
          .ok (.rejected (.full rules.capacity), slots) := perform_insert_exhausted landed
      have fatal : (rules.withRefusal .fatal).perform slots (.insert key) =
          .error (.slotsExhausted rules.capacity) := perform_insert_exhausted landed
      rw [transcript_cons_ok reported, transcript_cons_error fatal]
      exact .parted key (rules.entries slots) (ih slots)
    · obtain ⟨answer, after, performed, accepted⟩ := perform_accepted exceeds
      have same := fun refusal => (perform_withRefusal exceeds refusal).trans performed
      rw [transcript_cons_ok (same .reported), transcript_cons_ok (same .fatal)]
      exact .answered op accepted (rules.entries after) (ih after)

end Rules

/-- A dynamic and a fixed table with the same number of slots, hash and match rule, new and under
the same calls, by whatever routes and under whatever thresholds: every answer and every listing is
the same before the first refused insert of the dynamic table. Refusals carry the capacity, the
fixed table ends the program at the call of the first one and at no other, and what is shown does
not depend on the placeholder. -/
theorem dynamic_fixed_lockstep {n : Nat} (positive : 0 < n) (hash : K → UInt64)
    (matching : K → K → Bool) (calls : List ((Route × Route) × Op K))
    (limit limitFixed : Threshold) :
    ∃ dynamic fixed : Transcript K,
      transcript (DynamicTable.create n hash matching) limit
        (calls.map fun call => (call.1.1, call.2)) = .ok dynamic ∧
      (∀ [Placeholder K], transcript (FixedTable.create (K := K) positive hash matching) limitFixed
        (calls.map fun call => (call.1.2, call.2)) = .ok fixed) ∧
      Lockstep n (calls.map Prod.snd) dynamic fixed := by
  have ops : ∀ route : Route × Route → Route,
      (calls.map fun call => (route call.1, call.2)).map Prod.snd = calls.map Prod.snd := by
    intro route
    rw [List.map_map]
    rfl
  have agree := Rules.lockstep (Rules.ofHash positive hash matching .silent) (fun _ => none)
    (calls.map Prod.snd)
  refine ⟨_, _, ?_, ?_, agree⟩
  · have made := DynamicTable.create_result positive hash matching limit
    rw [Ruled.transcript_eq made (DynamicTable.create_shows positive made), ops]
    rfl
  · intro _
    have made := FixedTable.create_result positive hash matching limitFixed
    rw [Ruled.transcript_eq made (FixedTable.create_shows positive made), ops]
    rfl

/-- The placeholder itself is stored, erased and looked up; the seventh call is the first refused
one. -/
theorem lockstep_with_stored_placeholder :
    ∃ (calls : List ((Route × Route) × Op (Option Bool)))
      (dynamic fixed : Transcript (Option Bool)),
      calls.map Prod.snd = [.contains none, .insert none, .insert (some true), .erase none,
        .indexOf (some true), .insert (some true), .insert none, .isFull] ∧
      transcript (DynamicTable.create 2 (fun _ => 7) fun a b => a == b) .off
        (calls.map fun call => (call.1.1, call.2)) = .ok dynamic ∧
      transcript (FixedTable.create (K := Option Bool) Nat.two_pos (fun _ => 7) fun a b => a == b)
        .off (calls.map fun call => (call.1.2, call.2)) = .ok fixed ∧
      fixed.steps = [(.flag false, .ok []), (.slot (some 0), .ok [(0, none)]),
        (.slot (some 1), .ok [(0, none), (1, some true)]), (.slot (some 0), .ok [(1, some true)]),
        (.slot none, .ok [(1, some true)]),
        (.slot (some 0), .ok [(0, some true), (1, some true)])] ∧
      fixed.fault = some (.slotsExhausted 2) ∧
      Lockstep 2 (calls.map Prod.snd) dynamic fixed := by
  let calls : List ((Route × Route) × Op (Option Bool)) :=
    [((.direct, .direct), .contains none), ((.direct, .direct), .insert none),
      ((.direct, .direct), .insert (some true)), ((.direct, .throughIndex), .erase none),
      ((.throughIndex, .direct), .indexOf (some true)), ((.direct, .direct), .insert (some true)),
      ((.direct, .direct), .insert none), ((.direct, .direct), .isFull)]
  obtain ⟨dynamic, fixed, shownDynamic, shownFixed, agree⟩ :=
    dynamic_fixed_lockstep Nat.two_pos (fun _ => 7) (fun a b : Option Bool => a == b) calls
      .off .off
  have ended : transcript (FixedTable.create (K := Option Bool) Nat.two_pos (fun _ => 7)
      fun a b => a == b) .off (calls.map fun call => (call.1.2, call.2)) = .ok ⟨_, _⟩ := rfl
  obtain rfl := Except.ok.inj (ended.symm.trans shownFixed)
  exact ⟨calls, dynamic, _, rfl, shownDynamic, shownFixed, rfl, rfl, agree⟩

end SlotTable

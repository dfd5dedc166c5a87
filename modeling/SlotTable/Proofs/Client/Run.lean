import SlotTable.Proofs.Client.Basic
import SlotTable.Proofs.Rules.Lawful

/-!
# Runs of a client under rules

A client call does to the slots what the table's call does and sets at most one value
(`Client.Effect`). No call steps outside the array of values, since every slot that a table answers
with is below its capacity; a call ends without an answer only where the table itself does.
-/
namespace SlotTable.Client

open Function (update)

variable {T K V : Type} {rules : Rules K} {slots after : Slots K} {values : List V}
  {key : K} {index : Nat}

/-- A call that stored no value, removed no key and did not clear. -/
def Quiet : ClientOp K V → ClientAnswer K V → Prop
  | .put .., .table (.slot (some _)) => False
  | .del _, .table (.slot (some _)) => False
  | .clear, _ => False
  | _, _ => True

/-- What a client call does to the slots and the values. -/
inductive Effect (rules : Rules K) (slots : Slots K) (values : List V) :
    ClientOp K V → ClientAnswer K V → Slots K → List V → Prop where
  | put {key : K} {value : V} {index : Nat} {after : Slots K}
      (effect : rules.Effect slots (.insert key) (.slot (some index)) after) :
      Effect rules slots values (.put key value) (.table (.slot (some index))) after
        (values.set index value)
  | del {key : K} {index : Nat} (landed : rules.landing slots key = .occupied index) :
      Effect rules slots values (.del key) (.table (.slot (some index))) (update slots index none)
        values
  | cleared {answer : ClientAnswer K V} :
      Effect rules slots values .clear answer (fun _ => none) values
  | kept {op : ClientOp K V} {answer : ClientAnswer K V} (quiet : Quiet op answer) :
      Effect rules slots values op answer slots values

inductive Run (rules : Rules K) : ClientHistory K V → Slots K → List V → Prop where
  | start {values : List V} (sized : values.length = rules.capacity) :
      Run rules [] (fun _ => none) values
  | step {history : ClientHistory K V} {slots after : Slots K} {values left : List V}
      {op : ClientOp K V} {answer : ClientAnswer K V} (before : Run rules history slots values)
      (effect : Effect rules slots values op answer after left) :
      Run rules (history ++ [(op, answer)]) after left

theorem Run.length_eq {history : ClientHistory K V} (run : Run rules history slots values) :
    values.length = rules.capacity := by
  induction run with
  | start sized => exact sized
  | step before effect ih =>
    cases effect with
    | put effect => rw [List.length_set, ih]
    | _ => exact ih

/-- The table has these rules and slots, and there is one value for each slot. -/
structure Shows [Table T K] [Ruled T K] (rules : Rules K) (slots : Slots K)
    (client : Client T V) : Prop where
  table : Ruled.Shows rules slots client.table
  length_eq : client.values.length = rules.capacity

section Perform

variable [Table T K] [Ruled T K] {client : Client T V}

theorem put_cases (shows : Shows rules slots client) (route : Route) (key : K) (value : V)
    (limit : Threshold) :
    (∃ answer later after, (client.put route key value).result limit = .ok (answer, later) ∧
      Shows rules after later ∧
      Effect rules slots client.values (.put key value) answer after later.values) ∨
    (client.put route key value).result limit = .error (.slotsExhausted rules.capacity) := by
  unfold put
  rw [Logged.result_bind]
  cases performed : rules.perform slots (.insert key) with
  | error fault =>
    right
    rw [Ruled.perform_error shows.table performed, Rules.perform_error_eq performed, error_bind]
  | ok pair =>
    left
    obtain ⟨answer, after⟩ := pair
    obtain ⟨later, answered, shown, -⟩ := Ruled.perform_ok shows.table performed route limit
    have effect := Rules.perform_effect performed
    rw [answered, ok_bind]
    cases answer with
    | slot found =>
      cases found with
      | some index =>
        have inside : index < client.values.length := shows.length_eq ▸ effect.index_lt
        refine ⟨_, ⟨later, client.values.set index value⟩, after, ?_, ⟨shown, ?_⟩, .put effect⟩
        · simp only [assign, if_pos inside, Logged.result_bind, Logged.result_lift, ok_bind,
            Logged.result_pure]
        · rw [List.length_set, shows.length_eq]
      | none =>
        cases effect with
        | kept quiet =>
          exact ⟨_, ⟨later, client.values⟩, slots, Logged.result_pure .., ⟨shown, shows.length_eq⟩,
            .kept trivial⟩
    | _ =>
      cases effect with
      | kept quiet =>
        exact ⟨_, ⟨later, client.values⟩, slots, Logged.result_pure .., ⟨shown, shows.length_eq⟩,
          .kept trivial⟩

/-- A `get` reads the value of the slot in which the key is found, and changes nothing. -/
theorem get_result (shows : Shows rules slots client) (route : Route) (key : K)
    (limit : Threshold) :
    (client.get route key).result limit =
      .ok (.value ((rules.indexOf slots key).bind fun index => client.values[index]?), client) := by
  have performed : rules.perform slots (.indexOf key) =
      .ok (.slot (rules.indexOf slots key), slots) := rfl
  obtain ⟨later, answered, -, same⟩ := Ruled.perform_ok shows.table performed route limit
  rw [same rfl rfl] at answered
  unfold get
  rw [Logged.result_bind, answered, ok_bind]
  cases located : rules.indexOf slots key with
  | none => exact Logged.result_pure ..
  | some index =>
    have inside : index < client.values.length := by
      rw [shows.length_eq]
      exact Rules.indexOf_lt located
    simp only [fetch, List.getElem?_eq_getElem inside, Option.bind_some, Logged.result_bind,
      Logged.result_lift, ok_bind, Logged.result_pure]

theorem finds_iff (shows : Shows rules slots client) {key : K} {found : Option V} :
    client.Finds key found ↔
      (rules.indexOf slots key).bind (fun index => client.values[index]?) = found := by
  unfold Finds
  simp only [get_result shows, Except.ok.injEq, Prod.mk.injEq, ClientAnswer.value.injEq, and_true]
  exact ⟨fun finds => finds .direct .off, fun finds _ _ => finds⟩

theorem pass_ok (shows : Shows rules slots client) {op : Op K} {answer : Answer K}
    (performed : rules.perform slots op = .ok (answer, after)) (route : Route)
    (limit : Threshold) :
    ∃ later, (client.pass route op).result limit = .ok (.table answer, later) ∧
      Shows rules after later ∧ later.values = client.values := by
  obtain ⟨later, answered, shown, -⟩ := Ruled.perform_ok shows.table performed route limit
  refine ⟨⟨later, client.values⟩, ?_, ⟨shown, shows.length_eq⟩, rfl⟩
  unfold pass
  rw [Logged.result_bind, answered, ok_bind, Logged.result_pure]

/-- Every client call ends as its effect says, or the table is out of slots. -/
theorem perform_cases (shows : Shows rules slots client) (route : Route) (op : ClientOp K V)
    (limit : Threshold) :
    (∃ answer later after, (client.perform route op).result limit = .ok (answer, later) ∧
      Shows rules after later ∧ Effect rules slots client.values op answer after later.values) ∨
    (client.perform route op).result limit = .error (.slotsExhausted rules.capacity) := by
  cases op with
  | put key value => exact put_cases shows route key value limit
  | get key =>
    left
    exact ⟨_, client, slots, get_result shows route key limit, shows, .kept trivial⟩
  | del key =>
    left
    cases landed : rules.landing slots key with
    | occupied index =>
      obtain ⟨later, answered, shown, values⟩ :=
        pass_ok shows (Rules.perform_erase_found landed) route limit
      exact ⟨_, later, _, answered, shown, values ▸ .del landed⟩
    | _ =>
      have missing : rules.indexOf slots key = none := by
        simp only [Rules.indexOf, landed]
      obtain ⟨later, answered, shown, values⟩ :=
        pass_ok shows (Rules.perform_erase_missed missing) route limit
      exact ⟨_, later, _, answered, shown, values ▸ .kept trivial⟩
  | clear =>
    left
    have performed : rules.perform slots .clear = .ok (.done, fun _ => none) := rfl
    obtain ⟨later, answered, shown, values⟩ := pass_ok shows performed route limit
    exact ⟨_, later, _, answered, shown, values ▸ .cleared⟩

/-- A trace of a client is a run under the rules of its table's constructor. -/
theorem Trace.run {create : Logged T} {history : ClientHistory K V}
    (trace : Client.Trace create history client)
    (starts : ∀ limit table, create.result limit = .ok table →
      Ruled.Shows rules (fun _ => none) table) :
    ∃ slots, Run rules history slots client.values ∧ Shows rules slots client := by
  induction trace with
  | @created table limit values made sized =>
    have shown := starts limit table made
    have length_eq := sized.trans (Ruled.capacity shown)
    exact ⟨_, .start length_eq, shown, length_eq⟩
  | @step history client later answer before route op limit performed ih =>
    obtain ⟨slots, run, shows⟩ := ih
    rcases perform_cases shows route op limit with ⟨_, _, after, answered, shown, effect⟩ | failed
    · rw [answered] at performed
      cases performed
      exact ⟨after, .step run effect, shown⟩
    · rw [failed] at performed
      cases performed

end Perform

theorem Trace.exists_made [Table T K] {create : Logged T} {history : ClientHistory K V}
    {client : Client T V} (trace : Client.Trace create history client) :
    ∃ limit fresh, create.result limit = .ok fresh := by
  induction trace with
  | created made => exact ⟨_, _, made⟩
  | step before route op limit performed ih => exact ih

end SlotTable.Client

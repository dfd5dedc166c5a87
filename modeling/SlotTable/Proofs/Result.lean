import SlotTable.Log.Logged

/-!
# Results of logged computations

`Logged.result` is what a computation ends with under a threshold; its events are forgotten. It goes
through `bind`, so the result of an operation is read off its steps, and the events in between drop
out.
-/
namespace SlotTable

variable {α β : Type}

theorem ok_bind (value : α) (next : α → Except Fault β) :
    (Except.ok value >>= next) = next value := rfl

theorem error_bind (fault : Fault) (next : α → Except Fault β) :
    (Except.error fault >>= next) = .error fault := rfl

theorem bind_eq_ok {first : Except Fault α} {next : α → Except Fault β} {value : β} :
    (first >>= next) = .ok value ↔ ∃ middle, first = .ok middle ∧ next middle = .ok value := by
  cases first with
  | error fault => simp [error_bind]
  | ok middle => simp [ok_bind]

namespace Logged

def result (action : Logged α) (limit : Threshold) : Except Fault α :=
  (action.run limit).result

@[simp]
theorem result_pure (value : α) (limit : Threshold) :
    (pure value : Logged α).result limit = .ok value := rfl

@[simp]
theorem result_bind (first : Logged α) (next : α → Logged β) (limit : Threshold) :
    (first >>= next).result limit =
      first.result limit >>= fun value => (next value).result limit := by
  rcases run : first.run limit with ⟨events, fault | value⟩
  · simp only [result, run_bind_error run, run]
    rfl
  · simp only [result, run_bind_ok run, run]
    rfl

theorem result_bind_eq_ok {first : Logged α} {next : α → Logged β} {limit : Threshold} {value : β} :
    (first >>= next).result limit = .ok value ↔
      ∃ middle, first.result limit = .ok middle ∧ (next middle).result limit = .ok value := by
  rw [result_bind, bind_eq_ok]

@[simp]
theorem result_lift (outcome : Except Fault α) (limit : Threshold) :
    (liftM outcome : Logged α).result limit = outcome := rfl

@[simp]
theorem result_emit (event : Event) (limit : Threshold) :
    (emit event).result limit = .ok () := rfl

@[simp]
theorem result_fail (fault : Fault) (limit : Threshold) :
    (fail fault : Logged α).result limit = .error fault := rfl

end Logged

end SlotTable

import SlotTable.Proofs.Result
import SlotTable.Table.Session

/-!
# A threshold is a filter and nothing else

A computation is uniform when under every threshold it emits those of its trace-level events that
the threshold admits and ends as it does at that level. The steps of a computation have the property
and `bind` keeps it, so an operation has it if its steps do. The trail of a computation is what it
emits at the trace level; of a uniform computation that is all there is to know about its events.
-/
namespace SlotTable

variable {α β St A : Type}

/-- The events that a threshold admits. -/
def admitted (limit : Threshold) (events : List Event) : List Event :=
  events.filter fun event => limit.admits event.level

theorem admitted_append (limit : Threshold) (first second : List Event) :
    admitted limit (first ++ second) = admitted limit first ++ admitted limit second :=
  List.filter_append ..

def Outcome.admitted (limit : Threshold) (outcome : Outcome α) : Outcome α :=
  ⟨SlotTable.admitted limit outcome.events, outcome.result⟩

def Step.admitted (limit : Threshold) (step : Step St A) : Step St A :=
  { step with events := SlotTable.admitted limit step.events }

def Stop.admitted (limit : Threshold) (stop : Stop) : Stop :=
  { stop with events := SlotTable.admitted limit stop.events }

/-- The same run with the events that a threshold admits. -/
def Run.admitted (limit : Threshold) (run : Run St A) : Run St A :=
  ⟨run.steps.map (Step.admitted limit), run.stop.map (Stop.admitted limit)⟩

theorem Threshold.admits_of_trace (level : Level) :
    (Threshold.upTo .trace).admits level = true := by
  cases level <;> rfl

namespace Logged

/-- What is emitted at the trace level. -/
def trail (action : Logged α) : List Event := (action.run (.upTo .trace)).events

section Trail

variable {first : Logged α} {next : α → Logged β}

theorem trail_pure (value : α) : (pure value : Logged α).trail = [] := rfl

theorem trail_lift (outcome : Except Fault α) : (liftM outcome : Logged α).trail = [] := rfl

theorem trail_emit (event : Event) : (emit event).trail = [event] :=
  if_pos (Threshold.admits_of_trace event.level)

theorem trail_bind_ok {value : α} (ended : first.result (.upTo .trace) = .ok value) :
    (first >>= next).trail = first.trail ++ (next value).trail := by
  rcases ran : first.run (.upTo .trace) with ⟨events, outcome⟩
  rw [result, ran] at ended
  cases ended
  simp only [trail, run_bind_ok ran, ran]

theorem trail_bind_error {fault : Fault} (ended : first.result (.upTo .trace) = .error fault) :
    (first >>= next).trail = first.trail := by
  rcases ran : first.run (.upTo .trace) with ⟨events, outcome⟩
  rw [result, ran] at ended
  cases ended
  simp only [trail, run_bind_error ran, ran]

/-- What follows a silent last step is no more than the step before it emitted. -/
theorem trail_bind_silent (silent : ∀ value, (next value).trail = []) :
    (first >>= next).trail = first.trail := by
  cases ended : first.result (.upTo .trace) with
  | ok value => rw [trail_bind_ok ended, silent, List.append_nil]
  | error fault => exact trail_bind_error ended

end Trail

def Uniform (action : Logged α) : Prop :=
  ∀ limit, action.run limit = (action.run (.upTo .trace)).admitted limit

theorem Uniform.events_eq {action : Logged α} (uniform : Uniform action) (limit : Threshold) :
    (action.run limit).events = admitted limit action.trail := by
  rw [uniform limit]
  rfl

theorem uniform_pure (value : α) : Uniform (pure value : Logged α) := fun _ => rfl

theorem uniform_lift (outcome : Except Fault α) : Uniform (liftM outcome : Logged α) := fun _ => rfl

theorem uniform_fail (fault : Fault) : Uniform (fail fault : Logged α) := fun _ => rfl

theorem uniform_emit (event : Event) : Uniform (emit event) := by
  intro limit
  have traced : (emit event).run (.upTo .trace) = ⟨[event], .ok ()⟩ :=
    Outcome.ext (trail_emit event) rfl
  rw [traced]
  cases admits : limit.admits event.level <;>
    simp [emit, Outcome.admitted, admitted, admits]

theorem Uniform.bind {first : Logged α} {next : α → Logged β} (uniform : Uniform first)
    (later : ∀ value, Uniform (next value)) : Uniform (first >>= next) := by
  intro limit
  have under := uniform limit
  rcases traced : first.run (.upTo .trace) with ⟨events, fault | value⟩
  · rw [traced] at under
    rw [run_bind_error under, run_bind_error traced]
    rfl
  · rw [traced] at under
    rw [run_bind_ok under, run_bind_ok traced, later value limit]
    simp only [Outcome.admitted, admitted_append]

end Logged

/-- A run of uniform calls is under every threshold what it is at the trace level, but for the
events that the threshold keeps back. -/
theorem play_admitted {calls : List (Call St A)}
    (uniform : ∀ call ∈ calls, ∀ state, (call state).Uniform) (limit : Threshold) (state : St) :
    play limit state calls = (play (.upTo .trace) state calls).admitted limit := by
  induction calls generalizing state with
  | nil => rfl
  | cons call rest ih =>
    obtain ⟨first, later⟩ := List.forall_mem_cons.mp uniform
    have under := first state limit
    rcases traced : (call state).run (.upTo .trace) with ⟨events, fault | ⟨answer, after⟩⟩
    · rw [traced] at under
      simp only [play, under, traced]
      rfl
    · rw [traced] at under
      simp only [play, under, traced, Outcome.admitted, ih later after]
      rfl

end SlotTable

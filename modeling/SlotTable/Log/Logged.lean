import SlotTable.Log.Event

/-!
# Logged computations

A `Logged α` asks for a threshold, emits the events that the threshold admits, and ends with a value
or a fault. Events emitted before a fault stay emitted. Whether an event is admitted is decided
where it is emitted; that the threshold has no other influence is a property of each computation.
-/
namespace SlotTable

@[ext]
structure Outcome (α : Type) where
  events : List Event
  result : Except Fault α

@[ext]
structure Logged (α : Type) where
  run : Threshold → Outcome α

namespace Logged

variable {α β γ : Type}

protected def pure (value : α) : Logged α := ⟨fun _ => ⟨[], .ok value⟩⟩

protected def bind (first : Logged α) (next : α → Logged β) : Logged β :=
  ⟨fun limit =>
    match first.run limit with
    | ⟨events, .error fault⟩ => ⟨events, .error fault⟩
    | ⟨events, .ok value⟩ =>
      let rest := (next value).run limit
      ⟨events ++ rest.events, rest.result⟩⟩

instance : Monad Logged where
  pure := Logged.pure
  bind := Logged.bind

/-- A computation that emits nothing. -/
def ofExcept (result : Except Fault α) : Logged α := ⟨fun _ => ⟨[], result⟩⟩

instance : MonadLift (Except Fault) Logged where
  monadLift := ofExcept

def fail (fault : Fault) : Logged α := ofExcept (.error fault)

def emit (event : Event) : Logged Unit :=
  ⟨fun limit => ⟨if limit.admits event.level then [event] else [], .ok ()⟩⟩

theorem run_bind_ok {first : Logged α} {next : α → Logged β} {limit : Threshold}
    {events : List Event} {value : α} (h : first.run limit = ⟨events, .ok value⟩) :
    (first >>= next).run limit =
      ⟨events ++ ((next value).run limit).events, ((next value).run limit).result⟩ := by
  show (Logged.bind first next).run limit = _
  simp [Logged.bind, h]

theorem run_bind_error {first : Logged α} {next : α → Logged β} {limit : Threshold}
    {events : List Event} {fault : Fault} (h : first.run limit = ⟨events, .error fault⟩) :
    (first >>= next).run limit = ⟨events, .error fault⟩ := by
  show (Logged.bind first next).run limit = _
  simp [Logged.bind, h]

instance : LawfulMonad Logged := LawfulMonad.mk' Logged
  (by
    intro α action
    ext limit : 2
    show (Logged.bind action Logged.pure).run limit = _
    rcases h : action.run limit with ⟨events, _ | _⟩ <;> simp [Logged.bind, Logged.pure, h])
  (by
    intro α β value next
    ext limit : 2
    show (Logged.bind (Logged.pure value) next).run limit = _
    simp [Logged.bind, Logged.pure])
  (by
    intro α β γ action next last
    ext limit : 2
    show (Logged.bind (Logged.bind action next) last).run limit =
      (Logged.bind action fun value => Logged.bind (next value) last).run limit
    rcases h : action.run limit with ⟨events, _ | value⟩
    · simp [Logged.bind, h]
    · rcases k : (next value).run limit with ⟨more, _ | _⟩ <;> simp [Logged.bind, h, k])

end Logged

end SlotTable

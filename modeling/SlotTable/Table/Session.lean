import SlotTable.Table.Operation

/-!
# Sessions: a run of calls with a stack of copies

A session holds the current table and copies saved on a stack. `play` makes calls one after the
other under one threshold and keeps, for each, its events, its answer and the state after it. A
fault ends the run.
-/
namespace SlotTable

structure Session (T : Type) where
  current : T
  saved : List T
  deriving Repr

/-- A call on a state, with its answer and the state after it. -/
abbrev Call (St A : Type) := St → Logged (A × St)

structure Step (St A : Type) where
  events : List Event
  answer : A
  after : St
  deriving Repr

/-- The call that ended a run, with the events before its fault. -/
structure Stop where
  events : List Event
  fault : Fault
  deriving Repr

structure Run (St A : Type) where
  steps : List (Step St A)
  stop : Option Stop
  deriving Repr

def play {St A : Type} (limit : Threshold) (state : St) : List (Call St A) → Run St A
  | [] => ⟨[], none⟩
  | call :: rest =>
    match (call state).run limit with
    | ⟨events, .error fault⟩ => ⟨[], some ⟨events, fault⟩⟩
    | ⟨events, .ok (answer, after)⟩ =>
      let later := play limit after rest
      ⟨⟨events, answer, after⟩ :: later.steps, later.stop⟩

namespace Session

variable {T K : Type}

def start (table : T) : Session T := ⟨table, []⟩

/-- A call on the current table. -/
def onCurrent {A : Type} (call : Call T A) : Call (Session T) A := fun session => do
  let (answer, table) ← call session.current
  return (answer, { session with current := table })

/-- Puts a copy of the current table on the stack; the answer is the new height. -/
def save : Call (Session T) (Answer K) := fun session =>
  return (.number (session.saved.length + 1),
    { session with saved := session.current :: session.saved })

/-- Exchanges the current table and the topmost copy, if there is one. -/
def swap : Call (Session T) (Answer K) := fun session =>
  return (.done,
    match session.saved with
    | [] => session
    | top :: rest => ⟨top, session.current :: rest⟩)

end Session

namespace LinearTable

/-- `locate` as a call. -/
def locating {K S : Type} [Storage S K] (key : K) : Call (LinearTable K S) (Answer K) :=
  fun table => return (.landing (← table.locate key), table)

end LinearTable

namespace DynamicTable

/-- `rebuild` as a call: the rebuilt table takes the place of the old one. -/
def rebuilding {K : Type} (capacity : Nat) : Call (DynamicTable K) (Answer K) := fun table => do
  let (moves, rebuilt) ← table.rebuild capacity
  return (.rebuilt moves, rebuilt)

end DynamicTable

end SlotTable

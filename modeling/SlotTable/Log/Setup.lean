import SlotTable.Log.Filter

/-!
# Log setup: a backend, installed at most once

A process has at most one log backend. `setUp` does its work on the first call only, and a backend
that is already there stays, with its maximum level.
-/
namespace SlotTable

inductive Backend where
  /-- A backend of the embedding program; it takes every record. -/
  | foreign
  | filtered (filter : Filter)
  deriving DecidableEq, Repr

structure Logging where
  wasSetUp : Bool
  backend : Option Backend
  maxLevel : Threshold
  deriving DecidableEq, Repr

namespace Logging

/-- A process without a backend, in which nothing is logged. -/
def initial : Logging := ⟨false, none, .off⟩

/-- A process whose embedding program has installed its own backend. -/
def embedded (maxLevel : Threshold) : Logging := ⟨false, some .foreign, maxLevel⟩

/-- Installs the filter that `directives` configures, unless a backend is there already. -/
def setUp (logging : Logging) (directives : Option String) : Logging :=
  if logging.wasSetUp then logging
  else
    match logging.backend with
    | some _ => { logging with wasSetUp := true }
    | none =>
      let filter := Filter.configured directives
      ⟨true, some (.filtered filter), filter.maxLevel⟩

/-- Any number of calls of `setUp`. -/
def setUpTimes (logging : Logging) (directives : Option String) : Nat → Logging
  | 0 => logging
  | times + 1 => setUpTimes (logging.setUp directives) directives times

/-- Whether a record of a target and level is logged. -/
def enabled (logging : Logging) (target : String) (level : Level) : Bool :=
  logging.maxLevel.admits level &&
    match logging.backend with
    | none => false
    | some .foreign => true
    | some (.filtered filter) => filter.enabled target level

end Logging

end SlotTable

/-!
# Log levels and thresholds

Levels run from `error`, the most urgent, to `trace`, the most verbose. A threshold admits the
levels up to some level, or none at all.
-/
namespace SlotTable

inductive Level where
  | error | warn | info | debug | trace
  deriving DecidableEq, Repr

namespace Level

/-- Position in the order of growing verbosity, from one. -/
def rank : Level → Nat
  | error => 1
  | warn => 2
  | info => 3
  | debug => 4
  | trace => 5

def name : Level → String
  | error => "error"
  | warn => "warn"
  | info => "info"
  | debug => "debug"
  | trace => "trace"

def all : List Level := [error, warn, info, debug, trace]

end Level

inductive Threshold where
  | off
  | upTo (level : Level)
  deriving DecidableEq, Repr

namespace Threshold

/-- The rank of the most verbose admitted level, zero if there is none. -/
def rank : Threshold → Nat
  | off => 0
  | upTo level => level.rank

def admits (limit : Threshold) (level : Level) : Bool := level.rank ≤ limit.rank

def name : Threshold → String
  | off => "off"
  | upTo level => level.name

def all : List Threshold := off :: Level.all.map upTo

/-- The threshold of a name, in any case of its letters. -/
def named? (text : String) : Option Threshold :=
  all.find? fun limit => limit.name.toList == text.toList.map Char.toLower

/-- The more verbose of two thresholds. -/
def max (a b : Threshold) : Threshold := if a.rank ≤ b.rank then b else a

end Threshold

end SlotTable

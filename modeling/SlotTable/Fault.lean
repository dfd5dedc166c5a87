/-!
# Fault: why an operation can stop without an answer

Storage accesses and the reduction of a hash are partial, two constructors refuse an empty table,
and a fixed table gives up when it runs out of slots. Each cause is one constructor; its wording is
in `message` alone.
-/
namespace SlotTable

inductive Fault where
  | zeroDivisor
  | indexOutOfBounds (length index : Nat)
  | zeroCapacity
  | noSlots
  | slotsExhausted (slots : Nat)
  deriving DecidableEq, Repr

namespace Fault

def message : Fault → String
  | zeroDivisor => "attempt to calculate the remainder with a divisor of zero"
  | indexOutOfBounds length index =>
    s!"index out of bounds: the len is {length} but the index is {index}"
  | zeroCapacity => "HashAdaptor capacity must be non-zero"
  | noSlots => "probe table needs at least one slot"
  | slotsExhausted slots => s!"StaticHashAdaptor with {slots} slots is full, aborting"

/-- Only running out of slots ends the whole program; every other fault ends one operation. -/
def isFatal : Fault → Bool
  | slotsExhausted _ => true
  | _ => false

end Fault

end SlotTable

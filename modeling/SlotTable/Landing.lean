/-!
# Landing: where a walk over the slots stops
-/
namespace SlotTable

inductive Landing where
  /-- The first empty slot on the walk; no key before it matches. -/
  | vacant (slot : Nat)
  /-- A slot whose key matches. -/
  | occupied (slot : Nat)
  /-- Every slot holds a key that does not match. -/
  | exhausted
  deriving DecidableEq, Repr

namespace Landing

def slot? : Landing → Option Nat
  | vacant slot => some slot
  | occupied slot => some slot
  | exhausted => none

theorem slot?_eq_none_iff {landing : Landing} : landing.slot? = none ↔ landing = exhausted := by
  cases landing <;> simp [slot?]

def isOccupied : Landing → Bool
  | occupied _ => true
  | _ => false

def text : Landing → String
  | vacant slot => s!"Vacant({slot})"
  | occupied slot => s!"Occupied({slot})"
  | exhausted => "Exhausted"

end Landing

end SlotTable

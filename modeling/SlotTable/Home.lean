import SlotTable.Fault

/-!
# Home slot: where the walk for a hash begins

A hash is scrambled by one multiplication and one addition modulo 2^64, with the two largest primes
below 2^64 as constants, and the result is reduced to a slot. `homeIndex` is the arithmetic alone;
`home` is the operation, which a capacity of zero stops.
-/
namespace SlotTable

/-- The largest prime below 2^64. -/
def scaleMultiplier : UInt64 := 18446744073709551557

/-- The second largest prime below 2^64. -/
def scaleIncrement : UInt64 := 18446744073709551533

def mix (hash : UInt64) : UInt64 :=
  hash * scaleMultiplier + scaleIncrement

def homeIndex (hash : UInt64) (capacity : Nat) : Nat :=
  (mix hash).toNat % capacity

def home (hash : UInt64) (capacity : Nat) : Except Fault Nat :=
  if capacity = 0 then .error .zeroDivisor else .ok (homeIndex hash capacity)

theorem homeIndex_lt (hash : UInt64) {capacity : Nat} (positive : 0 < capacity) :
    homeIndex hash capacity < capacity :=
  Nat.mod_lt _ positive

end SlotTable

/-!
# IEEE 754 binary64 keys

A key keeps its bit pattern. Comparison follows the standard: a NaN differs from everything,
itself included, and the two zeros are equal. So `==` here is not reflexive, and equal keys may
have different patterns.
-/
namespace SlotTable

structure Binary64 where
  bits : UInt64
  deriving Repr

namespace Binary64

def exponentField (x : Binary64) : Nat := (x.bits >>> 52 &&& 0x7ff).toNat

def fraction (x : Binary64) : Nat := (x.bits &&& 0xfffffffffffff).toNat

def isNegative (x : Binary64) : Bool := x.bits >>> 63 == 1

/-- The pattern without its sign bit. -/
def magnitude (x : Binary64) : UInt64 := x.bits &&& 0x7fffffffffffffff

def isNaN (x : Binary64) : Bool := x.magnitude > 0x7ff0000000000000

def isInfinite (x : Binary64) : Bool := x.magnitude == 0x7ff0000000000000

def isZero (x : Binary64) : Bool := x.magnitude == 0

instance : BEq Binary64 where
  beq x y := !x.isNaN && !y.isNaN && (x.bits == y.bits || (x.isZero && y.isZero))

theorem beq_iff {x y : Binary64} :
    (x == y) = true ↔ x.isNaN = false ∧ y.isNaN = false ∧
      (x = y ∨ (x.isZero = true ∧ y.isZero = true)) := by
  have same : x = y ↔ x.bits = y.bits := by
    cases x
    cases y
    simp
  show (!x.isNaN && !y.isNaN && (x.bits == y.bits || (x.isZero && y.isZero))) = true ↔ _
  simp [same, and_assoc]

theorem beq_symm {x y : Binary64} (equal : (x == y) = true) : (y == x) = true := by
  obtain ⟨numberX, numberY, same⟩ := beq_iff.mp equal
  exact beq_iff.mpr ⟨numberY, numberX, same.imp Eq.symm And.symm⟩

theorem beq_trans {x y z : Binary64} (first : (x == y) = true) (second : (y == z) = true) :
    (x == z) = true := by
  obtain ⟨numberX, -, sameXY⟩ := beq_iff.mp first
  obtain ⟨-, numberZ, sameYZ⟩ := beq_iff.mp second
  refine beq_iff.mpr ⟨numberX, numberZ, ?_⟩
  obtain rfl | ⟨zeroX, zeroY⟩ := sameXY
  · exact sameYZ
  · obtain rfl | ⟨-, zeroZ⟩ := sameYZ
    · exact .inr ⟨zeroX, zeroY⟩
    · exact .inr ⟨zeroX, zeroZ⟩

end Binary64

end SlotTable

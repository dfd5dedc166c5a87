/-!
# Fixed-width integers

The twelve integer types that a key can have: five widths and the machine word, each with and
without a sign. A value is its two's complement bit pattern; `value` reads it as an integer.
-/
namespace SlotTable

inductive Width where
  | w8 | w16 | w32 | w64 | w128 | machine
  deriving DecidableEq, Repr

namespace Width

/-- A machine word has 64 bits. -/
def bits : Width → Nat
  | w8 => 8
  | w16 => 16
  | w32 => 32
  | w64 => 64
  | w128 => 128
  | machine => 64

def suffix : Width → String
  | machine => "size"
  | width => toString width.bits

end Width

structure IntegerType where
  signed : Bool
  width : Width
  deriving DecidableEq, Repr

namespace IntegerType

def bits (type : IntegerType) : Nat := type.width.bits

def name (type : IntegerType) : String :=
  (if type.signed then "i" else "u") ++ type.width.suffix

/-- Every integer type, unsigned ones first. -/
def all : List IntegerType :=
  [false, true].flatMap fun signed =>
    [.w8, .w16, .w32, .w64, .w128, .machine].map fun width => ⟨signed, width⟩

def named? (name : String) : Option IntegerType :=
  all.find? fun type => type.name == name

end IntegerType

structure FixedInt (type : IntegerType) where
  pattern : BitVec type.bits
  deriving DecidableEq, Repr

/-- The unsigned 32-bit integer. -/
abbrev Word32 := FixedInt ⟨false, .w32⟩

namespace FixedInt

def value {type : IntegerType} (n : FixedInt type) : Int :=
  if type.signed then n.pattern.toInt else n.pattern.toNat

/-- The value modulo 2^bits. -/
def ofInt {type : IntegerType} (value : Int) : FixedInt type :=
  ⟨BitVec.ofInt type.bits value⟩

/-- Refuses a value outside the type's range. -/
def ofInt? {type : IntegerType} (value : Int) : Option (FixedInt type) :=
  let n : FixedInt type := ofInt value
  if n.value = value then some n else none

end FixedInt

end SlotTable

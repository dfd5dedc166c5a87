import SlotTable.Bytes

/-!
# FNV-1a, 64 bits

The hash is available twice. `Fnv1a` is a running state that takes its bytes in any number of
writes; `Fnv1a.digest` reads one byte string by position and keeps no state between calls.
-/
namespace SlotTable

/-- A running hash: all that it remembers of the bytes written so far is one word. -/
structure Fnv1a where
  state : UInt64
  deriving DecidableEq, Repr

namespace Fnv1a

def offsetBasis : UInt64 := 0xcbf29ce484222325

def prime : UInt64 := 0x00000100000001b3

/-- The byte is mixed in before the multiplication. -/
def mixByte (state : UInt64) (byte : UInt8) : UInt64 :=
  (state ^^^ byte.toUInt64) * prime

def start : Fnv1a := ⟨offsetBasis⟩

def write (hasher : Fnv1a) (bytes : Bytes) : Fnv1a :=
  ⟨bytes.foldl mixByte hasher.state⟩

def finish (hasher : Fnv1a) : UInt64 := hasher.state

/-- Any number of writes, in order. -/
def writeAll (hasher : Fnv1a) (chunks : List Bytes) : Fnv1a :=
  chunks.foldl write hasher

/-- The state after the bytes from position `index` on. -/
def digestFrom (bytes : Array UInt8) (index : Nat) (state : UInt64) : UInt64 :=
  if inside : index < bytes.size then
    digestFrom bytes (index + 1) (mixByte state bytes[index])
  else state
  termination_by bytes.size - index

/-- The hash of one byte string, read by position from the first byte to the last. -/
def digest (bytes : Bytes) : UInt64 :=
  digestFrom bytes.toArray 0 offsetBasis

def debugText (hasher : Fnv1a) : String :=
  s!"Fnv1aHasher \x7b state: {hasher.state.toNat} \x7d"

end Fnv1a

end SlotTable

/-!
# Bytes: little-endian words

A byte string is a `List UInt8`. `encode` writes the low bytes of a number, least significant byte
first, and `decode` reads a number. `word` is the 64-bit reading that the hash functions use.
-/
namespace SlotTable

/-- A string of octets. -/
abbrev Bytes := List UInt8

namespace Bytes

/-- The `count` low bytes of `value`, least significant first. -/
def encode : (count value : Nat) → Bytes
  | 0, _ => []
  | count + 1, value => UInt8.ofNat value :: encode count (value / 256)

/-- The number whose base-256 digits are the bytes, least significant first. -/
def decode : Bytes → Nat
  | [] => 0
  | byte :: rest => byte.toNat + 256 * decode rest

/-- The first eight bytes as a word; missing bytes count as zero. -/
def word (bytes : Bytes) : UInt64 :=
  UInt64.ofNat (decode (bytes.take 8))

@[simp] theorem length_encode (count value : Nat) : (encode count value).length = count := by
  induction count generalizing value with
  | zero => rfl
  | succ count ih => simp [encode, ih]

end Bytes

end SlotTable

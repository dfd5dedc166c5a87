import Mathlib.Logic.Equiv.Defs
import SlotTable.Hash.Fnv1a

/-!
# FNV-1a: writing in parts, and backwards

A running hash sees one string of bytes, however it is cut into writes (`writeAll_eq_write`), and
the hash of a string read by position is what one write of it leaves (`digest_eq_write`). The prime
is odd, so it has an inverse modulo 2^64: every byte can be taken out of a state again, and writing
a string is a permutation of the states (`writing`).
-/
namespace SlotTable.Fnv1a

section Writes

theorem write_cons (hasher : Fnv1a) (byte : UInt8) (rest : Bytes) :
    hasher.write (byte :: rest) = write ⟨mixByte hasher.state byte⟩ rest := rfl

theorem write_append (hasher : Fnv1a) (front back : Bytes) :
    hasher.write (front ++ back) = (hasher.write front).write back := by
  unfold write
  rw [List.foldl_append]

/-- Writes in order are one write of all their bytes. -/
theorem writeAll_eq_write (hasher : Fnv1a) (chunks : List Bytes) :
    hasher.writeAll chunks = hasher.write chunks.flatten := by
  induction chunks generalizing hasher with
  | nil => rfl
  | cons chunk rest ih =>
    rw [List.flatten_cons, write_append]
    exact ih (hasher.write chunk)

/-- The loop over positions mixes in the bytes that are left. -/
theorem digestFrom_eq (bytes : Array UInt8) (index : Nat) (state : UInt64) :
    digestFrom bytes index state = (bytes.toList.drop index).foldl mixByte state := by
  fun_induction digestFrom bytes index state with
  | case1 index state inside ih =>
    have left : bytes.toList.drop index = bytes[index] :: bytes.toList.drop (index + 1) :=
      List.drop_eq_getElem_cons (l := bytes.toList) inside
    rw [ih, left, List.foldl_cons]
  | case2 index state outside =>
    have none : bytes.toList.drop index = [] := by
      apply List.drop_eq_nil_of_le
      simpa using outside
    rw [none, List.foldl_nil]

theorem digest_eq_write (bytes : Bytes) : digest bytes = (start.write bytes).finish := by
  rw [digest, digestFrom_eq, List.drop_zero]
  rfl

theorem digest_append (front back : Bytes) :
    digest (front ++ back) = (write ⟨digest front⟩ back).finish := by
  rw [digest_eq_write, write_append, digest_eq_write]
  rfl

end Writes

section Backwards

/-- The inverse of the prime modulo 2^64. -/
def primeInverse : UInt64 := 0xce965057aff6957b

/-- The state before that byte was mixed in. -/
def unmixByte (state : UInt64) (byte : UInt8) : UInt64 :=
  (state * primeInverse) ^^^ byte.toUInt64

theorem prime_mul_inverse : prime * primeInverse = 1 := by decide

theorem inverse_mul_prime : primeInverse * prime = 1 := by decide

theorem unmixByte_mixByte (state : UInt64) (byte : UInt8) :
    unmixByte (mixByte state byte) byte = state := by
  unfold unmixByte mixByte
  rw [UInt64.mul_assoc, prime_mul_inverse, UInt64.mul_one, UInt64.xor_assoc, UInt64.xor_self,
    UInt64.xor_zero]

theorem mixByte_unmixByte (state : UInt64) (byte : UInt8) :
    mixByte (unmixByte state byte) byte = state := by
  unfold unmixByte mixByte
  rw [UInt64.xor_assoc, UInt64.xor_self, UInt64.xor_zero, UInt64.mul_assoc, inverse_mul_prime,
    UInt64.mul_one]

/-- The hash before these bytes were written: the last byte is taken out first. -/
def unwrite (hasher : Fnv1a) (bytes : Bytes) : Fnv1a :=
  ⟨bytes.foldr (fun byte state => unmixByte state byte) hasher.state⟩

theorem unwrite_cons (hasher : Fnv1a) (byte : UInt8) (rest : Bytes) :
    hasher.unwrite (byte :: rest) = ⟨unmixByte (hasher.unwrite rest).state byte⟩ := rfl

theorem unwrite_write (hasher : Fnv1a) (bytes : Bytes) :
    (hasher.write bytes).unwrite bytes = hasher := by
  induction bytes generalizing hasher with
  | nil => rfl
  | cons byte rest ih => rw [write_cons, unwrite_cons, ih, unmixByte_mixByte]

theorem write_unwrite (hasher : Fnv1a) (bytes : Bytes) :
    (hasher.unwrite bytes).write bytes = hasher := by
  induction bytes with
  | nil => rfl
  | cons byte rest ih =>
    rw [unwrite_cons, write_cons, mixByte_unmixByte]
    exact ih

/-- Writing a string as a permutation of the states. -/
def writing (bytes : Bytes) : Equiv.Perm Fnv1a where
  toFun hasher := hasher.write bytes
  invFun hasher := hasher.unwrite bytes
  left_inv hasher := unwrite_write hasher bytes
  right_inv hasher := write_unwrite hasher bytes

/-- Different bytes lead from one state to different ones. -/
theorem mixByte_injective (state : UInt64) : Function.Injective (mixByte state) := by
  intro a b equal
  have products := congrArg (· * primeInverse) equal
  simp only [mixByte, UInt64.mul_assoc, prime_mul_inverse, UInt64.mul_one] at products
  exact UInt8.toUInt64_inj.mp ((UInt64.xor_right_inj state).mp products)

end Backwards

end SlotTable.Fnv1a

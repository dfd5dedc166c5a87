import Mathlib.Algebra.Group.Nat.Defs
import SlotTable.Key.Feed

/-!
# What a key feeds

The bytes of an integer are as many as its type is wide, and read as a little-endian number they are
its bit pattern. The bytes of a compound key are those of its parts, one after the other, behind the
length of a list or the number of the case of an optional key.
-/
namespace SlotTable

theorem Bytes.decode_encode (count value : Nat) :
    Bytes.decode (Bytes.encode count value) = value % 256 ^ count := by
  induction count generalizing value with
  | zero => rw [Bytes.encode, Bytes.decode, Nat.pow_zero, Nat.mod_one]
  | succ count ih =>
    have low : (UInt8.ofNat value).toNat = value % 256 := UInt8.toNat_ofNat'
    rw [Bytes.encode, Bytes.decode, low, ih, Nat.pow_succ', Nat.mod_mul]

theorem Width.eight_dvd_bits (width : Width) : 8 ∣ width.bits := by
  cases width <;> decide

/-- An integer is fed as its little-endian bytes. -/
theorem feed_integer {type : IntegerType} (n : FixedInt type) :
    (feed n).length * 8 = type.bits ∧ Bytes.decode (feed n) = n.pattern.toNat := by
  have fed : feed n = Bytes.encode (type.bits / 8) n.pattern.toNat := List.append_nil _
  have whole : type.bits / 8 * 8 = type.bits := Nat.div_mul_cancel type.width.eight_dvd_bits
  have range : 256 ^ (type.bits / 8) = 2 ^ type.bits := by
    have base : 256 = 2 ^ 8 := by decide
    rw [base, ← Nat.pow_mul, Nat.mul_comm, whole]
  constructor
  · rw [fed, Bytes.length_encode, whole]
  · rw [fed, Bytes.decode_encode, range, Nat.mod_eq_of_lt n.pattern.isLt]

theorem feed_text (text : String) : feed text = text.toUTF8.data.toList ++ [0xff] := by
  simp [feed, Feed.chunks]

variable {A B : Type} [Feed A] [Feed B]

theorem feed_pair (first : A) (second : B) : feed (first, second) = feed first ++ feed second :=
  List.flatten_append

theorem feed_none : feed (none : Option A) = Bytes.encode 8 0 := List.append_nil _

theorem feed_some (key : A) : feed (some key) = Bytes.encode 8 1 ++ feed key := rfl

theorem feed_list (keys : List A) :
    feed keys = Bytes.encode 8 keys.length ++ keys.flatMap feed := by
  have parts : (keys.flatMap Feed.chunks).flatten = keys.flatMap feed := by
    induction keys with
    | nil => rfl
    | cons key rest ih => rw [List.flatMap_cons, List.flatten_append, ih, List.flatMap_cons, feed]
  rw [← parts]
  rfl

/-- Bytes in a list are fed as they are, behind their number. -/
theorem feed_bytes (bytes : Bytes) : feed bytes = Bytes.encode 8 bytes.length ++ bytes := by
  have single : (feed : UInt8 → Bytes) = fun byte => [byte] := rfl
  rw [feed_list, single, List.flatMap_singleton']

end SlotTable

import SlotTable.Bytes

/-!
# SipHash-1-3

The keyed hash with one round per input word and three closing rounds, here under the key (0, 0).
The input is cut into words of eight bytes; the last word holds the bytes that remain and, in its
top byte, the length of the input.
-/
namespace SlotTable.Sip13

structure State where
  v0 : UInt64
  v1 : UInt64
  v2 : UInt64
  v3 : UInt64
  deriving DecidableEq, Repr

def rotate (x : UInt64) (bits : UInt64) : UInt64 :=
  x <<< bits ||| x >>> (64 - bits)

def keyed (k0 k1 : UInt64) : State where
  v0 := k0 ^^^ 0x736f6d6570736575
  v1 := k1 ^^^ 0x646f72616e646f6d
  v2 := k0 ^^^ 0x6c7967656e657261
  v3 := k1 ^^^ 0x7465646279746573

def round (s : State) : State :=
  let v0 := s.v0 + s.v1
  let v1 := rotate s.v1 13 ^^^ v0
  let v0 := rotate v0 32
  let v2 := s.v2 + s.v3
  let v3 := rotate s.v3 16 ^^^ v2
  let v0 := v0 + v3
  let v3 := rotate v3 21 ^^^ v0
  let v2 := v2 + v1
  let v1 := rotate v1 17 ^^^ v2
  ⟨v0, v1, rotate v2 32, v3⟩

def absorbWord (s : State) (word : UInt64) : State :=
  let s := round { s with v3 := s.v3 ^^^ word }
  { s with v0 := s.v0 ^^^ word }

/-- The state after all whole words, and the word that closes an input of `length` bytes. -/
def absorb (length : Nat) (s : State) : Bytes → State × UInt64
  | b0 :: b1 :: b2 :: b3 :: b4 :: b5 :: b6 :: b7 :: rest =>
    absorb length (absorbWord s (Bytes.word [b0, b1, b2, b3, b4, b5, b6, b7])) rest
  | tail => (s, Bytes.word tail ||| UInt64.ofNat length <<< 56)

def close (s : State) : UInt64 :=
  let s := round (round (round { s with v2 := s.v2 ^^^ 0xff }))
  s.v0 ^^^ s.v1 ^^^ s.v2 ^^^ s.v3

def digest (bytes : Bytes) : UInt64 :=
  let (s, lastWord) := absorb bytes.length (keyed 0 0) bytes
  close (absorbWord s lastWord)

end SlotTable.Sip13

import SlotTable.Bytes

/-!
# XXH3, 64 bits

The hash under seed zero and its default secret. The length of the input selects one of six
schemes: up to 16 bytes a single mix, up to 240 bytes a sum of sixteen-byte mixes, and beyond that
eight accumulators that take the input in stripes of 64 bytes, sixteen stripes to a block.
-/
namespace SlotTable.Xxh3

def prime32a : UInt64 := 0x9e3779b1
def prime32b : UInt64 := 0x85ebca77
def prime32c : UInt64 := 0xc2b2ae3d
def prime64a : UInt64 := 0x9e3779b185ebca87
def prime64b : UInt64 := 0xc2b2ae3d27d4eb4f
def prime64c : UInt64 := 0x165667b19e3779f9
def prime64d : UInt64 := 0x85ebca77c2b2ae63
def prime64e : UInt64 := 0x27d4eb2f165667c5
def primeMixA : UInt64 := 0x165667919e3779f9
def primeMixB : UInt64 := 0x9fb21c651e98df25

/-- The default secret, 192 bytes. -/
def secret : Array UInt8 := #[
  0xb8, 0xfe, 0x6c, 0x39, 0x23, 0xa4, 0x4b, 0xbe, 0x7c, 0x01, 0x81, 0x2c, 0xf7, 0x21, 0xad, 0x1c,
  0xde, 0xd4, 0x6d, 0xe9, 0x83, 0x90, 0x97, 0xdb, 0x72, 0x40, 0xa4, 0xa4, 0xb7, 0xb3, 0x67, 0x1f,
  0xcb, 0x79, 0xe6, 0x4e, 0xcc, 0xc0, 0xe5, 0x78, 0x82, 0x5a, 0xd0, 0x7d, 0xcc, 0xff, 0x72, 0x21,
  0xb8, 0x08, 0x46, 0x74, 0xf7, 0x43, 0x24, 0x8e, 0xe0, 0x35, 0x90, 0xe6, 0x81, 0x3a, 0x26, 0x4c,
  0x3c, 0x28, 0x52, 0xbb, 0x91, 0xc3, 0x00, 0xcb, 0x88, 0xd0, 0x65, 0x8b, 0x1b, 0x53, 0x2e, 0xa3,
  0x71, 0x64, 0x48, 0x97, 0xa2, 0x0d, 0xf9, 0x4e, 0x38, 0x19, 0xef, 0x46, 0xa9, 0xde, 0xac, 0xd8,
  0xa8, 0xfa, 0x76, 0x3f, 0xe3, 0x9c, 0x34, 0x3f, 0xf9, 0xdc, 0xbb, 0xc7, 0xc7, 0x0b, 0x4f, 0x1d,
  0x8a, 0x51, 0xe0, 0x4b, 0xcd, 0xb4, 0x59, 0x31, 0xc8, 0x9f, 0x7e, 0xc9, 0xd9, 0x78, 0x73, 0x64,
  0xea, 0xc5, 0xac, 0x83, 0x34, 0xd3, 0xeb, 0xc3, 0xc5, 0x81, 0xa0, 0xff, 0xfa, 0x13, 0x63, 0xeb,
  0x17, 0x0d, 0xdd, 0x51, 0xb7, 0xf0, 0xda, 0x49, 0xd3, 0x16, 0x55, 0x26, 0x29, 0xd4, 0x68, 0x9e,
  0x2b, 0x16, 0xbe, 0x58, 0x7d, 0x47, 0xa1, 0xfc, 0x8f, 0xf8, 0xb8, 0xd1, 0x7a, 0xd0, 0x31, 0xce,
  0x45, 0xcb, 0x3a, 0x8f, 0x95, 0x16, 0x04, 0x28, 0xaf, 0xd7, 0xfb, 0xca, 0xbb, 0x4b, 0x40, 0x7e]

/-- The `count` bytes from `offset` on as a little-endian number; a byte past the end is zero. -/
def read (data : Array UInt8) (offset count : Nat) : UInt64 :=
  UInt64.ofNat (Bytes.decode ((List.range count).map fun i => data.getD (offset + i) 0))

def read32 (data : Array UInt8) (offset : Nat) : UInt64 := read data offset 4

def read64 (data : Array UInt8) (offset : Nat) : UInt64 := read data offset 8

/-- The secret's words at two neighbouring offsets, combined. -/
def flip64 (offset : Nat) : UInt64 := read64 secret offset ^^^ read64 secret (offset + 8)

def rotate (x : UInt64) (bits : UInt64) : UInt64 :=
  x <<< bits ||| x >>> (64 - bits)

/-- The bytes of a word in reverse order. -/
def reverseBytes (x : UInt64) : UInt64 :=
  Bytes.word (Bytes.encode 8 x.toNat).reverse

/-- The two halves of the 128-bit product, combined. -/
def foldProduct (a b : UInt64) : UInt64 :=
  let product := a.toNat * b.toNat
  UInt64.ofNat product ^^^ UInt64.ofNat (product >>> 64)

def shiftXor (x : UInt64) (bits : UInt64) : UInt64 := x ^^^ x >>> bits

def avalanche (h : UInt64) : UInt64 :=
  shiftXor (shiftXor h 37 * primeMixA) 32

def strongAvalanche (h : UInt64) : UInt64 :=
  shiftXor (shiftXor (shiftXor h 33 * prime64b) 29 * prime64c) 32

def digestEmpty : UInt64 := strongAvalanche (flip64 56)

/-- One to three bytes: the first, the middle and the last byte and the length make one word. -/
def digestTiny (data : Array UInt8) : UInt64 :=
  let first := read data 0 1
  let middle := read data (data.size / 2) 1
  let last := read data (data.size - 1) 1
  let combined := first <<< 16 ||| middle <<< 24 ||| last ||| UInt64.ofNat data.size <<< 8
  strongAvalanche (combined ^^^ (read32 secret 0 ^^^ read32 secret 4))

/-- Four to eight bytes: the first and the last four make one word. -/
def digestShort (data : Array UInt8) : UInt64 :=
  let combined := read32 data (data.size - 4) + read32 data 0 <<< 32
  let h := combined ^^^ flip64 8
  let h := (h ^^^ rotate h 49 ^^^ rotate h 24) * primeMixB
  let h := (h ^^^ (h >>> 35 + UInt64.ofNat data.size)) * primeMixB
  shiftXor h 28

/-- Nine to sixteen bytes: the first and the last eight, multiplied. -/
def digestPair (data : Array UInt8) : UInt64 :=
  let low := read64 data 0 ^^^ flip64 24
  let high := read64 data (data.size - 8) ^^^ flip64 40
  avalanche (UInt64.ofNat data.size + reverseBytes low + high + foldProduct low high)

/-- Sixteen bytes of input under sixteen bytes of the secret. -/
def mix16 (data : Array UInt8) (offset secretOffset : Nat) : UInt64 :=
  foldProduct (read64 data offset ^^^ read64 secret secretOffset)
    (read64 data (offset + 8) ^^^ read64 secret (secretOffset + 8))

/-- 17 to 128 bytes: chunks of sixteen from both ends towards the middle. -/
def digestMedium (data : Array UInt8) : UInt64 :=
  let pairs := (data.size - 1) / 32 + 1
  let total := (List.range pairs).foldl (fun sum i =>
    sum + mix16 data (16 * i) (32 * i) + mix16 data (data.size - 16 * (i + 1)) (32 * i + 16))
    (UInt64.ofNat data.size * prime64a)
  avalanche total

/-- 129 to 240 bytes: eight chunks, an avalanche, the other chunks, and the last sixteen bytes. -/
def digestLarge (data : Array UInt8) : UInt64 :=
  let opening := (List.range 8).foldl (fun sum i => sum + mix16 data (16 * i) (16 * i))
    (UInt64.ofNat data.size * prime64a)
  let middle := (List.range' 8 (data.size / 16 - 8)).foldl
    (fun sum i => sum + mix16 data (16 * i) (16 * (i - 8) + 3)) (avalanche opening)
  avalanche (middle + mix16 data (data.size - 16) 119)

/-- The eight accumulators of the long scheme. -/
abbrev Lanes := Vector UInt64 8

def startLanes : Lanes :=
  #v[prime32c, prime64a, prime64b, prime64c, prime64d, prime32b, prime64e, prime32a]

/-- The lane that receives the plain word of lane `i`: its neighbour in the pair. -/
def partner (i : Fin 8) : Fin 8 :=
  if i.val % 2 = 0 then i + 1 else i - 1

/-- The lower half of a word times its upper half. -/
def halvesProduct (x : UInt64) : UInt64 :=
  let lower : UInt64 := x &&& 0xffffffff
  let upper : UInt64 := x >>> 32
  lower * upper

/-- Adds one stripe of 64 bytes: a lane gets the product of its keyed word's halves and the plain
word of its partner. -/
def addStripe (data : Array UInt8) (offset secretOffset : Nat) (lanes : Lanes) : Lanes :=
  Vector.ofFn fun i =>
    let keyed := read64 data (offset + 8 * i.val) ^^^ read64 secret (secretOffset + 8 * i.val)
    lanes[i] + read64 data (offset + 8 * (partner i).val) + halvesProduct keyed

def addStripes (data : Array UInt8) (offset count : Nat) (lanes : Lanes) : Lanes :=
  (List.range count).foldl (fun lanes n => addStripe data (offset + 64 * n) (8 * n) lanes) lanes

/-- Closes a block. -/
def scramble (lanes : Lanes) : Lanes :=
  Vector.ofFn fun i =>
    (shiftXor lanes[i] 47 ^^^ read64 secret (128 + 8 * i.val)) * prime32a

/-- More than 240 bytes: whole blocks, the stripes of the last one, and the last 64 bytes. -/
def digestLong (data : Array UInt8) : UInt64 :=
  let blocks := (data.size - 1) / 1024
  let lanes := (List.range blocks).foldl
    (fun lanes n => scramble (addStripes data (1024 * n) 16 lanes)) startLanes
  let lanes := addStripes data (1024 * blocks) ((data.size - 1 - 1024 * blocks) / 64) lanes
  let lanes := addStripe data (data.size - 64) 121 lanes
  let merged := (List.finRange 4).foldl (fun sum i =>
    sum + foldProduct (lanes[2 * i.val] ^^^ read64 secret (11 + 16 * i.val))
      (lanes[2 * i.val + 1] ^^^ read64 secret (19 + 16 * i.val)))
    (UInt64.ofNat data.size * prime64a)
  avalanche merged

def digest (bytes : Bytes) : UInt64 :=
  let data := bytes.toArray
  if data.size = 0 then digestEmpty
  else if data.size ≤ 3 then digestTiny data
  else if data.size ≤ 8 then digestShort data
  else if data.size ≤ 16 then digestPair data
  else if data.size ≤ 128 then digestMedium data
  else if data.size ≤ 240 then digestLarge data
  else digestLong data

end SlotTable.Xxh3

import SlotTable.Hash.Fnv1a
import SlotTable.Hash.Sip13
import SlotTable.Hash.Xxh3
import SlotTable.Key.Feed
import SlotTable.Key.Numbered

/-!
# Hash schemes

`ByteScheme` hashes the bytes that a key writes; `NumberScheme` computes with the key's number. Both
turn a key of any suitable type into 64 bits.
-/
namespace SlotTable

inductive ByteScheme where
  | sip13
  | fnv1a
  | xxh3
  deriving DecidableEq, Repr

namespace ByteScheme

def hashKey {K : Type} [Feed K] (scheme : ByteScheme) (key : K) : UInt64 :=
  match scheme with
  | sip13 => Sip13.digest (feed key)
  | fnv1a => (Fnv1a.start.writeAll (Feed.chunks key)).finish
  | xxh3 => Xxh3.digest (feed key)

/-- The scheme's name in a table's debug text. -/
def debugText : ByteScheme → String
  | sip13 => "StdHash"
  | fnv1a => "Fnv1aHash"
  | xxh3 => "Xxh3Hash"

end ByteScheme

inductive NumberScheme where
  | identity
  | constant (hash : UInt64)
  | remainder (modulus : UInt64)
  | multiple (factor : UInt64)
  deriving DecidableEq, Repr

def NumberScheme.hashKey {K : Type} [Numbered K] (scheme : NumberScheme) (key : K) : UInt64 :=
  match scheme with
  | identity => Numbered.number key
  | constant hash => hash
  | remainder modulus => Numbered.number key % modulus
  | multiple factor => Numbered.number key * factor

end SlotTable

import SlotTable.Fault
import SlotTable.Landing
import SlotTable.Log.Level
import SlotTable.Text.Hex

/-!
# Log events

One constructor for each kind of record that tables emit, with what the record tells. Level, target
and text follow from the event and make up the record.
-/
namespace SlotTable

inductive Event where
  | probed (hash : UInt64) (slots : Nat) (landing : Landing)
  | inserted (slot : Nat)
  | erased (slot : Nat)
  | cleared (slots : Nat)
  | dynamicCreated (capacity : Nat)
  | dynamicFull (capacity : Nat)
  | fixedCleared (slots : Nat)
  | fixedFull (slots : Nat)
  deriving DecidableEq, Repr

namespace Event

def level : Event → Level
  | probed .. => .trace
  | inserted _ => .debug
  | erased _ => .debug
  | cleared _ => .debug
  | dynamicCreated _ => .debug
  | dynamicFull _ => .warn
  | fixedCleared _ => .debug
  | fixedFull _ => .error

/-- The part of the library that emits the event. -/
def target : Event → String
  | probed .. => "hash_adaptor::container::probe"
  | inserted _ => "hash_adaptor::container::probe"
  | erased _ => "hash_adaptor::container::probe"
  | cleared _ => "hash_adaptor::container::probe"
  | dynamicCreated _ => "hash_adaptor::container::hash_adaptor"
  | dynamicFull _ => "hash_adaptor::container::hash_adaptor"
  | fixedCleared _ => "hash_adaptor::container::static_hash_adaptor"
  | fixedFull _ => "hash_adaptor::container::static_hash_adaptor"

/-- A hash is written with all its sixteen hexadecimal digits. -/
def message : Event → String
  | probed hash slots landing =>
    s!"Probe for hash 0x{hexDigits 16 hash.toNat} over {slots} slots landed at {landing.text}"
  | inserted slot => s!"Inserted key into slot {slot}"
  | erased slot => s!"Erased key from slot {slot}"
  | cleared slots => s!"Cleared all {slots} slots"
  | dynamicCreated capacity => s!"Creating HashAdaptor with capacity {capacity}"
  | dynamicFull capacity => s!"HashAdaptor is full, rejecting insert (capacity {capacity})"
  | fixedCleared slots => s!"Cleared StaticHashAdaptor with {slots} slots"
  | fixedFull slots => (Fault.slotsExhausted slots).message

end Event

/-- What a log backend is given. -/
structure Record where
  level : Level
  target : String
  text : String
  deriving DecidableEq, Repr

def Event.record (event : Event) : Record := ⟨event.level, event.target, event.message⟩

end SlotTable

import Mathlib.Logic.Function.Basic
import SlotTable.Proofs.Walk.Stop
import SlotTable.Table.Operation

/-!
# Rules: a table apart from its slots

What never changes in a table: its capacity, where the walk for a key begins, when keys match, and
what an insert without room is answered. Of a hash the rules keep the home slot alone. A state is
the function from slots to keys; every operation on it is plain and faults only where the rules say.
-/
namespace SlotTable

variable {K : Type}

/-- What a table without room does with an insert: it returns no slot, an error, or not at all. -/
inductive Refusal where
  | silent | reported | fatal
  deriving DecidableEq, Repr

def Refusal.answer (capacity : Nat) : Refusal → Except Fault (Answer K)
  | silent => .ok (.slot none)
  | reported => .ok (.rejected (.full capacity))
  | fatal => .error (.slotsExhausted capacity)

def Op.isClear : Op K → Bool
  | .clear => true
  | _ => false

abbrev Slots (K : Type) := Nat → Option K

structure Rules (K : Type) where
  capacity : Nat
  home : K → Nat
  matching : K → K → Bool
  refusal : Refusal
  home_lt : ∀ key, home key < capacity

namespace Rules

variable (rules : Rules K)

/-- The rules of a table that is made with a hash. -/
def ofHash {capacity : Nat} (positive : 0 < capacity) (hash : K → UInt64)
    (matching : K → K → Bool) (refusal : Refusal) : Rules K where
  capacity := capacity
  home key := homeIndex (hash key) capacity
  matching := matching
  refusal := refusal
  home_lt key := homeIndex_lt (hash key) positive

/-- How far along the walk for a key a slot is. -/
def depth (key : K) (index : Nat) : Nat := distance rules.capacity (rules.home key) index

def landing (slots : Slots K) (key : K) : Landing :=
  Walk.stop slots rules.matching key (visitOrder (rules.home key) rules.capacity)

abbrev Passes (slots : Slots K) (key : K) (index : Nat) : Prop :=
  Walk.Passes slots rules.matching key index

abbrev Matches (slots : Slots K) (key : K) (index : Nat) : Prop :=
  Walk.Matches slots rules.matching key index

/-- The walk for a key comes as far as a slot. -/
abbrev Reaches (slots : Slots K) (key : K) (index : Nat) : Prop :=
  Walk.Reaches (· < rules.capacity) (rules.depth key) slots rules.matching key index

def indexOf (slots : Slots K) (key : K) : Option Nat :=
  match rules.landing slots key with
  | .occupied index => some index
  | _ => none

def contains (slots : Slots K) (key : K) : Bool := (rules.landing slots key).isOccupied

def size (slots : Slots K) : Nat :=
  (List.range rules.capacity).countP fun index => (slots index).isSome

def entries (slots : Slots K) : List (Nat × K) :=
  (List.range rules.capacity).filterMap fun index =>
    (slots index).map fun key => (index, key)

/-- A call; only an insert without room may have no answer. -/
def perform (slots : Slots K) : Op K → Except Fault (Answer K × Slots K)
  | .insert key =>
    match rules.landing slots key with
    | .vacant index => .ok (.slot (some index), Function.update slots index (some key))
    | .occupied index => .ok (.slot (some index), slots)
    | .exhausted => (rules.refusal.answer rules.capacity).map fun answer => (answer, slots)
  | .erase key =>
    match rules.landing slots key with
    | .occupied index => .ok (.slot (some index), Function.update slots index none)
    | _ => .ok (.slot none, slots)
  | .slotFor key => .ok (.slot (rules.landing slots key).slot?, slots)
  | .indexOf key => .ok (.slot (rules.indexOf slots key), slots)
  | .contains key => .ok (.flag (rules.contains slots key), slots)
  | .count key => .ok (.number (rules.contains slots key).toNat, slots)
  | .size => .ok (.number (rules.size slots), slots)
  | .isEmpty => .ok (.flag (rules.size slots == 0), slots)
  | .isFull => .ok (.flag (rules.size slots == rules.capacity), slots)
  | .capacity => .ok (.number rules.capacity, slots)
  | .clear => .ok (.done, fun _ => none)
  | .entries => .ok (.entries (rules.entries slots), slots)

end Rules

end SlotTable

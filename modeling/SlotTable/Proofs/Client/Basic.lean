import SlotTable.Proofs.Table.Trace

/-!
# A client with values beside the table

Tables store keys only. A client keeps its values in an array of its own, one entry for each slot of
the table: it writes the entry of the slot that an insert is answered with and reads the entry of
the slot in which a key is found. What the array holds at first does not matter, and nothing is ever
taken out of it.
-/
namespace SlotTable

variable {T K V : Type}

structure Client (T V : Type) where
  table : T
  values : List V

inductive ClientOp (K V : Type) where
  | put (key : K) (value : V)
  | get (key : K)
  | del (key : K)
  | clear

inductive ClientAnswer (K V : Type) where
  /-- What the table answered. -/
  | table (answer : Answer K)
  /-- What a `get` read, if it found its key. -/
  | value (found : Option V)

/-- The calls of a client with their answers, the first one first. -/
abbrev ClientHistory (K V : Type) := List (ClientOp K V × ClientAnswer K V)

namespace Client

def fetch (values : List V) (index : Nat) : Except Fault V :=
  match values[index]? with
  | some value => .ok value
  | none => .error (.indexOutOfBounds values.length index)

def assign (values : List V) (index : Nat) (value : V) : Except Fault (List V) :=
  if index < values.length then .ok (values.set index value)
  else .error (.indexOutOfBounds values.length index)

def put [Table T K] (route : Route) (client : Client T V) (key : K) (value : V) :
    Logged (ClientAnswer K V × Client T V) := do
  let (answer, table) ← (Op.insert key).perform route client.table
  match answer with
  | .slot (some index) => do
    let values ← assign client.values index value
    return (.table answer, ⟨table, values⟩)
  | _ => return (.table answer, ⟨table, client.values⟩)

def get [Table T K] (route : Route) (client : Client T V) (key : K) :
    Logged (ClientAnswer K V × Client T V) := do
  let (answer, table) ← (Op.indexOf key).perform route client.table
  match answer with
  | .slot (some index) => do
    let value ← fetch client.values index
    return (.value (some value), ⟨table, client.values⟩)
  | _ => return (.value none, ⟨table, client.values⟩)

/-- A call that leaves the values to themselves. -/
def pass [Table T K] (route : Route) (client : Client T V) (op : Op K) :
    Logged (ClientAnswer K V × Client T V) := do
  let (answer, table) ← op.perform route client.table
  return (.table answer, ⟨table, client.values⟩)

def perform [Table T K] (route : Route) (client : Client T V) :
    ClientOp K V → Logged (ClientAnswer K V × Client T V)
  | .put key value => client.put route key value
  | .get key => client.get route key
  | .del key => client.pass route (.erase key)
  | .clear => client.pass route .clear

/-- What can happen to a client that begins with a new table and one value for each slot. -/
inductive Trace [Table T K] (create : Logged T) : ClientHistory K V → Client T V → Prop where
  | created {table : T} {limit : Threshold} {values : List V}
      (made : create.result limit = .ok table)
      (sized : values.length = KeyIndex.capacity table) : Trace create [] ⟨table, values⟩
  | step {history : ClientHistory K V} {client after : Client T V} {answer : ClientAnswer K V}
      (before : Trace create history client) (route : Route) (op : ClientOp K V)
      (limit : Threshold)
      (performed : (client.perform route op).result limit = .ok (answer, after)) :
      Trace create (history ++ [(op, answer)]) after

/-- What a client finds under a key, by either route and under every threshold; the client is left
as it is. -/
def Finds [Table T K] (client : Client T V) (key : K) (found : Option V) : Prop :=
  ∀ (route : Route) (limit : Threshold),
    (client.get route key).result limit = .ok (.value found, client)

end Client

end SlotTable

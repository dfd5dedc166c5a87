import Mathlib.Data.Finset.Insert
import Mathlib.Data.Finset.Erase
import SlotTable.Proofs.Log.Text
import SlotTable.Proofs.Log.Uniform

/-!
# Replaying a log

From the texts of a log alone a reader can keep track of the occupied slots: an insertion adds the
slot that it names, an erasure takes it out, and a clearing takes all out. The replay breaks off at
a record that cannot be true, an insertion into an occupied slot or an erasure from an empty one.
Walks and remarks change nothing, so a replay needs no more than the records down to the debug
level. To replay the records of some events is to replay the events (`Record.replay?_map_record`).
-/
namespace SlotTable

namespace Event

/-- An event that is about no walk and no slot. -/
def isRemark : Event → Bool
  | dynamicCreated _ => true
  | dynamicFull _ => true
  | fixedCleared _ => true
  | fixedFull _ => true
  | _ => false

def isProbe : Event → Bool
  | probed .. => true
  | _ => false

/-- The occupied slots after an event, if the event can be true of those before it. -/
def mark? (occupied : Finset Nat) : Event → Option (Finset Nat)
  | inserted slot => if slot ∈ occupied then none else some (insert slot occupied)
  | erased slot => if slot ∈ occupied then some (occupied.erase slot) else none
  | cleared _ => some ∅
  | _ => some occupied

variable {event : Event} {occupied : Finset Nat}

theorem mark?_inserted {slot : Nat} (empty : slot ∉ occupied) :
    (inserted slot).mark? occupied = some (insert slot occupied) := if_neg empty

theorem mark?_erased {slot : Nat} (present : slot ∈ occupied) :
    (erased slot).mark? occupied = some (occupied.erase slot) := if_pos present

theorem mark?_of_isRemark (remark : event.isRemark = true) :
    event.mark? occupied = some occupied := by
  cases event <;> first | rfl | cases remark

theorem isProbe_of_isRemark (remark : event.isRemark = true) : event.isProbe = false := by
  cases event <;> first | rfl | cases remark

/-- A threshold that admits the debug level keeps back no event that tells of a slot. -/
theorem mark?_of_not_admitted {limit : Threshold} (verbose : limit.admits .debug = true)
    (kept : limit.admits event.level = false) : event.mark? occupied = some occupied := by
  cases event with
  | inserted slot => exact absurd (verbose.symm.trans kept) (by decide)
  | erased slot => exact absurd (verbose.symm.trans kept) (by decide)
  | cleared slots => exact absurd (verbose.symm.trans kept) (by decide)
  | _ => rfl

end Event

/-- The occupied slots after the events of a log, if each can be true at its place. -/
def replay? (start : Finset Nat) (events : List Event) : Option (Finset Nat) :=
  events.foldlM Event.mark? start

variable {start middle : Finset Nat} {first events : List Event} {limit : Threshold}

theorem replay?_cons {event : Event} (marked : event.mark? start = some middle) :
    replay? start (event :: events) = replay? middle events := by
  rw [replay?, List.foldlM_cons, marked]
  rfl

theorem replay?_append (replayed : replay? start first = some middle) (second : List Event) :
    replay? start (first ++ second) = replay? middle second := by
  unfold replay? at replayed ⊢
  rw [List.foldlM_append, replayed]
  rfl

theorem replay?_of_unmarked (unmarked : ∀ event ∈ events, ∀ occupied,
    event.mark? occupied = some occupied) : replay? start events = some start := by
  induction events with
  | nil => rfl
  | cons event rest ih =>
    obtain ⟨first, later⟩ := List.forall_mem_cons.mp unmarked
    rw [replay?_cons (first start)]
    exact ih later

theorem replay?_remarks (remarks : ∀ event ∈ events, event.isRemark = true) :
    replay? start events = some start :=
  replay?_of_unmarked fun event member _ => Event.mark?_of_isRemark (remarks event member)

/-- The replay of a log is the same with and without the walks. -/
theorem replay?_admitted (verbose : limit.admits .debug = true) (start : Finset Nat)
    (events : List Event) : replay? start (admitted limit events) = replay? start events := by
  induction events generalizing start with
  | nil => rfl
  | cons event rest ih =>
    rw [admitted, List.filter_cons]
    cases admits : limit.admits event.level with
    | true =>
      rw [if_pos rfl, replay?, replay?, List.foldlM_cons, List.foldlM_cons]
      exact bind_congr fun middle => ih middle
    | false =>
      rw [if_neg Bool.false_ne_true, replay?_cons (Event.mark?_of_not_admitted verbose admits)]
      exact ih start

namespace Record

/-- The occupied slots after a record, if what its text tells can be true of those before it. -/
def mark? (occupied : Finset Nat) (record : Record) : Option (Finset Nat) :=
  match numberBetween? "Inserted key into slot " "" record.text,
    numberBetween? "Erased key from slot " "" record.text,
    numberBetween? "Cleared all " " slots" record.text with
  | some slot, _, _ => if slot ∈ occupied then none else some (insert slot occupied)
  | _, some slot, _ => if slot ∈ occupied then some (occupied.erase slot) else none
  | _, _, some _ => some ∅
  | _, _, _ => some occupied

/-- A record whose text begins like the report of a walk. -/
def isProbe (record : Record) : Bool := "Probe for hash".toList.isPrefixOf record.text.toList

/-- The occupied slots after the records of a log, if each can be true at its place. -/
def replay? (start : Finset Nat) (records : List Record) : Option (Finset Nat) :=
  records.foldlM mark? start

end Record

namespace Event

theorem mark?_record (event : Event) (occupied : Finset Nat) :
    event.record.mark? occupied = event.mark? occupied := by
  have inserted : numberBetween? "Inserted key into slot " "" event.record.text = _ :=
    numberBetween?_message (nofun : Kind.inserted ≠ .probed) event
  have erased : numberBetween? "Erased key from slot " "" event.record.text = _ :=
    numberBetween?_message (nofun : Kind.erased ≠ .probed) event
  have cleared : numberBetween? "Cleared all " " slots" event.record.text = _ :=
    numberBetween?_message (nofun : Kind.cleared ≠ .probed) event
  rw [Record.mark?, inserted, erased, cleared]
  cases event <;> rfl

theorem isProbe_record (event : Event) : event.record.isProbe = event.isProbe := by
  have opens : ∀ kind : Kind, "Probe for hash".toList <+: kind.opening.toList ∨
      kind.opening.toList <+: "Probe for hash".toList ↔ kind = .probed := by
    intro kind
    cases kind <;> decide
  have begins : "Probe for hash".toList <+: event.message.toList ↔ event.kind = .probed := by
    refine Iff.trans ⟨?_, ?_⟩ (opens event.kind)
    · exact fun starts => List.prefix_or_prefix_of_prefix starts (message_begins event)
    · intro either
      have front : "Probe for hash".toList <+: event.kind.opening.toList := by
        rw [(opens event.kind).mp either]
        decide
      exact front.trans (message_begins event)
  rw [Bool.eq_iff_iff, Record.isProbe, List.isPrefixOf_iff_prefix]
  refine begins.trans ?_
  cases event <;> simp [kind, isProbe]

end Event

/-- Replaying the records of events is replaying the events. -/
theorem Record.replay?_map_record (start : Finset Nat) (events : List Event) :
    Record.replay? start (events.map Event.record) = SlotTable.replay? start events := by
  rw [Record.replay?, SlotTable.replay?, List.foldlM_map]
  simp only [Event.mark?_record]

end SlotTable

import SlotTable.Proofs.Table.Trace

/-!
# Transcripts: what a run shows its caller

A transcript has the answers of a run, each with the keys listed after it, and the fault that ended
the run. It mentions no table, so the runs of different kinds of table can be compared. A ruled
table has the transcript that its rules give (`Ruled.transcript_play`), whatever routes the calls
take and whatever the threshold.
-/
namespace SlotTable

variable {T K : Type}

structure Transcript (K : Type) where
  steps : List (Answer K × Except Fault (List (Nat × K)))
  fault : Option Fault

def Run.transcript [Table T K] (run : Run T (Answer K)) : Transcript K where
  steps := run.steps.map fun step => (step.answer, Table.entries step.after)
  fault := run.stop.map Stop.fault

/-- The transcript of calls on a table as its constructor leaves it. -/
def transcript [Table T K] (create : Logged T) (limit : Threshold) (calls : List (Route × Op K)) :
    Except Fault (Transcript K) := do
  let table ← create.result limit
  return (play limit table (calls.map fun call => call.2.perform call.1)).transcript

/-- The transcript that the rules give, from slots on. -/
def Rules.transcript (rules : Rules K) (slots : Slots K) : List (Op K) → Transcript K
  | [] => ⟨[], none⟩
  | op :: rest =>
    match rules.perform slots op with
    | .error fault => ⟨[], some fault⟩
    | .ok (answer, after) =>
      let later := rules.transcript after rest
      ⟨(answer, .ok (rules.entries after)) :: later.steps, later.fault⟩

namespace Rules

variable {rules : Rules K} {slots after : Slots K} {op : Op K} {answer : Answer K}

theorem transcript_cons_ok (performed : rules.perform slots op = .ok (answer, after))
    (rest : List (Op K)) :
    rules.transcript slots (op :: rest) =
      ⟨(answer, .ok (rules.entries after)) :: (rules.transcript after rest).steps,
        (rules.transcript after rest).fault⟩ := by
  rw [transcript, performed]

theorem transcript_cons_error {fault : Fault} (performed : rules.perform slots op = .error fault)
    (rest : List (Op K)) : rules.transcript slots (op :: rest) = ⟨[], some fault⟩ := by
  rw [transcript, performed]

end Rules

section Play

variable [Table T K] {limit : Threshold} {table after : T} {route : Route} {op : Op K}
  {answer : Answer K} {rest : List (Call T (Answer K))}

theorem transcript_play_ok
    (performed : (op.perform route table).result limit = .ok (answer, after)) :
    (play limit table (op.perform route :: rest)).transcript =
      ⟨(answer, Table.entries after) :: (play limit after rest).transcript.steps,
        (play limit after rest).transcript.fault⟩ := by
  rcases ran : (op.perform route table).run limit with ⟨events, result⟩
  rw [Logged.result, ran] at performed
  cases performed
  simp only [play, ran]
  rfl

theorem transcript_play_error {fault : Fault}
    (performed : (op.perform route table).result limit = .error fault) :
    (play limit table (op.perform route :: rest)).transcript = ⟨[], some fault⟩ := by
  rcases ran : (op.perform route table).run limit with ⟨events, result⟩
  rw [Logged.result, ran] at performed
  cases performed
  simp only [play, ran]
  rfl

end Play

section Ruled

variable [Table T K] [Ruled T K] {rules : Rules K} {start : Slots K} {create : Logged T}

theorem Ruled.transcript_play {slots : Slots K} {table : T}
    (shows : Ruled.Shows rules slots table) (limit : Threshold) (calls : List (Route × Op K)) :
    (play limit table (calls.map fun call => call.2.perform call.1)).transcript =
      rules.transcript slots (calls.map Prod.snd) := by
  induction calls generalizing slots table with
  | nil => rfl
  | cons call rest ih =>
    obtain ⟨route, op⟩ := call
    simp only [List.map_cons]
    cases ruled : rules.perform slots op with
    | error fault =>
      have performed := Ruled.perform_error shows ruled route limit
      rw [transcript_play_error performed, Rules.transcript_cons_error ruled]
    | ok pair =>
      obtain ⟨answer, after⟩ := pair
      obtain ⟨later, performed, shown, -⟩ := Ruled.perform_ok shows ruled route limit
      rw [transcript_play_ok performed, Rules.transcript_cons_ok ruled, ih shown,
        Ruled.entries shown]

/-- A new table has the transcript that the rules of its constructor give. -/
theorem Ruled.transcript_eq {limit : Threshold} {fresh : T}
    (made : create.result limit = .ok fresh) (shows : Ruled.Shows rules start fresh)
    (calls : List (Route × Op K)) :
    transcript create limit calls = .ok (rules.transcript start (calls.map Prod.snd)) := by
  rw [transcript, made, ok_bind, Ruled.transcript_play shows]
  rfl

end Ruled

end SlotTable

import SlotTable.Proofs.Rules.Entries
import SlotTable.Proofs.Rules.Lawful
import SlotTable.Proofs.Table.Trace

/-!
# The newest copy of a key is the nearest

After an erase has broken a chain, a key that is hidden behind the hole can be stored again, so a
table may hold several copies of it. The history says when each copy was written: by the insert that
was answered with its slot while the slot was empty. A walk that stores a key has passed no copy of
it, so every new copy is nearer to the home of the key than all older ones, and a walk for the key
finds the newest.
-/
namespace SlotTable

open Function (update update_self update_of_ne)

variable {T K : Type}

/-- What a call at some time does to the times at which the slots were written. An insert that is
answered with a slot already written found its key there and writes nothing. -/
def stamp (times : Nat → Option Nat) : (Op K × Answer K) × Nat → Nat → Option Nat
  | ((.insert _, .slot (some index)), time) =>
    if times index = none then update times index (some time) else times
  | ((.erase _, .slot (some index)), _) => update times index none
  | ((.clear, _), _) => fun _ => none
  | _ => times

/-- For each slot that was written and not emptied since, the number of the call that wrote it. -/
def stamps (history : History K) : Nat → Option Nat :=
  history.zipIdx.foldl stamp fun _ => none

/-- The keys listed for a table were written when the history says; of two equal keys the one
written later is nearer to their home, and a key is found and erased where its newest copy is. -/
structure NewestCopies [Table T K] (capacity : Nat) (hash : K → UInt64) (matching : K → K → Bool)
    (history : History K) (table : T) (listed : List (Nat × K)) : Prop where
  written : ∀ index key, (index, key) ∈ listed → ∃ time, stamps history index = some time ∧
    history[time]? = some (.insert key, .slot (some index))
  apart : ∀ i j time, stamps history i = some time → stamps history j = some time → i = j
  nearer : ∀ i x j y earlier later, (i, x) ∈ listed → (j, y) ∈ listed → matching x y = true →
    stamps history i = some earlier → stamps history j = some later → earlier < later →
    homeIndex (hash x) capacity = homeIndex (hash y) capacity ∧
      distance capacity (homeIndex (hash x) capacity) j <
        distance capacity (homeIndex (hash x) capacity) i
  newest : ∀ key index, Replies table (.indexOf key) (.ok (.slot (some index))) →
    ∃ stored time, (index, stored) ∈ listed ∧ matching stored key = true ∧
      stamps history index = some time ∧
      ∀ other copy earlier, (other, copy) ∈ listed → matching copy key = true → other ≠ index →
        stamps history other = some earlier → earlier < time
  removed : ∀ key index, Replies table (.indexOf key) (.ok (.slot (some index))) →
    ∀ (route : Route) (limit : Threshold), ∃ after,
      ((Op.erase key).perform route table).result limit = .ok (.slot (some index), after) ∧
      Replies after .entries (.ok (.entries (listed.filter fun entry => entry.1 != index)))

theorem stamps_snoc (history : History K) (call : Op K × Answer K) :
    stamps (history ++ [call]) = stamp (stamps history) (call, history.length) := by
  simp [stamps, List.zipIdx_append]

/-- Two functions that are defined in the same places stay so when both are changed at one. -/
theorem isSome_update_congr {A B : Type} {first : Nat → Option A} {second : Nat → Option B}
    {a : Option A} {b : Option B} (same : ∀ index, (first index).isSome = (second index).isSome)
    (changed : Nat) (alike : a.isSome = b.isSome) (index : Nat) :
    (update first changed a index).isSome = (update second changed b index).isSome := by
  by_cases here : index = changed
  · subst index
    rw [update_self, update_self]
    exact alike
  · rw [update_of_ne here, update_of_ne here]
    exact same index

theorem getElem?_snoc_of_some {A : Type} {list : List A} {entry last : A} {time : Nat}
    (there : list[time]? = some entry) : (list ++ [last])[time]? = some entry := by
  obtain ⟨inside, -⟩ := List.getElem?_eq_some_iff.mp there
  rw [List.getElem?_append_left inside, there]

namespace Rules

variable {rules : Rules K} {slots after : Slots K} {history : History K} {op : Op K}
  {answer : Answer K} {key : K} {index : Nat}

theorem stamp_of_quiet (times : Nat → Option Nat) (time : Nat) (quiet : Quiet op answer) :
    stamp times ((op, answer), time) = times := by
  cases op with
  | insert key =>
    cases answer with
    | slot index =>
      cases index with
      | none => rfl
      | some index => exact absurd quiet id
    | _ => rfl
  | erase key =>
    cases answer with
    | slot index =>
      cases index with
      | none => rfl
      | some index => exact absurd quiet id
    | _ => rfl
  | clear => exact absurd quiet id
  | _ => rfl

/-- A stored key with the number of the call that wrote it. -/
structure Copy (history : History K) (slots : Slots K) (index : Nat) (key : K) (time : Nat) :
    Prop where
  held : slots index = some key
  stamped : stamps history index = some time

/-- The slots are written as the history says, the newer copies of a key nearer to its home. -/
structure Dated (rules : Rules K) (history : History K) (slots : Slots K) : Prop where
  inside : ∀ index key, slots index = some key → index < rules.capacity
  occupied : ∀ index, (stamps history index).isSome = (slots index).isSome
  written : ∀ index key time, Copy history slots index key time →
    history[time]? = some (.insert key, .slot (some index))
  nearer : ∀ i x earlier j y later, Copy history slots i x earlier → Copy history slots j y later →
    rules.matching x y = true → earlier < later → rules.depth x j < rules.depth x i

theorem Dated.empty (rules : Rules K) : Dated rules [] fun _ => none where
  inside := by
    intro index key held
    cases held
  occupied := by
    intro index
    rfl
  written := by
    intro index key time copy
    cases copy.held
  nearer := by
    intro i x earlier j y later copy
    cases copy.held

section Dated

variable (dated : Dated rules history slots)
include dated

theorem Dated.exists_copy (held : slots index = some key) :
    ∃ time, Copy history slots index key time := by
  have stamped := dated.occupied index
  rw [held, Option.isSome_some, Option.isSome_iff_exists] at stamped
  obtain ⟨time, stamped⟩ := stamped
  exact ⟨time, held, stamped⟩

theorem Dated.stamps_eq_none (empty : slots index = none) : stamps history index = none := by
  have stamped := dated.occupied index
  rw [empty] at stamped
  simpa using stamped

theorem Dated.time_lt {time : Nat} (copy : Copy history slots index key time) :
    time < history.length :=
  (List.getElem?_eq_some_iff.mp (dated.written index key time copy)).1

theorem Dated.apart {i j time : Nat} (first : stamps history i = some time)
    (second : stamps history j = some time) : i = j := by
  have wrote : ∀ slot, stamps history slot = some time →
      ∃ key, history[time]? = some (.insert key, .slot (some slot)) := by
    intro slot stamped
    cases held : slots slot with
    | none =>
      rw [dated.stamps_eq_none held] at stamped
      cases stamped
    | some key => exact ⟨key, dated.written slot key time ⟨held, stamped⟩⟩
  obtain ⟨x, wroteX⟩ := wrote i first
  obtain ⟨y, wroteY⟩ := wrote j second
  rw [wroteX] at wroteY
  cases wroteY
  rfl

/-- Calls after which there are only copies that were there before keep the dates. -/
theorem Dated.of_older (call : Op K × Answer K)
    (occupied : ∀ index, (stamps (history ++ [call]) index).isSome = (after index).isSome)
    (older : ∀ index key time, Copy (history ++ [call]) after index key time →
      Copy history slots index key time) : Dated rules (history ++ [call]) after where
  inside := by
    intro index key held
    have stamped := occupied index
    rw [held, Option.isSome_some, Option.isSome_iff_exists] at stamped
    obtain ⟨time, stamped⟩ := stamped
    exact dated.inside index key (older index key time ⟨held, stamped⟩).held
  occupied := occupied
  written := by
    intro index key time copy
    exact getElem?_snoc_of_some (dated.written index key time (older index key time copy))
  nearer := by
    intro i x earlier j y later first second equal less
    have oldX := older i x earlier first
    have oldY := older j y later second
    exact dated.nearer i x earlier j y later oldX oldY equal less

theorem Dated.unwritten (call : Op K × Answer K)
    (same : stamps (history ++ [call]) = stamps history) :
    Dated rules (history ++ [call]) slots := by
  refine dated.of_older call ?_ ?_
  · rw [same]
    exact dated.occupied
  · intro index key time copy
    exact ⟨copy.held, same ▸ copy.stamped⟩

theorem Dated.erased (key : K) (index : Nat) :
    Dated rules (history ++ [(.erase key, .slot (some index))]) (update slots index none) := by
  have times : stamps (history ++ [(.erase key, .slot (some index))]) =
      update (stamps history) index none := stamps_snoc ..
  refine dated.of_older _ ?_ ?_
  · rw [times]
    exact isSome_update_congr dated.occupied index rfl
  · intro slot stored time copy
    obtain ⟨held, stamped⟩ := copy
    have different : slot ≠ index := by
      intro same
      subst slot
      rw [update_self] at held
      cases held
    rw [update_of_ne different] at held
    rw [times, update_of_ne different] at stamped
    exact ⟨held, stamped⟩

theorem Dated.cleared (answer : Answer K) :
    Dated rules (history ++ [(.clear, answer)]) fun _ => none := by
  have times : stamps (history ++ [((.clear : Op K), answer)]) = fun _ => none := stamps_snoc ..
  refine dated.of_older _ ?_ ?_
  · intro index
    rw [times]
    rfl
  · intro index key time copy
    cases copy.held

theorem Dated.stored (lawful : rules.Lawful) (landed : rules.landing slots key = .vacant index) :
    Dated rules (history ++ [(.insert key, .slot (some index))])
      (update slots index (some key)) := by
  obtain ⟨reached, empty⟩ := landing_eq_vacant_iff.mp landed
  have times : stamps (history ++ [(.insert key, .slot (some index))]) =
      update (stamps history) index (some history.length) := by
    rw [stamps_snoc]
    exact if_pos (dated.stamps_eq_none empty)
  have newOrOld : ∀ {slot stored time},
      Copy (history ++ [(.insert key, .slot (some index))]) (update slots index (some key)) slot
        stored time →
      (slot = index ∧ stored = key ∧ time = history.length) ∨
        (slot ≠ index ∧ Copy history slots slot stored time) := by
    intro slot stored time copy
    obtain ⟨held, stamped⟩ := copy
    rw [times] at stamped
    by_cases same : slot = index
    · subst slot
      rw [update_self, Option.some.injEq] at held stamped
      exact .inl ⟨rfl, held.symm, stamped.symm⟩
    · rw [update_of_ne same] at held stamped
      exact .inr ⟨same, held, stamped⟩
  constructor
  · intro slot stored held
    by_cases same : slot = index
    · rw [same]
      exact reached.1
    · rw [update_of_ne same] at held
      exact dated.inside slot stored held
  · rw [times]
    exact isSome_update_congr dated.occupied index rfl
  · intro slot stored time copy
    rcases newOrOld copy with ⟨rfl, rfl, rfl⟩ | ⟨-, old⟩
    · simp
    · exact getElem?_snoc_of_some (dated.written slot stored time old)
  · intro i x earlier j y later first second equal less
    rcases newOrOld first with ⟨-, -, rfl⟩ | ⟨differs, oldX⟩
    · -- the key just stored is older than none
      rcases newOrOld second with ⟨-, -, rfl⟩ | ⟨-, oldY⟩
      · exact absurd less (Nat.lt_irrefl _)
      · have bound := dated.time_lt oldY
        omega
    · rcases newOrOld second with ⟨rfl, rfl, -⟩ | ⟨-, oldY⟩
      · -- its walk passed no copy
        have inside := dated.inside i x oldX.held
        have near := reached.depth_le inside ⟨x, oldX.held, equal⟩
        rw [lawful.depth_congr equal, lawful.depth_congr equal]
        refine Nat.lt_of_le_of_ne near fun tied => differs ?_
        exact (depth_inj reached.1 inside tied).symm
      · exact dated.nearer i x earlier j y later oldX oldY equal less

/-- The copy that a walk finds was written last of all copies. -/
theorem Dated.newest (lawful : rules.Lawful) (landed : rules.landing slots key = .occupied index)
    {stored copy : K} {other time earlier : Nat} (found : Copy history slots index stored time)
    (equal : rules.matching stored key = true) (second : Copy history slots other copy earlier)
    (equalOther : rules.matching copy key = true) (different : other ≠ index) :
    earlier < time := by
  have reached := (landing_eq_occupied_iff.mp landed).1
  have near := reached.depth_le (dated.inside other copy second.held)
    ⟨copy, second.held, equalOther⟩
  rcases Nat.lt_trichotomy time earlier with less | tied | less
  · -- a newer copy would be nearer than the slot where the walk ends
    have same := lawful.trans equal (lawful.symm equalOther)
    have nearer := dated.nearer index stored time other copy earlier found second same less
    rw [lawful.depth_congr equal, lawful.depth_congr equal] at nearer
    omega
  · subst earlier
    exact absurd (dated.apart second.stamped found.stamped) different
  · exact less

end Dated

theorem Effect.dated (effect : rules.Effect slots op answer after) (lawful : rules.Lawful)
    (dated : Dated rules history slots) : Dated rules (history ++ [(op, answer)]) after := by
  cases effect with
  | stored landed => exact dated.stored lawful landed
  | @found key index landed =>
    obtain ⟨-, stored, held, -⟩ := landing_eq_occupied_iff.mp landed
    obtain ⟨time, copy⟩ := dated.exists_copy held
    refine dated.unwritten _ ?_
    rw [stamps_snoc]
    exact if_neg (by simp [copy.stamped])
  | @erased key index landed => exact dated.erased key index
  | cleared => exact dated.cleared .done
  | kept quiet =>
    refine dated.unwritten _ ?_
    rw [stamps_snoc, stamp_of_quiet _ _ quiet]

theorem Run.dated (run : rules.Run (fun _ => none) history slots) (lawful : rules.Lawful) :
    Dated rules history slots := by
  induction run with
  | start => exact Dated.empty rules
  | step before performed ih => exact (perform_effect performed).dated lawful ih

end Rules

theorem Ruled.newestCopies [Table T K] [Ruled T K] {capacity : Nat} {positive : 0 < capacity}
    {hash : K → UInt64} {matching : K → K → Bool} {refusal : Refusal} {slots : Slots K}
    {history : History K} {table : T} (lawful : Lawful hash matching)
    (run : (Rules.ofHash positive hash matching refusal).Run (fun _ => none) history slots)
    (shows : Ruled.Shows (Rules.ofHash positive hash matching refusal) slots table) :
    NewestCopies capacity hash matching history table
      ((Rules.ofHash positive hash matching refusal).entries slots) := by
  have lawfulRules := Rules.ofHash_lawful lawful positive refusal
  have dated := run.dated lawfulRules
  constructor
  · intro index key member
    obtain ⟨time, copy⟩ := dated.exists_copy (Rules.mem_entries.mp member).2
    exact ⟨time, copy.stamped, dated.written index key time copy⟩
  · intro i j time first second
    exact dated.apart first second
  · intro i x j y earlier later memberX memberY equal stampedX stampedY less
    have heldX := (Rules.mem_entries.mp memberX).2
    have heldY := (Rules.mem_entries.mp memberY).2
    exact ⟨lawfulRules.home_eq equal, dated.nearer i x earlier j y later ⟨heldX, stampedX⟩
      ⟨heldY, stampedY⟩ equal less⟩
  · intro key index found
    rw [Ruled.replies_indexOf shows, Rules.indexOf_eq_some_iff] at found
    obtain ⟨reached, stored, held, equal⟩ := Rules.landing_eq_occupied_iff.mp found
    obtain ⟨time, copy⟩ := dated.exists_copy held
    refine ⟨stored, time, Rules.mem_entries.mpr ⟨reached.1, held⟩, equal, copy.stamped, ?_⟩
    intro other duplicate earlier member equalOther different stampedOther
    have heldOther := (Rules.mem_entries.mp member).2
    exact dated.newest lawfulRules found copy equal ⟨heldOther, stampedOther⟩ equalOther different
  · intro key index found route limit
    rw [Ruled.replies_indexOf shows, Rules.indexOf_eq_some_iff] at found
    obtain ⟨after, erased, shown, -⟩ :=
      Ruled.perform_ok shows (Rules.perform_erase_found found) route limit
    refine ⟨after, erased, ?_⟩
    rw [Ruled.replies_entries shown, Rules.entries_update_none]

/-- Under a lawful hash and match rule, after every run from an empty table: of two stored keys that
are equal the one written by the later insert lies strictly nearer to their common home. So the slot
in which a key is found holds the copy written last of all copies of it, and an erase of the key
removes that copy and no other. -/
theorem newest_copy_is_nearest {hash : K → UInt64} {matching : K → K → Bool}
    (lawful : Lawful hash matching) (history : History K) :
    (∀ (capacity : Nat) (table : DynamicTable K),
      Trace (DynamicTable.create capacity hash matching) history table →
      ∃ listed, Replies table .entries (.ok (.entries listed)) ∧
        NewestCopies capacity hash matching history table listed) ∧
    (∀ (n : Nat) [Placeholder K] (positive : 0 < n) (table : FixedTable K n),
      Trace (FixedTable.create positive hash matching) history table →
      ∃ listed, Replies table .entries (.ok (.entries listed)) ∧
        NewestCopies n hash matching history table listed) ∧
    (∀ (S : Type) [Storage S K] [LawfulStorage S K] (given : S) (table : LinearTable K S),
      (∀ index, slotOf given index = none) →
      Trace (LinearTable.create given hash matching) history table →
      ∃ listed, Replies table .entries (.ok (.entries listed)) ∧
        NewestCopies (Storage.capacity given) hash matching history table listed) := by
  refine ⟨?_, ?_, ?_⟩
  · intro capacity table trace
    obtain ⟨positive, slots, run, shows⟩ := DynamicTable.trace_run trace
    exact ⟨_, (Ruled.replies_entries shows).mpr rfl, Ruled.newestCopies lawful run shows⟩
  · intro n _ positive table trace
    obtain ⟨slots, run, shows⟩ := FixedTable.trace_run trace
    exact ⟨_, (Ruled.replies_entries shows).mpr rfl, Ruled.newestCopies lawful run shows⟩
  · intro S _ _ given table empty trace
    obtain ⟨positive, slots, run, shows⟩ := LinearTable.trace_run trace
    rw [funext empty] at run
    exact ⟨_, (Ruled.replies_entries shows).mpr rfl, Ruled.newestCopies lawful run shows⟩

/-- A table of four slots that holds four copies of one key. -/
theorem newest_copy_of_four :
    ∃ (history : History Nat) (table : DynamicTable Nat) (listed : List (Nat × Nat)),
      history = [(.insert 10, .slot (some 3)), (.insert 30, .slot (some 0)),
        (.insert 70, .slot (some 1)), (.insert 50, .slot (some 2)), (.erase 70, .slot (some 1)),
        (.insert 50, .slot (some 1)), (.erase 30, .slot (some 0)), (.insert 50, .slot (some 0)),
        (.erase 10, .slot (some 3)), (.insert 50, .slot (some 3)),
        (.entries, .entries [(0, 50), (1, 50), (2, 50), (3, 50)])] ∧
      Trace (DynamicTable.create 4 UInt64.ofNat fun a b => a == b) history table ∧
      Replies table .entries (.ok (.entries listed)) ∧
      NewestCopies 4 UInt64.ofNat (fun a b => a == b) history table listed := by
  have created : Trace (DynamicTable.create 4 UInt64.ofNat fun a b : Nat => a == b) [] _ :=
    .created (DynamicTable.create_result (by decide) _ _ .off)
  have trace := created
    |>.step .direct (.insert 10) .off rfl |>.step .direct (.insert 30) .off rfl
    |>.step .direct (.insert 70) .off rfl |>.step .direct (.insert 50) .off rfl
    |>.step .direct (.erase 70) .off rfl |>.step .direct (.insert 50) .off rfl
    |>.step .direct (.erase 30) .off rfl |>.step .direct (.insert 50) .off rfl
    |>.step .throughIndex (.erase 10) .off rfl |>.step .direct (.insert 50) .off rfl
    |>.step .direct .entries .off rfl
  obtain ⟨listed, lists, copies⟩ :=
    (newest_copy_is_nearest (.of_part id UInt64.ofNat) _).1 4 _ trace
  exact ⟨_, _, listed, rfl, trace, lists, copies⟩

end SlotTable

import SlotTable.Proofs.Table.Trace
import SlotTable.Proofs.Table.Trail

/-!
# The log tells what the table holds

A journal is what a table has logged since it was made. The replay of its texts gives the occupied
slots at any moment, provided that every threshold admitted the debug level; thresholds decide what
of it is kept and nothing else. Nothing is asked of the hash or the match rule.
-/
namespace SlotTable

variable {T K S : Type}

/-- A call by either route, or the question where the walk for a key ends. -/
inductive Request (K : Type) where
  | call (route : Route) (op : Op K)
  | locate (key : K)

namespace Request

/-- The key that a request is about. -/
def key? : Request K → Option K
  | .call _ op => op.key?
  | .locate key => some key

def make [Storage S K] [LawfulStorage S K] [Table T K] [Ruled T K] [Wraps T K S] :
    Request K → Call T (Answer K)
  | .call route op => op.perform route
  | .locate key => fun table => do
    return (.landing (← (Wraps.core table).locate key), table)

end Request

/-- The records of a table since it was made, in order. The threshold may change from one request to
the next but admits the debug level all the time. -/
inductive Journal [Storage S K] [LawfulStorage S K] [Table T K] [Ruled T K] [Wraps T K S]
    (create : Logged T) : List Record → T → Prop where
  | created {events : List Event} {table : T} (limit : Threshold)
      (verbose : limit.admits .debug = true) (made : create.run limit = ⟨events, .ok table⟩) :
      Journal create (events.map Event.record) table
  | step {records : List Record} {new : List Event} {table after : T} {answer : Answer K}
      (before : Journal create records table) (request : Request K) (limit : Threshold)
      (verbose : limit.admits .debug = true)
      (performed : (request.make table).run limit = ⟨new, .ok (answer, after)⟩) :
      Journal create (records ++ new.map Event.record) after

/-- What the log of a table with this capacity and hash tells, if `start` are the slots that are
occupied at first. -/
structure TellsSlots [Storage S K] [LawfulStorage S K] [Table T K] [Ruled T K] [Wraps T K S]
    (capacity : Nat) (hash : K → UInt64) (matching : K → K → Bool) (start : Finset Nat)
    (create : Logged T) : Prop where
  replays : ∀ (records : List Record) (table : T), Journal create records table →
    ∃ listed, Replies table .entries (.ok (.entries listed)) ∧
      Record.replay? start records = some (listed.map Prod.fst).toFinset
  stops : ∀ (records : List Record) (table : T) (request : Request K) (limit : Threshold)
    (new : List Event) (fault : Fault) (occupied : Finset Nat), Journal create records table →
    (request.make table).run limit = ⟨new, .error fault⟩ →
    Record.replay? occupied (new.map Event.record) = some occupied
  probes : ∀ (records : List Record) (table : T) (request : Request K) (key : K),
    Journal create records table → request.key? = some key →
    ∃ (walk : Walk K) (rest : List Record),
      Walk.ofHash (Wraps.core table).slots matching (hash key) key = .ok walk ∧
      ((request.make table).run (.upTo .trace)).events.map Event.record =
        ⟨.trace, "hash_adaptor::container::probe",
          "Probe for hash 0x" ++ hexDigits 16 (hash key).toNat ++ " over " ++ toString capacity ++
            " slots landed at " ++ walk.landing.text⟩ :: rest ∧
      ∀ record ∈ rest, record.isProbe = false
  unprobed : ∀ (records : List Record) (table : T) (request : Request K),
    Journal create records table → request.key? = none →
    ∀ event ∈ ((request.make table).run (.upTo .trace)).events, event.record.isProbe = false
  created_admitted : ∀ limit, create.run limit = (create.run (.upTo .trace)).admitted limit
  played_admitted : ∀ (limit : Threshold) (table : T) (requests : List (Request K)),
    play limit table (requests.map Request.make) =
      (play (.upTo .trace) table (requests.map Request.make)).admitted limit

section Requests

variable [Storage S K] [LawfulStorage S K] [Table T K] [Ruled T K] [Wraps T K S]
  {rules : Rules K} {slots : Slots K} {table after : T} {request : Request K} {limit : Threshold}
  {new : List Event} {answer : Answer K}

theorem Request.make_uniform (request : Request K) (table : T) :
    (request.make table).Uniform := by
  cases request with
  | call route op => exact Wraps.perform_uniform route op table
  | locate key =>
    exact ((Wraps.core table).locate_uniform key).bind fun _ => Logged.uniform_pure _

theorem Request.play_admitted (limit : Threshold) (table : T) (requests : List (Request K)) :
    play limit table (requests.map Request.make) =
      (play (.upTo .trace) table (requests.map Request.make)).admitted limit := by
  refine SlotTable.play_admitted (fun call member state => ?_) limit table
  obtain ⟨request, -, rfl⟩ := List.mem_map.mp member
  exact request.make_uniform state

/-- The events of a request are those of its trail that the threshold admits. -/
theorem Request.events_eq {outcome : Except Fault (Answer K × T)}
    (performed : (request.make table).run limit = ⟨new, outcome⟩) :
    new = admitted limit (request.make table).trail := by
  rw [← (request.make_uniform table).events_eq limit, performed]

theorem Request.locate_trail (shows : Ruled.Shows rules slots table) (key : K) :
    ((Request.locate key).make table).trail =
      [.probed ((Wraps.core table).hash key) rules.capacity (rules.landing slots key)] := by
  rw [Request.make, Logged.trail_bind_silent fun _ => rfl]
  exact (Wraps.shows_core shows).locate_trail key

theorem Request.locate_result (shows : Ruled.Shows rules slots table) (key : K)
    (limit : Threshold) :
    ((Request.locate key).make table).result limit =
      .ok (.landing (rules.landing slots key), table) := by
  rw [Request.make, Logged.result_bind, (Wraps.shows_core shows).locate, ok_bind,
    Logged.result_pure]

/-- Replaying what a request emits gives the slots that are occupied after it. -/
theorem Request.step (shows : Ruled.Shows rules slots table) (verbose : limit.admits .debug = true)
    (performed : (request.make table).run limit = ⟨new, .ok (answer, after)⟩) :
    ∃ left, Ruled.Shows rules left after ∧
      replay? (rules.occupied slots) new = some (rules.occupied left) ∧
      (Wraps.core after).hash = (Wraps.core table).hash := by
  rw [Request.events_eq performed, replay?_admitted verbose]
  have ended : (request.make table).result limit = .ok (answer, after) :=
    congrArg Outcome.result performed
  cases request with
  | call route op =>
    obtain ⟨left, ruled, shown, -⟩ := Ruled.perform_of_ok shows ended
    obtain ⟨remarks, remarked, trail⟩ := Wraps.perform_trail shows route op
    obtain ⟨inner, kept⟩ := Wraps.perform_keeps ended
    refine ⟨left, shown, ?_, by rw [kept]⟩
    rw [Request.make, trail]
    exact Rules.replay?_trail ruled (Wraps.core table).hash remarked
  | locate key =>
    rw [Request.locate_result shows] at ended
    cases ended
    refine ⟨slots, shows, ?_, rfl⟩
    rw [Request.locate_trail shows]
    rfl

/-- A request that ends the program has written of no change. -/
theorem Request.replay?_of_fault (shows : Ruled.Shows rules slots table) {fault : Fault}
    (performed : (request.make table).run limit = ⟨new, .error fault⟩) (occupied : Finset Nat) :
    replay? occupied new = some occupied := by
  have ended : (request.make table).result limit = .error fault :=
    congrArg Outcome.result performed
  refine replay?_of_unmarked fun event member start => ?_
  rw [Request.events_eq performed] at member
  have written := List.mem_of_mem_filter member
  cases request with
  | call route op =>
    obtain ⟨remarks, remarked, trail⟩ := Wraps.perform_trail shows route op
    have ruled := Ruled.perform_of_error shows ended
    rw [Rules.marks_of_error ruled, List.append_nil] at trail
    rw [Request.make, trail, List.mem_append] at written
    rcases written with walked | remark
    · exact Rules.mark?_of_mem_probes walked start
    · exact Event.mark?_of_isRemark (remarked event remark)
  | locate key =>
    rw [Request.locate_result shows] at ended
    cases ended

theorem Request.trail_of_key (shows : Ruled.Shows rules slots table) {key : K}
    (keyed : request.key? = some key) :
    ∃ rest, (request.make table).trail =
        .probed ((Wraps.core table).hash key) rules.capacity (rules.landing slots key) :: rest ∧
      ∀ event ∈ rest, event.isProbe = false := by
  cases request with
  | call route op =>
    obtain ⟨remarks, remarked, trail⟩ := Wraps.perform_trail shows route op
    rw [Rules.probes_of_key keyed, List.append_assoc] at trail
    refine ⟨rules.marks slots op ++ remarks, trail, fun event member => ?_⟩
    rcases List.mem_append.mp member with marked | remark
    · exact Rules.isProbe_of_mem_marks marked
    · exact Event.isProbe_of_isRemark (remarked event remark)
  | locate asked =>
    cases keyed
    exact ⟨[], Request.locate_trail shows key, fun _ member => absurd member List.not_mem_nil⟩

theorem Request.trail_of_no_key (shows : Ruled.Shows rules slots table)
    (unkeyed : request.key? = none) :
    ∀ event ∈ (request.make table).trail, event.isProbe = false := by
  cases request with
  | call route op =>
    obtain ⟨remarks, remarked, trail⟩ := Wraps.perform_trail shows route op
    have silent : rules.probes (Wraps.core table).hash slots op = [] := by
      rw [Rules.probes, show op.key? = none from unkeyed]
      rfl
    intro event member
    rw [Request.make, trail, silent, List.nil_append] at member
    rcases List.mem_append.mp member with marked | remark
    · exact Rules.isProbe_of_mem_marks marked
    · exact Event.isProbe_of_isRemark (remarked event remark)
  | locate asked => cases unkeyed

end Requests

section Journal

variable [Storage S K] [LawfulStorage S K] [Table T K] [Ruled T K] [Wraps T K S]
  {rules : Rules K} {start : Slots K} {create : Logged T} {hash : K → UInt64}

/-- How a constructor begins: with these rules, slots and hash, and with remarks at most. -/
structure Begins (rules : Rules K) (start : Slots K) (hash : K → UInt64) (create : Logged T) :
    Prop where
  uniform : create.Uniform
  remarks : ∀ event ∈ create.trail, event.isRemark = true
  shows : ∀ limit fresh, create.result limit = .ok fresh → Ruled.Shows rules start fresh
  hash_eq : ∀ limit fresh, create.result limit = .ok fresh → (Wraps.core fresh).hash = hash

theorem Journal.tracks {records : List Record} {table : T}
    (begins : Begins rules start hash create) (journal : Journal create records table) :
    ∃ slots, Ruled.Shows rules slots table ∧ (Wraps.core table).hash = hash ∧
      ∃ events, records = events.map Event.record ∧
        replay? (rules.occupied start) events = some (rules.occupied slots) := by
  induction journal with
  | @created events table limit verbose made =>
    have ended : create.result limit = .ok table := congrArg Outcome.result made
    have born : events = admitted limit create.trail := by
      rw [← begins.uniform.events_eq limit, made]
    refine ⟨start, begins.shows _ _ ended, begins.hash_eq _ _ ended, events, rfl, ?_⟩
    rw [born, replay?_admitted verbose, replay?_remarks begins.remarks]
  | @step records new table after answer before request limit verbose performed ih =>
    obtain ⟨slots, shows, hashed, events, rfl, replayed⟩ := ih
    obtain ⟨left, shown, marked, kept⟩ := Request.step shows verbose performed
    refine ⟨left, shown, kept.trans hashed, events ++ new, List.map_append.symm, ?_⟩
    rw [replay?_append replayed, marked]

theorem Begins.tellsSlots (begins : Begins rules start hash create) :
    TellsSlots rules.capacity hash rules.matching (rules.occupied start) create where
  replays := by
    intro records table journal
    obtain ⟨slots, shows, -, events, rfl, replayed⟩ := journal.tracks begins
    rw [Record.replay?_map_record, replayed]
    exact ⟨rules.entries slots, (Ruled.replies_entries shows).mpr rfl, rfl⟩
  stops := by
    intro records table request limit new fault occupied journal performed
    obtain ⟨slots, shows, -, -⟩ := journal.tracks begins
    rw [Record.replay?_map_record]
    exact Request.replay?_of_fault shows performed occupied
  probes := by
    intro records table request key journal keyed
    obtain ⟨slots, shows, hashed, -⟩ := journal.tracks begins
    have inner := Wraps.shows_core shows
    obtain ⟨walk, walked, landed⟩ := inner.walk key
    obtain ⟨rest, trail, others⟩ := Request.trail_of_key shows keyed
    rw [hashed, inner.matching_eq] at walked
    rw [hashed, ← landed] at trail
    refine ⟨walk, rest.map Event.record, walked, congrArg (List.map Event.record) trail, ?_⟩
    refine List.forall_mem_map.mpr fun event member => ?_
    rw [Event.isProbe_record, others event member]
  unprobed := by
    intro records table request journal unkeyed event member
    obtain ⟨slots, shows, -, -⟩ := journal.tracks begins
    rw [Event.isProbe_record]
    exact Request.trail_of_no_key shows unkeyed event member
  created_admitted := begins.uniform
  played_admitted := Request.play_admitted

/-- A constructor that refuses to make a table begins no journal. -/
theorem Journal.not_refused {records : List Record} {table : T} {fault : Fault}
    (refused : ∀ limit, create.run limit = ⟨[], .error fault⟩) :
    ¬ Journal create records table := by
  intro journal
  induction journal with
  | created limit verbose made =>
    rw [refused] at made
    cases made
  | step before request limit verbose performed ih => exact ih

theorem TellsSlots.of_refused {capacity : Nat} {matching : K → K → Bool} {occupied : Finset Nat}
    {fault : Fault} (refused : ∀ limit, create.run limit = ⟨[], .error fault⟩) :
    TellsSlots capacity hash matching occupied create where
  replays _ _ journal := absurd journal (Journal.not_refused refused)
  stops _ _ _ _ _ _ _ journal := absurd journal (Journal.not_refused refused)
  probes _ _ _ _ journal := absurd journal (Journal.not_refused refused)
  unprobed _ _ _ journal := absurd journal (Journal.not_refused refused)
  created_admitted := by
    intro limit
    rw [refused, refused]
    rfl
  played_admitted := Request.play_admitted

end Journal

section Constructors

variable (hash : K → UInt64) (matching : K → K → Bool)

theorem LinearTable.begins [Storage S K] [LawfulStorage S K] {given : S}
    (positive : 0 < Storage.capacity given) :
    Begins (Rules.ofHash positive hash matching .silent) (slotOf given) hash
      (LinearTable.create given hash matching) where
  uniform := by
    rw [LinearTable.create, if_neg (Nat.ne_of_gt positive)]
    exact Logged.uniform_pure _
  remarks := by
    rw [LinearTable.create, if_neg (Nat.ne_of_gt positive), Logged.trail_pure]
    simp
  shows _ _ := LinearTable.create_shows positive
  hash_eq := by
    intro limit fresh made
    rw [LinearTable.create_result positive] at made
    cases made
    rfl

theorem DynamicTable.begins {capacity : Nat} (positive : 0 < capacity) :
    Begins (Rules.ofHash positive hash matching .reported) (fun _ => none) hash
      (DynamicTable.create capacity hash matching) := by
  have core := LinearTable.begins hash matching
    (OptionalSlots.capacity_empty (K := K) capacity ▸ positive)
  constructor
  · rw [DynamicTable.create, if_neg (Nat.ne_of_gt positive)]
    exact (Logged.uniform_emit _).bind fun _ => core.uniform.bind fun _ => Logged.uniform_pure _
  · rw [DynamicTable.create, if_neg (Nat.ne_of_gt positive),
      Logged.trail_bind_ok (Logged.result_emit ..), Logged.trail_emit,
      Logged.trail_bind_silent fun _ => rfl]
    exact List.forall_mem_cons.mpr ⟨rfl, core.remarks⟩
  · exact fun _ _ => DynamicTable.create_shows positive
  · intro limit fresh made
    rw [DynamicTable.create_result positive] at made
    cases made
    rfl

theorem FixedTable.begins {n : Nat} [Placeholder K] (positive : 0 < n) :
    Begins (Rules.ofHash positive hash matching .fatal) (fun _ => none) hash
      (FixedTable.create positive hash matching) := by
  have core : Begins (Rules.ofHash positive hash matching .silent) (slotOf FlaggedSlots.empty) hash
      (LinearTable.create (FlaggedSlots.empty : FlaggedSlots K n) hash matching) :=
    LinearTable.begins hash matching positive
  constructor
  · exact core.uniform.bind fun _ => Logged.uniform_pure _
  · rw [FixedTable.create, Logged.trail_bind_silent fun _ => rfl]
    exact core.remarks
  · exact fun _ _ => FixedTable.create_shows positive
  · intro limit fresh made
    rw [FixedTable.create_result positive] at made
    cases made
    rfl

end Constructors

/-- While every threshold admits the debug level, the replay of what a table has logged never breaks
off, and after every request it gives exactly the slots that are listed; it begins with no slot, or
with those that the storage given to a linear table lists. The replay reads nothing but the texts of
the records, which tell all events apart. At the trace level a request about a key reports first and
once where the walk for the key ends, with the hash of the key and the capacity; others report no
walk. Under any threshold the log is what the threshold admits of the log at the trace level, and
answers, tables and faults are the same. -/
theorem log_tells_slots (hash : K → UInt64) (matching : K → K → Bool) :
    Function.Injective Event.message ∧
    (∀ capacity, TellsSlots capacity hash matching ∅ (DynamicTable.create capacity hash matching)) ∧
    (∀ (n : Nat) [Placeholder K] (positive : 0 < n),
      TellsSlots n hash matching ∅ (FixedTable.create positive hash matching)) ∧
    (∀ (S : Type) [Storage S K] [LawfulStorage S K] (given : S) (stored : List (Nat × K)),
      Storage.entries given = .ok stored →
      TellsSlots (Storage.capacity given) hash matching (stored.map Prod.fst).toFinset
        (LinearTable.create given hash matching)) := by
  refine ⟨Event.message_injective, ?_, ?_, ?_⟩
  · intro capacity
    rcases Nat.eq_zero_or_pos capacity with rfl | positive
    · exact .of_refused fun _ => rfl
    · have tells := (DynamicTable.begins hash matching positive).tellsSlots
      rw [Rules.occupied_empty] at tells
      exact tells
  · intro n _ positive
    have tells := (FixedTable.begins hash matching positive).tellsSlots
    rw [Rules.occupied_empty] at tells
    exact tells
  · intro S _ _ given stored lists
    rcases Nat.eq_zero_or_pos (Storage.capacity given) with zero | positive
    · have refused : ∀ limit, (LinearTable.create given hash matching).run limit =
          ⟨[], .error .noSlots⟩ := by
        intro limit
        rw [LinearTable.create, if_pos zero]
        rfl
      exact .of_refused refused
    · rw [entries_eq] at lists
      cases lists
      exact (LinearTable.begins hash matching positive).tellsSlots

/-- The storage is given with a key in the slot between. The third insert finds the table full; the
last request is made at the trace level. -/
theorem log_tells_slots_of_given_storage :
    ∃ (table : LinearTable Nat (OptionalSlots Nat)) (records : List Record),
      records = [⟨.debug, "hash_adaptor::container::probe", "Inserted key into slot 2"⟩,
        ⟨.debug, "hash_adaptor::container::probe", "Inserted key into slot 0"⟩,
        ⟨.debug, "hash_adaptor::container::probe", "Erased key from slot 1"⟩,
        ⟨.trace, "hash_adaptor::container::probe",
          "Probe for hash 0x0000000000000000 over 3 slots landed at Occupied(0)"⟩] ∧
      Journal (LinearTable.create ⟨#[none, some 9, none]⟩ (fun _ => 0) fun a b => a == b)
        records table ∧
      Replies table .entries (.ok (.entries [(0, 6), (2, 5)])) ∧
      Record.replay? {1} records = some {0, 2} := by
  have created : Journal (LinearTable.create (⟨#[none, some 9, none]⟩ : OptionalSlots Nat)
      (fun _ => 0) fun a b => a == b) ([].map Event.record) _ := .created (.upTo .debug) rfl rfl
  have journal := created
    |>.step (.call .direct (.insert 5)) (.upTo .debug) rfl rfl
    |>.step (.call .throughIndex (.insert 6)) (.upTo .debug) rfl rfl
    |>.step (.call .direct (.insert 7)) (.upTo .debug) rfl rfl
    |>.step (.call .direct (.erase 9)) (.upTo .debug) rfl rfl
    |>.step (.locate 6) (.upTo .trace) rfl rfl
  obtain ⟨listed, lists, replayed⟩ :=
    ((log_tells_slots _ _).2.2.2 _ _ [(1, 9)] rfl).replays _ _ journal
  have same : (.ok (.entries [(0, 6), (2, 5)]) : Except Fault (Answer Nat)) =
      .ok (.entries listed) := lists .direct .off
  cases same
  refine ⟨_, _, ?_, journal, lists, replayed⟩
  decide

end SlotTable

import SlotTable.Proofs.Client.Run

/-!
# Values beside a table

A client finds under a key what it last put under that key, or nothing. Erases leave holes, so a key
can be stored in several slots at once, be hidden and appear again. Two invariants carry the result.
Every stored copy has a value that was put under its key since the last clear; and as long as a key
is neither put again nor removed, the copy nearest to its home has the value put last. A walk finds
no copy but the nearest, and calls for other keys do not change which copies there are.
-/
namespace SlotTable

open Function (update update_self update_of_ne)

variable {T K V : Type}

/-- A successful put under a key that matches. -/
def renews (matching : K → K → Bool) (key : K) : ClientOp K V × ClientAnswer K V → Bool
  | (.put other _, .table (.slot (some _))) => matching other key
  | _ => false

/-- A successful removal of a key that matches. -/
def removes (matching : K → K → Bool) (key : K) : ClientOp K V × ClientAnswer K V → Bool
  | (.del other, .table (.slot (some _))) => matching other key
  | _ => false

/-- A successful removal of any key. -/
def removesAny : ClientOp K V × ClientAnswer K V → Bool
  | (.del _, .table (.slot (some _))) => true
  | _ => false

/-- The value was put under an equal key, with success, and there was no clear since. -/
def PutSinceClear (matching : K → K → Bool) (history : ClientHistory K V) (key : K) (value : V) :
    Prop :=
  ∃ before other index later,
    history = before ++ (.put other value, .table (.slot (some index))) :: later ∧
    matching other key = true ∧ ∀ call ∈ later, call.1 ≠ .clear

/-- What a client finds is what it put: never the value of another key, and never an older value
than the last one as long as the key was not removed since. -/
structure KeepsValues [Table T K] (capacity : Nat) (matching : K → K → Bool)
    (history : ClientHistory K V) (client : Client T V) : Prop where
  answered : ∀ key, ∃ found, client.Finds key found
  genuine : ∀ key value, client.Finds key (some value) →
    PutSinceClear matching history key value
  latest : ∀ before other newest index later key value,
    history = before ++ (.put other newest, .table (.slot (some index))) :: later →
    matching other key = true →
    (∀ call ∈ later, renews matching key call = false ∧ removes matching key call = false) →
    client.Finds key (some value) → value = newest
  hit_iff : (∀ call ∈ history, removesAny call = false) → ∀ key,
    (∃ value, client.Finds key (some value)) ↔ ∃ value, PutSinceClear matching history key value
  inside : ∀ (route : Route) (op : ClientOp K V) (limit : Threshold) (fault : Fault),
    (client.perform route op).result limit = .error fault → fault = .slotsExhausted capacity

section History

variable {matching : K → K → Bool} {history : ClientHistory K V} {key : K} {value : V}
  {call : ClientOp K V × ClientAnswer K V}

theorem snoc_eq_append_cons_iff {A : Type} {list before later : List A} {first last : A} :
    list ++ [last] = before ++ first :: later ↔
      (list = before ∧ last = first ∧ later = []) ∨
        ∃ rest, later = rest ++ [last] ∧ list = before ++ first :: rest := by
  constructor
  · intro split
    rcases List.eq_nil_or_concat later with rfl | ⟨rest, final, rfl⟩
    · left
      obtain ⟨same, equal⟩ := List.append_inj' split rfl
      exact ⟨same, List.singleton_inj.mp equal, rfl⟩
    · right
      rw [List.concat_eq_append] at split ⊢
      rw [← List.cons_append, ← List.append_assoc] at split
      obtain ⟨same, equal⟩ := List.append_inj' split rfl
      exact ⟨rest, by rw [List.singleton_inj.mp equal], same⟩
  · intro split
    rcases split with ⟨rfl, rfl, rfl⟩ | ⟨rest, rfl, rfl⟩
    · rfl
    · simp

theorem putSinceClear_snoc :
    PutSinceClear matching (history ++ [call]) key value ↔
      (∃ other index, call = (.put other value, .table (.slot (some index))) ∧
        matching other key = true) ∨
      (call.1 ≠ .clear ∧ PutSinceClear matching history key value) := by
  constructor
  · intro put
    obtain ⟨before, other, index, later, split, equal, unclear⟩ := put
    rcases snoc_eq_append_cons_iff.mp split with ⟨-, rfl, -⟩ | ⟨rest, rfl, rfl⟩
    · exact .inl ⟨other, index, rfl, equal⟩
    · refine .inr ⟨unclear call (by simp), before, other, index, rest, rfl, equal, ?_⟩
      intro earlier member
      exact unclear earlier (List.mem_append_left _ member)
  · intro put
    rcases put with ⟨other, index, rfl, equal⟩ |
      ⟨unclear, before, other, index, later, rfl, equal, kept⟩
    · exact ⟨history, other, index, [], rfl, equal, by simp⟩
    · refine ⟨before, other, index, later ++ [call], by simp, equal, ?_⟩
      intro each member
      rcases List.mem_append.mp member with old | new
      · exact kept each old
      · rw [List.mem_singleton.mp new]
        exact unclear

end History

namespace Client

variable {rules : Rules K} {slots after : Slots K} {values left : List V}
  {history : ClientHistory K V} {op : ClientOp K V} {answer : ClientAnswer K V} {key : K}
  {value : V} {index : Nat}

/-- Of all stored copies of a key this one is the nearest to its home. -/
structure Nearest (rules : Rules K) (slots : Slots K) (key : K) (index : Nat) : Prop where
  inside : index < rules.capacity
  copy : rules.Matches slots key index
  closest : ∀ other < rules.capacity, rules.Matches slots key other →
    rules.depth key index ≤ rules.depth key other

theorem Nearest.unique {other : Nat} (first : Nearest rules slots key index)
    (second : Nearest rules slots key other) : index = other := by
  have near := first.closest other second.inside second.copy
  have far := second.closest index first.inside first.copy
  exact Rules.depth_inj first.inside second.inside (Nat.le_antisymm near far)

theorem nearest_of_landing (landed : rules.landing slots key = .occupied index) :
    Nearest rules slots key index := by
  obtain ⟨reached, found⟩ := Rules.landing_eq_occupied_iff.mp landed
  exact ⟨reached.1, found, fun other inside copy => reached.depth_le inside copy⟩

theorem Nearest.of_same_copies (nearest : Nearest rules after key index)
    (same : ∀ other, rules.Matches after key other ↔ rules.Matches slots key other) :
    Nearest rules slots key index :=
  ⟨nearest.inside, (same index).mp nearest.copy,
    fun other inside copy => nearest.closest other inside ((same other).mpr copy)⟩

/-- Every stored copy has a value that was put under its key since the last clear. -/
def Genuine (rules : Rules K) (history : ClientHistory K V) (slots : Slots K)
    (values : List V) : Prop :=
  ∀ index key, slots index = some key →
    ∃ value, values[index]? = some value ∧ PutSinceClear rules.matching history key value

/-- The nearest copy of a key, if there is one, has this value. -/
def Serves (rules : Rules K) (slots : Slots K) (values : List V) (key : K) (value : V) : Prop :=
  ∀ index, Nearest rules slots key index → values[index]? = some value

theorem Effect.genuine (effect : Effect rules slots values op answer after left)
    (lawful : rules.Lawful) (sized : values.length = rules.capacity)
    (genuine : Genuine rules history slots values) :
    Genuine rules (history ++ [(op, answer)]) after left := by
  -- what was known of a slot before stays known unless the call clears
  have older : ∀ slot stored, op ≠ .clear → slots slot = some stored →
      ∃ value, values[slot]? = some value ∧
        PutSinceClear rules.matching (history ++ [(op, answer)]) stored value := by
    intro slot stored unclear held
    obtain ⟨value, there, put⟩ := genuine slot stored held
    exact ⟨value, there, putSinceClear_snoc.mpr (.inr ⟨unclear, put⟩)⟩
  intro slot stored held
  cases effect with
  | @put key value index after effect =>
    by_cases same : slot = index
    · subst slot
      have landed := effect.landing_inserted lawful
      obtain ⟨-, found, heldFound, equal⟩ := Rules.landing_eq_occupied_iff.mp landed
      rw [held, Option.some.injEq] at heldFound
      subst found
      refine ⟨value, ?_, putSinceClear_snoc.mpr (.inl ⟨key, index, rfl, lawful.symm equal⟩)⟩
      rw [List.getElem?_set_self (sized ▸ effect.index_lt)]
    · rw [effect.insert_of_ne same] at held
      rw [List.getElem?_set_ne (Ne.symm same)]
      exact older slot stored (by simp) held
  | @del key index landed =>
    by_cases same : slot = index
    · subst slot
      rw [update_self] at held
      cases held
    · rw [update_of_ne same] at held
      exact older slot stored (by simp) held
  | cleared => cases held
  | kept quiet =>
    refine older slot stored ?_ held
    intro clears
    subst clears
    exact quiet

theorem Effect.serves_put {other : K}
    (effect : rules.Effect slots (.insert other) (.slot (some index)) after)
    (lawful : rules.Lawful) (sized : values.length = rules.capacity)
    (equal : rules.matching other key = true) :
    Serves rules after (values.set index value) key value := by
  have landed := effect.landing_inserted lawful
  rw [lawful.landing_congr after equal] at landed
  intro slot nearest
  rw [nearest.unique (nearest_of_landing landed),
    List.getElem?_set_self (sized ▸ effect.index_lt)]

/-- A slot that holds another key is not a copy of this one. -/
theorem not_matches_of_landing {other : K} (lawful : rules.Lawful)
    (landed : rules.landing slots other = .occupied index)
    (differs : rules.matching other key = false) : ¬ rules.Matches slots key index := by
  obtain ⟨-, stored, held, equal⟩ := Rules.landing_eq_occupied_iff.mp landed
  intro matched
  obtain ⟨found, heldFound, copy⟩ := matched
  rw [held, Option.some.injEq] at heldFound
  subst found
  rw [lawful.trans (lawful.symm equal) copy] at differs
  cases differs

/-- Calls that neither put nor remove a key leave its nearest copy and the value there alone. -/
theorem Effect.serves (effect : Effect rules slots values op answer after left)
    (lawful : rules.Lawful) (serves : Serves rules slots values key value)
    (unrenewed : renews rules.matching key (op, answer) = false)
    (unremoved : removes rules.matching key (op, answer) = false) :
    Serves rules after left key value := by
  intro slot nearest
  cases effect with
  | @put other newer index after effect =>
    have differs : rules.matching other key = false := unrenewed
    cases effect with
    | stored landed =>
      have empty := (Rules.landing_eq_vacant_iff.mp landed).2
      have absent : ¬ rules.Matches slots key index := fun found => found.ne_none empty
      have same := nearest.of_same_copies fun other =>
        Rules.matches_update_of_not absent (by rintro stored ⟨⟩; exact differs)
      have elsewhere : index ≠ slot := by
        intro here
        subst here
        exact absent same.copy
      rw [List.getElem?_set_ne elsewhere]
      exact serves slot same
    | found landed =>
      have elsewhere : index ≠ slot := by
        intro here
        subst here
        exact not_matches_of_landing lawful landed differs nearest.copy
      rw [List.getElem?_set_ne elsewhere]
      exact serves slot nearest
    | kept quiet => exact absurd quiet id
  | @del other index landed =>
    have differs : rules.matching other key = false := unremoved
    have absent := not_matches_of_landing lawful landed differs
    exact serves slot (nearest.of_same_copies fun other =>
      Rules.matches_update_of_not absent (by rintro stored ⟨⟩))
  | cleared => exact absurd rfl nearest.copy.ne_none
  | kept quiet => exact serves slot nearest

namespace Run

variable (run : Run rules history slots values) (lawful : rules.Lawful)
include run lawful

theorem genuine : Genuine rules history slots values := by
  induction run with
  | start sized =>
    intro index key held
    cases held
  | step before effect ih => exact effect.genuine lawful before.length_eq ih

theorem serves (before : ClientHistory K V) (other : K) (newest : V) (index : Nat)
    (later : ClientHistory K V) (key : K)
    (split : history = before ++ (.put other newest, .table (.slot (some index))) :: later)
    (equal : rules.matching other key = true)
    (quiet : ∀ call ∈ later, renews rules.matching key call = false ∧
      removes rules.matching key call = false) : Serves rules slots values key newest := by
  induction run generalizing later with
  | start sized => simp at split
  | @step history slots after values left op answer earlier effect ih =>
    rcases snoc_eq_append_cons_iff.mp split with ⟨rfl, call, rfl⟩ | ⟨rest, rfl, rfl⟩
    · cases call
      cases effect with
      | put effect => exact Effect.serves_put effect lawful earlier.length_eq equal
      | kept quiet => exact absurd quiet id
    · have last := quiet (op, answer) (by simp)
      have served := ih rest rfl fun call member => quiet call (List.mem_append_left _ member)
      exact effect.serves lawful served last.1 last.2

/-- As long as nothing was removed every key put since the last clear is found. -/
theorem visible (kept : ∀ call ∈ history, removesAny call = false) (key : K) (value : V)
    (put : PutSinceClear rules.matching history key value) :
    ∃ index, rules.landing slots key = .occupied index := by
  induction run with
  | start sized =>
    obtain ⟨before, other, index, later, split, -⟩ := put
    simp at split
  | @step history slots after values left op answer earlier effect ih =>
    rcases putSinceClear_snoc.mp put with ⟨other, index, call, equal⟩ | ⟨unclear, old⟩
    · cases call
      cases effect with
      | put effect =>
        refine ⟨index, ?_⟩
        rw [← lawful.landing_congr after equal]
        exact effect.landing_inserted lawful
      | kept quiet => exact absurd quiet id
    · have quiet : ∀ call ∈ history, removesAny call = false := by
        intro call member
        exact kept call (List.mem_append_left _ member)
      obtain ⟨index, landed⟩ := ih quiet old
      have last := kept (op, answer) (by simp)
      cases effect with
      | put effect => exact ⟨index, effect.landing_kept landed (by simp) rfl⟩
      | del occupied => cases last
      | cleared => exact absurd rfl unclear
      | kept quiet => exact ⟨index, landed⟩

end Run

section Found

variable [Table T K] [Ruled T K] {client : Client T V}

theorem finds_some_iff (shows : Shows rules slots client) :
    client.Finds key (some value) ↔
      ∃ index, rules.landing slots key = .occupied index ∧ client.values[index]? = some value := by
  rw [finds_iff shows, Option.bind_eq_some_iff]
  simp only [Rules.indexOf_eq_some_iff]

theorem Run.keepsValues (run : Run rules history slots client.values) (lawful : rules.Lawful)
    (shows : Shows rules slots client) :
    KeepsValues rules.capacity rules.matching history client := by
  have genuine : ∀ key value, client.Finds key (some value) →
      PutSinceClear rules.matching history key value := by
    intro key value finds
    obtain ⟨index, landed, there⟩ := (finds_some_iff shows).mp finds
    obtain ⟨-, stored, held, copy⟩ := Rules.landing_eq_occupied_iff.mp landed
    obtain ⟨known, read, before, other, slot, later, split, equal, unclear⟩ :=
      run.genuine lawful index stored held
    rw [there, Option.some.injEq] at read
    subst known
    exact ⟨before, other, slot, later, split, lawful.trans equal copy, unclear⟩
  constructor
  · intro key
    exact ⟨_, (finds_iff shows).mpr rfl⟩
  · exact genuine
  · intro before other newest slot later key value split equal quiet finds
    obtain ⟨index, landed, there⟩ := (finds_some_iff shows).mp finds
    have served := run.serves lawful before other newest slot later key split equal quiet
    rw [served index (nearest_of_landing landed), Option.some.injEq] at there
    exact there.symm
  · intro kept key
    constructor
    · intro hit
      obtain ⟨value, finds⟩ := hit
      exact ⟨value, genuine key value finds⟩
    · intro known
      obtain ⟨value, put⟩ := known
      obtain ⟨index, landed⟩ := run.visible lawful kept key value put
      have inside : index < client.values.length := by
        rw [shows.length_eq]
        exact (Rules.landing_eq_occupied_iff.mp landed).1.1
      exact ⟨_, (finds_some_iff shows).mpr ⟨index, landed, List.getElem?_eq_getElem inside⟩⟩
  · intro route op limit fault failed
    rcases perform_cases shows route op limit with ⟨_, _, _, answered, -, -⟩ | ended
    · rw [answered] at failed
      cases failed
    · rw [ended] at failed
      cases failed
      rfl

end Found

end Client

/-- A client that keeps its values beside the table reads under every key a value that was put under
an equal key since the last clear, or nothing. It reads the value put last as long as the key was
not removed since, and if nothing was ever removed it reads nothing only under keys that were not
put. This holds after every run of puts, gets, removals and clears, whatever the array held at first
and whatever chains of colliding keys the removals broke. -/
theorem keeps_values {hash : K → UInt64} {matching : K → K → Bool}
    (lawful : Lawful hash matching) :
    (∀ (capacity : Nat) (history : ClientHistory K V) (client : Client (DynamicTable K) V),
      Client.Trace (DynamicTable.create capacity hash matching) history client →
      KeepsValues capacity matching history client) ∧
    (∀ (n : Nat) [Placeholder K] (positive : 0 < n) (history : ClientHistory K V)
      (client : Client (FixedTable K n) V),
      Client.Trace (FixedTable.create positive hash matching) history client →
      KeepsValues n matching history client) := by
  refine ⟨?_, ?_⟩
  · intro capacity history client trace
    obtain ⟨limit, fresh, made⟩ := trace.exists_made
    have positive := DynamicTable.create_positive made
    obtain ⟨slots, run, shows⟩ := trace.run fun _ _ made =>
      DynamicTable.create_shows positive made
    exact run.keepsValues (Rules.ofHash_lawful lawful positive .reported) shows
  · intro n _ positive history client trace
    obtain ⟨slots, run, shows⟩ := trace.run fun _ _ made => FixedTable.create_shows positive made
    exact run.keepsValues (Rules.ofHash_lawful lawful positive .fatal) shows

/-- After a removal the older copy of a key comes back to light, with the value it had. -/
theorem keeps_values_older_copy :
    ∃ (history : ClientHistory Nat Nat) (client : Client (DynamicTable Nat) Nat),
      history = [(.put 10 1, .table (.slot (some 3))), (.put 30 2, .table (.slot (some 0))),
        (.put 50 3, .table (.slot (some 1))), (.del 30, .table (.slot (some 0))),
        (.put 50 4, .table (.slot (some 0))), (.get 50, .value (some 4)),
        (.del 50, .table (.slot (some 0))), (.get 50, .value none),
        (.put 30 5, .table (.slot (some 0))), (.get 50, .value (some 3))] ∧
      Client.Trace (DynamicTable.create 4 UInt64.ofNat fun a b => a == b) history client ∧
      KeepsValues 4 (fun a b => a == b) history client := by
  have created : Client.Trace (DynamicTable.create 4 UInt64.ofNat fun a b : Nat => a == b) []
      ⟨_, [0, 0, 0, 0]⟩ := .created (DynamicTable.create_result (by decide) _ _ .off) rfl
  have trace := created
    |>.step .direct (.put 10 1) .off rfl |>.step .direct (.put 30 2) .off rfl
    |>.step .direct (.put 50 3) .off rfl |>.step .direct (.del 30) .off rfl
    |>.step .direct (.put 50 4) .off rfl |>.step .direct (.get 50) .off rfl
    |>.step .throughIndex (.del 50) .off rfl |>.step .direct (.get 50) .off rfl
    |>.step .direct (.put 30 5) .off rfl |>.step .throughIndex (.get 50) .off rfl
  have keeps := (keeps_values (.of_part id UInt64.ofNat)).1 4 _ _ trace
  exact ⟨_, _, rfl, trace, keeps⟩

end SlotTable

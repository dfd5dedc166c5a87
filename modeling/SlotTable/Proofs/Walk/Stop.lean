import SlotTable.Proofs.Storage.Contents
import SlotTable.Proofs.Walk.Distance

/-!
# Where a walk stops

On a storage that follows its laws no walk faults, and its landing is a plain function of the slots:
`Walk.stop`. `StopsAt` says without recursion where a walk stops that visits slots in the order of a
rank: at a slot that it reaches, past slots with other keys only. `stop_stopsAt` says that every
walk stops there, and `StopsAt.unique` that no second landing fits.
-/
namespace SlotTable

variable {K : Type}

namespace Walk

/-- Where the walk over the given slots stops when all of them can be read. -/
def stop (slot : Nat → Option K) (matching : K → K → Bool) (key : K) : List Nat → Landing
  | [] => .exhausted
  | index :: rest =>
    match slot index with
    | none => .vacant index
    | some stored => if matching stored key then .occupied index else stop slot matching key rest

/-- The stored keys that the walk asks about. -/
def asked (slot : Nat → Option K) (matching : K → K → Bool) (key : K) : List Nat → List K
  | [] => []
  | index :: rest =>
    match slot index with
    | none => []
    | some stored =>
      if matching stored key then [stored] else stored :: asked slot matching key rest

theorem along_eq {S : Type} [Storage S K] [LawfulStorage S K] (slots : S)
    (matching : K → K → Bool) (key : K) (path : List Nat)
    (inside : ∀ index ∈ path, index < Storage.capacity slots) :
    along slots matching key path =
      .ok ⟨stop (slotOf slots) matching key path, asked (slotOf slots) matching key path⟩ := by
  induction path with
  | nil => rfl
  | cons index rest ih =>
    rw [along, keyAt_eq_slotOf (inside index (by simp)), stop, asked]
    cases held : slotOf slots index with
    | none => rfl
    | some stored =>
      by_cases answers : matching stored key
      · simp [bind, Except.bind, pure, Except.pure, answers]
      · have below := ih fun later member => inside later (by simp [member])
        simp [bind, Except.bind, pure, Except.pure, answers, below]

/-- The slots in the order in which the walk for a hash visits them. It is irreducible, or terms
with it would be evaluated down to the mixing of the hash. -/
@[irreducible]
def order (hash : UInt64) (capacity : Nat) : List Nat :=
  visitOrder (homeIndex hash capacity) capacity

theorem mem_order (hash : UInt64) {capacity slot : Nat} (positive : 0 < capacity) :
    slot ∈ order hash capacity ↔ slot < capacity := by
  unfold order
  exact mem_visitOrder (Nat.le_of_lt (homeIndex_lt hash positive))

/-- A walk over a storage with slots ends. -/
theorem ofHash_eq {S : Type} [Storage S K] [LawfulStorage S K] (slots : S)
    (positive : 0 < Storage.capacity slots) (matching : K → K → Bool) (hash : UInt64) (key : K) :
    ofHash slots matching hash key =
      .ok ⟨stop (slotOf slots) matching key (order hash (Storage.capacity slots)),
        asked (slotOf slots) matching key (order hash (Storage.capacity slots))⟩ := by
  have begun : ofHash slots matching hash key =
      along slots matching key (order hash (Storage.capacity slots)) := by
    unfold order
    simp only [ofHash, home, if_neg (Nat.ne_of_gt positive), bind, Except.bind]
  exact begun.trans (along_eq slots matching key _ fun index => (mem_order hash positive).mp)

/-- A walk stops at one of the slots that it visits. -/
theorem mem_of_stop {slot : Nat → Option K} {matching : K → K → Bool} {key : K} {index : Nat}
    {path : List Nat} (stopped : (stop slot matching key path).slot? = some index) :
    index ∈ path := by
  induction path with
  | nil => cases stopped
  | cons first rest ih =>
    rw [stop] at stopped
    cases held : slot first with
    | none =>
      rw [held] at stopped
      cases stopped
      exact List.mem_cons_self
    | some stored =>
      simp only [held] at stopped
      split at stopped
      · cases stopped
        exact List.mem_cons_self
      · exact List.mem_cons_of_mem _ (ih stopped)

/-- The walk for a key goes on past a slot whose key does not match. -/
def Passes (slot : Nat → Option K) (matching : K → K → Bool) (key : K) (index : Nat) : Prop :=
  ∃ stored, slot index = some stored ∧ matching stored key = false

/-- A slot whose key matches. -/
def Matches (slot : Nat → Option K) (matching : K → K → Bool) (key : K) (index : Nat) : Prop :=
  ∃ stored, slot index = some stored ∧ matching stored key = true

/-- A walk that visits the slots in `visited` in the order of `rank` comes as far as a slot. -/
def Reaches (visited : Nat → Prop) (rank : Nat → Nat) (slot : Nat → Option K)
    (matching : K → K → Bool) (key : K) (index : Nat) : Prop :=
  visited index ∧
    ∀ before, visited before → rank before < rank index → Passes slot matching key before

inductive StopsAt (visited : Nat → Prop) (rank : Nat → Nat) (slot : Nat → Option K)
    (matching : K → K → Bool) (key : K) : Landing → Prop where
  | vacant {index : Nat} (reached : Reaches visited rank slot matching key index)
      (empty : slot index = none) : StopsAt visited rank slot matching key (.vacant index)
  | occupied {index : Nat} (reached : Reaches visited rank slot matching key index)
      (found : Matches slot matching key index) :
      StopsAt visited rank slot matching key (.occupied index)
  | exhausted (passed : ∀ index, visited index → Passes slot matching key index) :
      StopsAt visited rank slot matching key .exhausted

variable {slot : Nat → Option K} {matching : K → K → Bool} {key : K} {index : Nat}

theorem not_passes_of_none (empty : slot index = none) : ¬ Passes slot matching key index := by
  intro passed
  obtain ⟨stored, held, -⟩ := passed
  simp [empty] at held

theorem Matches.ne_none (found : Matches slot matching key index) : slot index ≠ none := by
  obtain ⟨stored, held, -⟩ := found
  simp [held]

theorem Matches.not_passes (found : Matches slot matching key index) :
    ¬ Passes slot matching key index := by
  intro passed
  obtain ⟨stored, held, differs⟩ := passed
  obtain ⟨other, heldOther, answers⟩ := found
  rw [held, Option.some.injEq] at heldOther
  rw [← heldOther, differs] at answers
  exact absurd answers (by decide)

/-- A slot in front that the walk passes moves no landing. -/
theorem StopsAt.cons {rank : Nat → Nat} {rest : List Nat} {landing : Landing}
    (passes : Passes slot matching key index)
    (stops : StopsAt (· ∈ rest) rank slot matching key landing) :
    StopsAt (· ∈ index :: rest) rank slot matching key landing := by
  have farther : ∀ stop, Reaches (· ∈ rest) rank slot matching key stop →
      Reaches (· ∈ index :: rest) rank slot matching key stop := by
    intro stop reached
    obtain ⟨member, before⟩ := reached
    exact ⟨List.mem_cons_of_mem _ member, List.forall_mem_cons.mpr ⟨fun _ => passes, before⟩⟩
  cases stops with
  | vacant reached empty => exact .vacant (farther _ reached) empty
  | occupied reached found => exact .occupied (farther _ reached) found
  | exhausted passed => exact .exhausted (List.forall_mem_cons.mpr ⟨passes, passed⟩)

/-- A walk along a list in the order of `rank` stops where it should. -/
theorem stop_stopsAt (rank : Nat → Nat) (path : List Nat)
    (sorted : path.Pairwise fun a b => rank a < rank b) :
    StopsAt (· ∈ path) rank slot matching key (stop slot matching key path) := by
  induction path with
  | nil => exact .exhausted fun index member => absurd member List.not_mem_nil
  | cons index rest ih =>
    obtain ⟨first, sortedRest⟩ := List.pairwise_cons.mp sorted
    have reached : Reaches (· ∈ index :: rest) rank slot matching key index := by
      refine ⟨List.mem_cons_self, fun before member less => ?_⟩
      rcases List.mem_cons.mp member with rfl | later
      · exact absurd less (Nat.lt_irrefl _)
      · exact absurd less (Nat.lt_asymm (first before later))
    cases held : slot index with
    | none =>
      simp only [stop, held]
      exact .vacant reached held
    | some stored =>
      by_cases answers : matching stored key = true
      · simp only [stop, held, if_pos answers]
        exact .occupied reached ⟨stored, held, answers⟩
      · simp only [stop, held, if_neg answers]
        exact StopsAt.cons ⟨stored, held, Bool.eq_false_iff.mpr answers⟩ (ih sortedRest)

section Unique

variable {visited : Nat → Prop} {rank : Nat → Nat}
  (distinct : ∀ a b, visited a → visited b → rank a = rank b → a = b)
include distinct

/-- Of two slots that a walk reaches and does not pass, neither is before the other. -/
theorem Reaches.unique {a b : Nat} (reachesA : Reaches visited rank slot matching key a)
    (reachesB : Reaches visited rank slot matching key b)
    (stopA : ¬ Passes slot matching key a) (stopB : ¬ Passes slot matching key b) : a = b := by
  rcases Nat.lt_trichotomy (rank a) (rank b) with less | equal | less
  · exact absurd (reachesB.2 a reachesA.1 less) stopA
  · exact distinct a b reachesA.1 reachesB.1 equal
  · exact absurd (reachesA.2 b reachesB.1 less) stopB

/-- A walk stops at one place only. -/
theorem StopsAt.unique {first second : Landing}
    (stopsFirst : StopsAt visited rank slot matching key first)
    (stopsSecond : StopsAt visited rank slot matching key second) : first = second := by
  cases stopsFirst with
  | @vacant a reachesA emptyA =>
    have stopA : ¬ Passes slot matching key a := not_passes_of_none emptyA
    cases stopsSecond with
    | vacant reachesB emptyB =>
      rw [reachesA.unique distinct reachesB stopA (not_passes_of_none emptyB)]
    | occupied reachesB foundB =>
      have equal := reachesA.unique distinct reachesB stopA foundB.not_passes
      exact absurd (equal ▸ emptyA) foundB.ne_none
    | exhausted passed => exact absurd (passed a reachesA.1) stopA
  | @occupied a reachesA foundA =>
    cases stopsSecond with
    | vacant reachesB emptyB =>
      have equal := reachesA.unique distinct reachesB foundA.not_passes (not_passes_of_none emptyB)
      exact absurd (equal ▸ emptyB) foundA.ne_none
    | occupied reachesB foundB =>
      rw [reachesA.unique distinct reachesB foundA.not_passes foundB.not_passes]
    | exhausted passed => exact absurd (passed a reachesA.1) foundA.not_passes
  | exhausted passed =>
    cases stopsSecond with
    | vacant reachesB emptyB => exact absurd (passed _ reachesB.1) (not_passes_of_none emptyB)
    | occupied reachesB foundB => exact absurd (passed _ reachesB.1) foundB.not_passes
    | exhausted => rfl

end Unique

end Walk

end SlotTable

import Mathlib.Data.List.Induction
import Mathlib.Data.List.MinMax
import SlotTable.Log.Setup

/-!
# Which directive decides

`Decides` says of a list of directives, and without a filter, which of them decides about a target:
the one with the longest name among those that apply, as it was given last. There is one whenever
some directive applies, and only one. The filter that a list of directives leads to holds the
directives that stand (`mem_ofDirectives`), and it decides like the list (`deciding?_ofDirectives`).
For that the list must begin with a directive without a name, as the standard one does: a name can
be empty, and then only the place in the filter tells it from no name.
-/
namespace SlotTable

namespace Directive

variable {directives : List Directive} {target : String} {directive other : Directive}

/-- How far into a target the name of a directive reaches; having no name is less than any name. -/
def extent (directive : Directive) : Nat :=
  match directive.name with
  | none => 0
  | some name => name.utf8ByteSize + 1

/-- A directive that is the last one of its name. -/
def Stands (directives : List Directive) (directive : Directive) : Prop :=
  (directives.filter fun other => other.name = directive.name).getLast? = some directive

instance (directives : List Directive) (directive : Directive) :
    Decidable (Stands directives directive) :=
  inferInstanceAs (Decidable (_ = some directive))

structure Decides (directives : List Directive) (target : String) (directive : Directive) :
    Prop where
  stands : Stands directives directive
  applies : directive.appliesTo target = true
  longest : ∀ other ∈ directives, other.appliesTo target = true → other.extent ≤ directive.extent

theorem extent_congr (same : other.name = directive.name) : other.extent = directive.extent := by
  unfold extent
  rw [same]

theorem appliesTo_congr (same : other.name = directive.name) (target : String) :
    other.appliesTo target = directive.appliesTo target := by
  unfold appliesTo
  rw [same]

/-- Among directives with a name the heavier one reaches farther. -/
theorem extent_le_of_weight_le (named : directive.name ≠ none)
    (heavier : other.weight ≤ directive.weight) : other.extent ≤ directive.extent := by
  unfold weight at heavier
  unfold extent
  cases own : directive.name with
  | none => exact absurd own named
  | some name =>
    cases others : other.name with
    | none => exact Nat.zero_le _
    | some nameOther =>
      rw [own, others] at heavier
      exact Nat.succ_le_succ heavier

theorem Stands.mem (stands : Stands directives directive) : directive ∈ directives :=
  List.mem_of_mem_filter (List.mem_of_getLast? stands)

theorem Stands.unique (stands : Stands directives directive)
    (standsOther : Stands directives other) (same : other.name = directive.name) :
    other = directive := by
  unfold Stands at stands standsOther
  rw [same, stands] at standsOther
  exact (Option.some.inj standsOther).symm

theorem stands_snoc {new : Directive} :
    Stands (directives ++ [new]) directive ↔
      directive = new ∨ directive.name ≠ new.name ∧ Stands directives directive := by
  unfold Stands
  rw [List.filter_append]
  by_cases same : directive.name = new.name
  · simp [same, eq_comm]
  · have different : directive ≠ new := fun equal => same (congrArg name equal)
    simp [same, different, Ne.symm same]

/-- Of every name that is given one directive stands. -/
theorem exists_stands (member : directive ∈ directives) :
    ∃ last, Stands directives last ∧ last.name = directive.name := by
  have listed : directive ∈ directives.filter fun other => other.name = directive.name :=
    List.mem_filter.mpr ⟨member, decide_eq_true rfl⟩
  obtain ⟨last, ends⟩ := Option.ne_none_iff_exists'.mp
    (mt List.getLast?_eq_none_iff.mp (List.ne_nil_of_mem listed))
  have same : last.name = directive.name :=
    of_decide_eq_true (List.mem_filter.mp (List.mem_of_getLast? ends)).2
  refine ⟨last, ?_, same⟩
  unfold Stands
  rw [same]
  exact ends

/-- Two beginnings of a text are equal if they have as many bytes. -/
theorem eq_of_prefix_of_size {a b text : String} (first : a.toList <+: text.toList)
    (second : b.toList <+: text.toList) (size : a.utf8ByteSize = b.utf8ByteSize) : a = b := by
  have shorter : ∀ {x y : String}, x.toList <+: y.toList → x.utf8ByteSize = y.utf8ByteSize →
      x = y := by
    intro x y begins same
    obtain ⟨rest, appended⟩ := begins
    have joined : y = x ++ String.ofList rest := by
      rw [← String.toList_inj, String.toList_append, String.toList_ofList, appended]
    have empty : String.ofList rest = "" := by
      rw [← String.utf8ByteSize_eq_zero_iff]
      rw [joined, String.utf8ByteSize_append] at same
      omega
    rw [joined, empty, String.append_empty]
  rcases List.prefix_or_prefix_of_prefix first second with begins | begins
  · exact shorter begins size
  · exact (shorter begins size.symm).symm

/-- Directives that apply to one target differ in extent if they differ in name. -/
theorem name_eq_of_extent (applies : directive.appliesTo target = true)
    (appliesOther : other.appliesTo target = true) (same : other.extent = directive.extent) :
    other.name = directive.name := by
  unfold appliesTo at applies appliesOther
  unfold extent at same
  cases named : directive.name with
  | none =>
    cases namedOther : other.name with
    | none => rfl
    | some name => simp [named, namedOther] at same
  | some name =>
    cases namedOther : other.name with
    | none => simp [named, namedOther] at same
    | some nameOther =>
      simp only [named, namedOther, List.isPrefixOf_iff_prefix, Nat.add_right_cancel_iff]
        at applies appliesOther same
      rw [eq_of_prefix_of_size appliesOther applies same]

theorem Decides.unique (decides : Decides directives target directive)
    (decidesOther : Decides directives target other) : other = directive := by
  have first := decides.longest other decidesOther.stands.mem decidesOther.applies
  have second := decidesOther.longest directive decides.stands.mem decides.applies
  exact decides.stands.unique decidesOther.stands
    (name_eq_of_extent decides.applies decidesOther.applies (Nat.le_antisymm first second))

theorem exists_decides (member : directive ∈ directives)
    (applies : directive.appliesTo target = true) :
    ∃ decider, Decides directives target decider := by
  have listed : directive ∈ directives.filter (·.appliesTo target) :=
    List.mem_filter.mpr ⟨member, applies⟩
  obtain ⟨longest, attained⟩ := Option.ne_none_iff_exists'.mp
    (mt List.argmax_eq_none.mp (List.ne_nil_of_mem listed) :
      (directives.filter (·.appliesTo target)).argmax extent ≠ none)
  obtain ⟨given, reaches⟩ := List.mem_filter.mp (List.argmax_mem attained)
  obtain ⟨last, stands, same⟩ := exists_stands given
  refine ⟨last, stands, (appliesTo_congr same target).trans reaches, ?_⟩
  intro other memberOther also
  rw [extent_congr same]
  exact List.le_of_mem_argmax (List.mem_filter.mpr ⟨memberOther, also⟩) attained

/-- A directive in front has no say if it does not apply or does not reach farther. -/
theorem Decides.cons {new : Directive} (decides : Decides directives target directive)
    (shorter : new.appliesTo target = true → new.extent ≤ directive.extent) :
    Decides (new :: directives) target directive where
  stands := by
    have stands := decides.stands
    unfold Stands at stands ⊢
    rw [List.filter_cons]
    split
    · rw [List.getLast?_cons, stands, Option.getD_some]
    · exact stands
  applies := decides.applies
  longest := List.forall_mem_cons.mpr ⟨shorter, decides.longest⟩

/-- A directive in front decides if none of those after it reaches as far. -/
theorem decides_cons_self (applies : directive.appliesTo target = true)
    (farther : ∀ other ∈ directives, other.appliesTo target = true →
      other.extent < directive.extent) : Decides (directive :: directives) target directive where
  stands := by
    have renamed : directives.filter (fun other => other.name = directive.name) = [] := by
      refine List.filter_eq_nil_iff.mpr fun other member same => ?_
      have equal := of_decide_eq_true same
      have less := farther other member ((appliesTo_congr equal target).trans applies)
      exact absurd (extent_congr equal) (Nat.ne_of_lt less)
    unfold Stands
    rw [List.filter_cons, renamed]
    simp
  applies := applies
  longest := List.forall_mem_cons.mpr ⟨fun _ => Nat.le_refl _, fun other member also =>
    Nat.le_of_lt (farther other member also)⟩

end Directive

namespace Filter

open Directive

variable {directives : List Directive} {target : String} {directive new : Directive}

/-- The filter after the directives were inserted, the first one first. -/
def ofDirectives (directives : List Directive) : Filter := directives.foldl insert ⟨[]⟩

theorem ofDirectives_snoc (directives : List Directive) (new : Directive) :
    (ofDirectives (directives ++ [new])).directives =
      insertInto new (ofDirectives directives).directives := by
  unfold ofDirectives
  rw [List.foldl_append]
  rfl

theorem map_name_insertInto (new : Directive) (directives : List Directive) :
    (insertInto new directives).map Directive.name =
      if new.name ∈ directives.map Directive.name then directives.map Directive.name
      else directives.map Directive.name ++ [new.name] := by
  induction directives with
  | nil => rfl
  | cons old rest ih =>
    rw [insertInto]
    by_cases same : old.name = new.name
    · simp [same]
    · rw [if_neg same, List.map_cons, ih]
      by_cases later : new.name ∈ rest.map Directive.name <;> simp [later, Ne.symm same]

theorem mem_insertInto (distinct : (directives.map Directive.name).Nodup) :
    directive ∈ insertInto new directives ↔
      directive = new ∨ directive.name ≠ new.name ∧ directive ∈ directives := by
  induction directives with
  | nil => simp [insertInto]
  | cons old rest ih =>
    obtain ⟨fresh, distinctRest⟩ := List.nodup_cons.mp distinct
    rw [insertInto]
    by_cases same : old.name = new.name
    · have others : ∀ directive ∈ rest, directive.name ≠ new.name := by
        intro directive member equal
        exact fresh (same ▸ equal ▸ List.mem_map_of_mem member)
      rw [if_pos same, List.mem_cons, List.mem_cons]
      constructor
      · rintro (equal | member)
        · exact .inl equal
        · exact .inr ⟨others directive member, .inr member⟩
      · rintro (equal | ⟨different, equal | member⟩)
        · exact .inl equal
        · exact absurd (equal ▸ same) different
        · exact .inr member
    · rw [if_neg same, List.mem_cons, ih distinctRest, List.mem_cons]
      constructor
      · rintro (equal | equal | ⟨different, member⟩)
        · exact .inr ⟨equal ▸ same, .inl equal⟩
        · exact .inl equal
        · exact .inr ⟨different, .inr member⟩
      · rintro (equal | ⟨different, equal | member⟩)
        · exact .inr (.inl equal)
        · exact .inl equal
        · exact .inr (.inr ⟨different, member⟩)

theorem distinct_ofDirectives (directives : List Directive) :
    ((ofDirectives directives).directives.map Directive.name).Nodup := by
  induction directives using List.reverseRecOn with
  | nil => exact List.nodup_nil
  | append_singleton directives new ih =>
    rw [ofDirectives_snoc, map_name_insertInto]
    split
    · exact ih
    · next fresh =>
      refine List.nodup_append.mpr ⟨ih, by simp, fun name member other last equal => ?_⟩
      rw [equal, List.mem_singleton.mp last] at member
      exact fresh member

/-- The filter holds the directives that stand. -/
theorem mem_ofDirectives :
    directive ∈ (ofDirectives directives).directives ↔ Stands directives directive := by
  induction directives using List.reverseRecOn with
  | nil => simp [ofDirectives, Stands]
  | append_singleton directives new ih =>
    rw [ofDirectives_snoc, mem_insertInto (distinct_ofDirectives directives), stands_snoc, ih]

/-- The name that is given first stays in front. -/
theorem head_ofDirectives (first : Directive) (rest : List Directive) :
    ((ofDirectives (first :: rest)).directives.map Directive.name).head? = some first.name := by
  induction rest using List.reverseRecOn with
  | nil => rfl
  | append_singleton rest new ih =>
    rw [← List.cons_append, ofDirectives_snoc, map_name_insertInto]
    split
    · exact ih
    · rw [List.head?_append, ih]
      rfl

/-- A directive without a name that is given first stays in front of all with a name. -/
theorem named_after_first {first : Directive} (nameless : first.name = none)
    (rest : List Directive) :
    (ofDirectives (first :: rest)).directives.Pairwise fun _ later => later.name ≠ none := by
  have head := head_ofDirectives first rest
  have distinct := distinct_ofDirectives (first :: rest)
  rw [nameless] at head
  cases listed : (ofDirectives (first :: rest)).directives with
  | nil => exact .nil
  | cons front others =>
    rw [listed] at head distinct
    rw [List.map_cons, List.head?_cons, Option.some.injEq] at head
    rw [List.map_cons, head, List.nodup_cons] at distinct
    have named : ∀ other ∈ others, other.name ≠ none := by
      intro other member missing
      exact distinct.1 (missing ▸ List.mem_map_of_mem member)
    exact List.pairwise_cons.mpr ⟨named, List.pairwise_of_forall_mem_list fun _ _ other member =>
      named other member⟩

/-- The fold ends with a heaviest directive, the last one of them. -/
theorem foldl_heavier {applying : List Directive} (some_apply : applying ≠ []) :
    ∃ earlier best later, applying = earlier ++ best :: later ∧
      applying.foldl heavier none = some best ∧
      (∀ other ∈ earlier, other.weight ≤ best.weight) ∧
      ∀ other ∈ later, other.weight < best.weight := by
  induction applying using List.reverseRecOn with
  | nil => exact absurd rfl some_apply
  | append_singleton applying new ih =>
    by_cases empty : applying = []
    · subst empty
      exact ⟨[], new, [], rfl, rfl, by simp, by simp⟩
    · obtain ⟨earlier, best, later, rfl, folded, before, after⟩ := ih empty
      rw [List.foldl_append, folded]
      by_cases heavy : best.weight ≤ new.weight
      · refine ⟨earlier ++ best :: later, new, [], rfl, by simp [heavier, heavy], ?_, by simp⟩
        intro other member
        rcases List.mem_append.mp member with front | back
        · exact Nat.le_trans (before other front) heavy
        · rcases List.mem_cons.mp back with rfl | back
          · exact heavy
          · exact Nat.le_trans (Nat.le_of_lt (after other back)) heavy
      · refine ⟨earlier, best, later ++ [new], by simp, by simp [heavier, heavy], before, ?_⟩
        intro other member
        rcases List.mem_append.mp member with back | last
        · exact after other back
        · rw [List.mem_singleton.mp last]
          exact Nat.lt_of_not_le heavy

/-- The heaviest directive reaches farthest, if one without a name comes before all others. -/
theorem extent_le_of_heaviest {earlier later : List Directive} {best : Directive}
    (ordered : (earlier ++ best :: later).Pairwise fun _ later => later.name ≠ none)
    (before : ∀ other ∈ earlier, other.weight ≤ best.weight)
    (after : ∀ other ∈ later, other.weight < best.weight) :
    ∀ other ∈ earlier ++ best :: later, other.extent ≤ best.extent := by
  intro other member
  by_cases missing : best.name = none
  · -- Nothing is lighter than no name, and nothing is in front of it.
    have weightless : best.weight = 0 := by simp [weight, missing]
    rcases List.mem_append.mp member with front | back
    · exact absurd missing ((List.pairwise_append.mp ordered).2.2 other front best (by simp))
    · rcases List.mem_cons.mp back with rfl | back
      · exact Nat.le_refl _
      · exact absurd (after other back) (by omega)
  · refine extent_le_of_weight_le missing ?_
    rcases List.mem_append.mp member with front | back
    · exact before other front
    · rcases List.mem_cons.mp back with rfl | back
      · exact Nat.le_refl _
      · exact Nat.le_of_lt (after other back)

/-- A filter that began with a directive without a name lets the directive decide that decides among
all that were inserted. -/
theorem deciding?_ofDirectives {first : Directive} {rest : List Directive}
    (nameless : first.name = none) (decides : Decides (first :: rest) target directive) :
    (ofDirectives (first :: rest)).deciding? target = some directive := by
  have member_iff : ∀ {other : Directive},
      other ∈ (ofDirectives (first :: rest)).directives.filter (·.appliesTo target) ↔
        Stands (first :: rest) other ∧ other.appliesTo target = true := by
    intro other
    rw [List.mem_filter, mem_ofDirectives]
  have some_apply := List.ne_nil_of_mem (member_iff.mpr ⟨decides.stands, decides.applies⟩)
  obtain ⟨earlier, best, later, split, folded, before, after⟩ := foldl_heavier some_apply
  have ordered := (named_after_first nameless rest).filter (·.appliesTo target)
  rw [split] at ordered member_iff
  have bestMember : best ∈ earlier ++ best :: later := by simp
  obtain ⟨bestStands, bestApplies⟩ := member_iff.mp bestMember
  have farthest := extent_le_of_heaviest ordered before after
  have bestDecides : Decides (first :: rest) target best := by
    refine ⟨bestStands, bestApplies, fun other given applies => ?_⟩
    obtain ⟨last, stands, same⟩ := exists_stands given
    rw [← extent_congr same]
    exact farthest last (member_iff.mpr ⟨stands, (appliesTo_congr same target).trans applies⟩)
  unfold deciding?
  rw [folded, decides.unique bestDecides]

end Filter

end SlotTable

import Mathlib.Data.List.Induction
import SlotTable.Proofs.Rules.Lawful

/-!
# Classes of matching keys

`classes` keeps of a list of keys the first one of each class. No two of them match, and under
lawful rules every key of the list matches one. Two lists with the same classes have equally many of
them with any property that matching keys share (`countP_classes_eq`); that and other counts go by
`length_le_of_apart`: a list is not longer than another one that has an entry of its own for each of
its entries.
-/
namespace SlotTable

variable {K : Type}

/-- The first key of each class of matching keys, in the order of the list. -/
def classes (matching : K → K → Bool) (keys : List K) : List K :=
  keys.eraseDupsBy fun key first => matching first key

/-- Every key of either list matches one of the other list. -/
def SameClasses (matching : K → K → Bool) (keys others : List K) : Prop :=
  (∀ key ∈ keys, ∃ other ∈ others, matching key other = true) ∧
    ∀ other ∈ others, ∃ key ∈ keys, matching other key = true

example : classes (fun a b => a % 10 == b % 10) [4, 27, 14, 3, 7] = [4, 27, 3] := by decide

section Lists

variable {A B : Type}

theorem eraseDupsBy_snoc (related : A → A → Bool) (list : List A) (last : A) :
    (list ++ [last]).eraseDupsBy related =
      if (list.eraseDupsBy related).any (related last) then list.eraseDupsBy related
      else list.eraseDupsBy related ++ [last] := by
  -- the loop carries what it has kept, so the induction is over every such list
  have loop : ∀ kept, List.eraseDupsBy.loop related (list ++ [last]) kept =
      if (List.eraseDupsBy.loop related list kept).any (related last) then
        List.eraseDupsBy.loop related list kept
      else List.eraseDupsBy.loop related list kept ++ [last] := by
    induction list with
    | nil =>
      intro kept
      cases known : kept.any (related last) <;> simp [List.eraseDupsBy.loop, known]
    | cons head tail ih =>
      intro kept
      rw [List.cons_append]
      cases known : kept.any (related head) <;>
        simp only [List.eraseDupsBy.loop, known] <;> exact ih _
  exact loop []

/-- Different entries of the first list are related to different entries of the second. -/
theorem length_le_of_apart {first : List A} {second : List B} (related : A → B → Prop)
    (reaches : ∀ a ∈ first, ∃ b ∈ second, related a b)
    (apart : first.Pairwise fun a other => ∀ b, related a b → ¬ related other b) :
    first.length ≤ second.length := by
  induction first generalizing second with
  | nil => exact Nat.zero_le _
  | cons a rest ih =>
    obtain ⟨differs, apartRest⟩ := List.pairwise_cons.mp apart
    -- no later entry reaches what the first one does, so it can be taken out of the second list
    obtain ⟨b, member, relatedB⟩ := reaches a List.mem_cons_self
    obtain ⟨before, after, rfl⟩ := List.append_of_mem member
    have shorter : rest.length ≤ (before ++ after).length := by
      refine ih (fun other memberOther => ?_) apartRest
      obtain ⟨c, memberC, relatedC⟩ := reaches other (List.mem_cons_of_mem _ memberOther)
      have different : c ≠ b := by
        rintro rfl
        exact differs other memberOther c relatedB relatedC
      rw [List.mem_append, List.mem_cons] at memberC
      exact ⟨c, List.mem_append.mpr (memberC.imp_right fun later => later.resolve_left different),
        relatedC⟩
    simp only [List.length_append, List.length_cons] at shorter ⊢
    omega

end Lists

variable {matching : K → K → Bool} {keys : List K} {key : K}

theorem classes_snoc_of_any (known : ∃ first ∈ classes matching keys, matching first key = true) :
    classes matching (keys ++ [key]) = classes matching keys := by
  unfold classes at known ⊢
  rw [eraseDupsBy_snoc, if_pos (List.any_eq_true.mpr known)]

theorem classes_snoc_of_none (new : ∀ first ∈ classes matching keys, matching first key = false) :
    classes matching (keys ++ [key]) = classes matching keys ++ [key] := by
  unfold classes at new ⊢
  rw [eraseDupsBy_snoc, if_neg]
  simpa using new

/-- Whether a key is the first of its class. -/
theorem classes_snoc_cases (matching : K → K → Bool) (keys : List K) (key : K) :
    (∃ first ∈ classes matching keys, matching first key = true) ∨
      ∀ first ∈ classes matching keys, matching first key = false := by
  by_cases known : ∃ first ∈ classes matching keys, matching first key = true
  · exact .inl known
  · refine .inr fun first member => ?_
    exact Bool.eq_false_iff.mpr fun equal => known ⟨first, member, equal⟩

theorem classes_subset (matching : K → K → Bool) (keys : List K) :
    classes matching keys ⊆ keys := by
  induction keys using List.reverseRecOn with
  | nil => exact List.Subset.refl []
  | append_singleton keys key ih =>
    have longer := List.Subset.trans ih (List.subset_append_left keys [key])
    rcases classes_snoc_cases matching keys key with known | new
    · rw [classes_snoc_of_any known]
      exact longer
    · rw [classes_snoc_of_none new]
      exact List.append_subset.mpr ⟨longer, List.subset_append_right keys [key]⟩

theorem classes_pairwise (matching : K → K → Bool) (keys : List K) :
    (classes matching keys).Pairwise fun a b => matching a b = false := by
  induction keys using List.reverseRecOn with
  | nil => exact .nil
  | append_singleton keys key ih =>
    rcases classes_snoc_cases matching keys key with known | new
    · rw [classes_snoc_of_any known]
      exact ih
    · rw [classes_snoc_of_none new]
      refine List.pairwise_append.mpr ⟨ih, List.pairwise_singleton _ _, ?_⟩
      intro first member last memberLast
      rw [List.mem_singleton.mp memberLast]
      exact new first member

namespace Rules.Lawful

variable {rules : Rules K}

theorem exists_class (lawful : rules.Lawful) (member : key ∈ keys) :
    ∃ first ∈ classes rules.matching keys, rules.matching first key = true := by
  induction keys using List.reverseRecOn with
  | nil => cases member
  | append_singleton keys last ih =>
    rcases classes_snoc_cases rules.matching keys last with known | new
    · rw [classes_snoc_of_any known]
      rcases List.mem_append.mp member with earlier | final
      · exact ih earlier
      · rw [List.mem_singleton.mp final]
        exact known
    · rw [classes_snoc_of_none new]
      rcases List.mem_append.mp member with earlier | final
      · obtain ⟨first, memberFirst, equal⟩ := ih earlier
        exact ⟨first, List.mem_append_left _ memberFirst, equal⟩
      · rw [List.mem_singleton.mp final]
        exact ⟨last, by simp, lawful.refl last⟩

/-- Two keys that match a third one match each other. -/
theorem matching_of_common (lawful : rules.Lawful) {a b common : K}
    (first : rules.matching a common = true) (second : rules.matching b common = true) :
    rules.matching a b = true :=
  lawful.trans first (lawful.symm second)

theorem countP_classes_le (lawful : rules.Lawful) {others : List K} {property : K → Bool}
    (shared : ∀ a b, rules.matching a b = true → property a = property b)
    (covered : ∀ key ∈ keys, ∃ other ∈ others, rules.matching key other = true) :
    (classes rules.matching keys).countP property ≤
      (classes rules.matching others).countP property := by
  rw [List.countP_eq_length_filter, List.countP_eq_length_filter]
  refine length_le_of_apart (fun a b => rules.matching a b = true) ?_ ?_
  · intro a member
    obtain ⟨memberA, holds⟩ := List.mem_filter.mp member
    obtain ⟨other, memberOther, equal⟩ := covered a (classes_subset _ _ memberA)
    obtain ⟨first, memberFirst, leads⟩ := lawful.exists_class memberOther
    have matched := lawful.matching_of_common equal leads
    rw [shared a first matched] at holds
    exact ⟨first, List.mem_filter.mpr ⟨memberFirst, holds⟩, matched⟩
  · refine (classes_pairwise rules.matching keys).filter _ |>.imp ?_
    intro a b differs common first second
    rw [lawful.matching_of_common first second] at differs
    cases differs

/-- Lists with the same classes have equally many with a property that matching keys share. -/
theorem countP_classes_eq (lawful : rules.Lawful) {others : List K} {property : K → Bool}
    (shared : ∀ a b, rules.matching a b = true → property a = property b)
    (same : SameClasses rules.matching keys others) :
    (classes rules.matching keys).countP property =
      (classes rules.matching others).countP property :=
  Nat.le_antisymm (lawful.countP_classes_le shared same.1) (lawful.countP_classes_le shared same.2)

end Rules.Lawful

end SlotTable

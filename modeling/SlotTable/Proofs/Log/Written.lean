import Mathlib.Data.List.Basic
import SlotTable.Log.Filter

/-!
# Written directives

A list of directives as a text: with commas between them, each a level or `name=level`. Reading the
text gives the directives back (`readAll_written`), if no name is empty or has a separator or a
blank in it.
-/
namespace SlotTable

theorem Threshold.named?_name (limit : Threshold) : named? limit.name = some limit := by
  rcases limit with _ | (_ | _ | _ | _ | _) <;> decide

theorem Blank.trim_eq {text : List Char} (full : ∀ c ∈ text, isBlank c = false) :
    trim text = text := by
  have unchanged : ∀ {text : List Char}, (∀ c ∈ text, isBlank c = false) →
      text.dropWhile isBlank = text := by
    intro text full
    cases text with
    | nil => rfl
    | cons c rest => rw [List.dropWhile_cons_of_neg (by simp [full c])]
  unfold trim
  rw [unchanged full, unchanged fun c member => full c (List.mem_reverse.mp member),
    List.reverse_reverse]

namespace Directive

variable {directives : List Directive} {directive : Directive}

def text (directive : Directive) : List Char :=
  match directive.name with
  | none => directive.limit.name.toList
  | some name => name.toList ++ '=' :: directive.limit.name.toList

def written (directives : List Directive) : String :=
  String.ofList ([','].intercalate (directives.map text))

/-- A character that is read as itself, wherever it stands. -/
def IsPlain (c : Char) : Prop := c ≠ ',' ∧ c ≠ '=' ∧ c ≠ '/' ∧ Blank.isBlank c = false

instance (c : Char) : Decidable (IsPlain c) :=
  inferInstanceAs (Decidable (c ≠ ',' ∧ c ≠ '=' ∧ c ≠ '/' ∧ Blank.isBlank c = false))

/-- A level, or a level for a name that is read as it is written. -/
def Plain (directive : Directive) : Prop :=
  ∀ name, directive.name = some name → name ≠ "" ∧ ∀ c ∈ name.toList, IsPlain c

theorem splitAtEach_eq_splitOn (separator : Char) (text : List Char) :
    splitAtEach separator text = text.splitOn separator := by
  induction text with
  | nil => rfl
  | cons c rest ih =>
    rw [splitAtEach, ih, List.splitOn_cons_eq_if_modifyHead]
    by_cases splits : c = separator
    · simp [splits]
    · cases parts : rest.splitOn separator with
      | nil => exact absurd parts (List.splitOn_ne_nil separator rest)
      | cons part parts => simp [splits]

theorem isPlain_of_all {text : List Char} (all : text.all (fun c => IsPlain c) = true) :
    ∀ c ∈ text, IsPlain c :=
  fun c member => of_decide_eq_true (List.all_eq_true.mp all c member)

theorem isPlain_limit (limit : Threshold) : ∀ c ∈ limit.name.toList, IsPlain c := by
  rcases limit with _ | (_ | _ | _ | _ | _) <;> exact isPlain_of_all (by decide)

theorem text_ne_nil (directive : Directive) : directive.text ≠ [] := by
  have limit : directive.limit.name.toList ≠ [] := by
    rcases directive.limit with _ | (_ | _ | _ | _ | _) <;> decide
  unfold text
  cases directive.name with
  | none => exact limit
  | some name => simp

theorem mem_text (plain : directive.Plain) {c : Char} (member : c ∈ directive.text) :
    IsPlain c ∨ c = '=' := by
  unfold text at member
  cases named : directive.name with
  | none =>
    rw [named] at member
    exact .inl (isPlain_limit _ c member)
  | some name =>
    rw [named, List.mem_append, List.mem_cons] at member
    rcases member with front | equals | back
    · exact .inl ((plain name named).2 c front)
    · exact .inr equals
    · exact .inl (isPlain_limit _ c back)

theorem read?_text (plain : directive.Plain) : read? directive.text = some directive := by
  obtain ⟨name, limit⟩ := directive
  have level : splitAtEach '=' limit.name.toList = [limit.name.toList] := by
    rw [splitAtEach_eq_splitOn]
    exact List.splitOn_eq_singleton fun member => (isPlain_limit limit _ member).2.1 rfl
  cases name with
  | none =>
    simp only [read?, text, level, String.ofList_toList, Threshold.named?_name]
  | some name =>
    have parted : splitAtEach '=' (name.toList ++ '=' :: limit.name.toList) =
        [name.toList, limit.name.toList] := by
      rw [splitAtEach_eq_splitOn] at level ⊢
      rw [List.splitOn_append_cons_self_of_not_mem
        (fun member => ((plain name rfl).2 _ member).2.1 rfl), level]
    have trimmed : Blank.trim limit.name.toList = limit.name.toList :=
      Blank.trim_eq fun c member => (isPlain_limit limit c member).2.2.2
    have shown : limit.name.toList ≠ [] := text_ne_nil ⟨none, limit⟩
    simp only [read?, text, parted, trimmed, String.ofList_toList, Threshold.named?_name,
      Option.map_some]

theorem mem_intercalate {separator c : Char} {parts : List (List Char)}
    (member : c ∈ [separator].intercalate parts) : c = separator ∨ ∃ part ∈ parts, c ∈ part := by
  induction parts with
  | nil => simp at member
  | cons part rest ih =>
    cases rest with
    | nil => exact .inr ⟨part, by simp, by simpa using member⟩
    | cons next others =>
      rw [List.intercalate_cons_cons, List.append_assoc, List.mem_append, List.singleton_append,
        List.mem_cons] at member
      rcases member with front | equal | back
      · exact .inr ⟨part, by simp, front⟩
      · exact .inl equal
      · obtain equal | ⟨other, listed, member⟩ := ih back
        · exact .inl equal
        · exact .inr ⟨other, List.mem_cons_of_mem _ listed, member⟩

section Written

variable (plain : ∀ directive ∈ directives, directive.Plain)
include plain

/-- There is no slash in a text of directives. -/
theorem splitAtEach_slash_written :
    splitAtEach '/' (written directives).toList = [[','].intercalate (directives.map text)] := by
  rw [splitAtEach_eq_splitOn, written, String.toList_ofList]
  refine List.splitOn_eq_singleton fun member => ?_
  obtain comma | ⟨_, listed, slash⟩ := mem_intercalate member
  · exact absurd comma (by decide)
  · obtain ⟨directive, given, rfl⟩ := List.mem_map.mp listed
    obtain isPlain | equals := mem_text (plain directive given) slash
    · exact isPlain.2.2.1 rfl
    · exact absurd equals (by decide)

theorem splitAtEach_comma_written (given : directives ≠ []) :
    splitAtEach ',' ([','].intercalate (directives.map text)) = directives.map text := by
  rw [splitAtEach_eq_splitOn]
  refine List.splitOn_intercalate _ (fun part listed comma => ?_) (by simpa using given)
  obtain ⟨directive, given, rfl⟩ := List.mem_map.mp listed
  obtain isPlain | equals := mem_text (plain directive given) comma
  · exact isPlain.1 rfl
  · exact absurd equals (by decide)

/-- A text of directives is read as these directives. -/
theorem readAll_written : readAll (written directives) = directives := by
  by_cases given : directives = []
  · subst given
    decide
  have trimmed : (directives.map text).map Blank.trim = directives.map text := by
    rw [List.map_map]
    refine List.map_congr_left fun directive member => Blank.trim_eq fun c shown => ?_
    obtain isPlain | rfl := mem_text (plain directive member) shown
    · exact isPlain.2.2.2
    · decide
  have nonempty : (directives.map text).filter (!·.isEmpty) = directives.map text := by
    refine List.filter_eq_self.mpr fun part listed => ?_
    obtain ⟨directive, -, rfl⟩ := List.mem_map.mp listed
    simp [text_ne_nil]
  simp only [readAll, splitAtEach_slash_written plain, splitAtEach_comma_written plain given,
    trimmed, nonempty, List.filterMap_map]
  calc directives.filterMap (read? ∘ text)
      = directives.filterMap some :=
        List.filterMap_congr fun directive member => read?_text (plain directive member)
    _ = directives := List.filterMap_some

end Written

end Directive

end SlotTable

import Mathlib.Data.List.Basic
import SlotTable.Log.Event

/-!
# What the text of a record tells

Every kind of event has its own opening words, and no opening begins with another one. So the text
of a record tells the kind of its event (`kind_of_beginning`), and after the opening it tells all
that the event holds: no two events have the same text (`message_injective`). A number that a text
has between two others can be read back (`numberBetween?_eq_some_iff`).
-/
namespace SlotTable

theorem toDigits_inj {first second : Nat} (same : Nat.toDigits 10 first = Nat.toDigits 10 second) :
    first = second := by
  simpa using congrArg (fun digits => Nat.ofDigitChars 10 digits 0) same

theorem space_notMem_toDigits {base : Nat} (more : 1 < base) (number : Nat) :
    ' ' ∉ Nat.toDigits base number := by
  induction number using Nat.strongRecOn with
  | ind number ih =>
    rw [Nat.toDigits_eq_if more]
    split
    · simp
    · next large =>
      have smaller : number / base < number := Nat.div_lt_self (by omega) more
      simp [ih _ smaller]

theorem space_notMem_hexDigits (width value : Nat) : ' ' ∉ (hexDigits width value).toList := by
  simp [hexDigits, space_notMem_toDigits]

/-- The number that lower-case hexadecimal digits write. -/
def readHex (digits : List Char) : Nat :=
  digits.foldl (fun value digit => 16 * value + "0123456789abcdef".toList.idxOf digit) 0

theorem readHex_append (digits : List Char) (digit : Char) :
    readHex (digits ++ [digit]) =
      16 * readHex digits + "0123456789abcdef".toList.idxOf digit := by
  rw [readHex, List.foldl_append]
  rfl

theorem readHex_toDigits (value : Nat) : readHex (Nat.toDigits 16 value) = value := by
  have one : ∀ digit < 16, "0123456789abcdef".toList.idxOf (Nat.digitChar digit) = digit := by
    decide
  induction value using Nat.strongRecOn with
  | ind value ih =>
    rw [Nat.toDigits_eq_if (by decide)]
    split
    · next small =>
      rw [← List.nil_append [Nat.digitChar value], readHex_append, one value small]
      exact Nat.zero_add value
    · next large =>
      have front := ih (value / 16) (by omega)
      rw [readHex_append, front, one (value % 16) (Nat.mod_lt _ (by decide))]
      omega

/-- Zeros in front do not change the number. -/
theorem readHex_hexDigits (width value : Nat) : readHex (hexDigits width value).toList = value := by
  have zeros : ∀ count, readHex (List.replicate count '0') = 0 := by
    intro count
    induction count with
    | zero => rfl
    | succ count ih => exact ih
  have front := zeros (width - (Nat.toDigits 16 value).length)
  have back := readHex_toDigits value
  rw [readHex] at front back
  rw [hexDigits, String.toList_ofList, readHex, List.foldl_append, front, back]

/-- The number that a text has in decimal digits between its front and its back. -/
def numberBetween? (front back text : String) : Option Nat := do
  let rest ← text.toList.dropPrefix? front.toList
  let digits ← rest.dropSuffix? back.toList
  let number := Nat.ofDigitChars 10 digits 0
  if Nat.toDigits 10 number = digits then some number else none

theorem numberBetween?_eq_some_iff {front back text : String} {number : Nat} :
    numberBetween? front back text = some number ↔ text = front ++ toString number ++ back := by
  have digits_iff : ∀ digits : List Char,
      (if Nat.toDigits 10 (Nat.ofDigitChars 10 digits 0) = digits then
        some (Nat.ofDigitChars 10 digits 0) else none) = some number ↔
        digits = Nat.toDigits 10 number := by
    intro digits
    rw [Option.ite_none_right_eq_some, Option.some.injEq]
    constructor
    · rintro ⟨written, rfl⟩
      exact written.symm
    · rintro rfl
      simp
  have parts : text = front ++ toString number ++ back ↔
      text.toList = front.toList ++ (Nat.toDigits 10 number ++ back.toList) := by
    rw [← String.toList_inj]
    simp
  rw [parts, numberBetween?]
  simp only [Option.bind_eq_bind, Option.bind_eq_some_iff, List.dropPrefix?_eq_some_iff,
    List.dropSuffix?_eq_some_iff, digits_iff, beq_iff_eq]
  constructor
  · rintro ⟨rest, ⟨_, whole, rfl⟩, digits, ⟨_, rfl, rfl⟩, rfl⟩
    exact whole
  · intro whole
    exact ⟨_, ⟨_, whole, rfl⟩, _, ⟨_, rfl, rfl⟩, rfl⟩

theorem numberBetween?_eq_none {front text : String} (otherwise : ¬ front.toList <+: text.toList)
    (back : String) : numberBetween? front back text = none := by
  refine Option.eq_none_iff_forall_ne_some.mpr fun number read => otherwise ?_
  rw [numberBetween?_eq_some_iff.mp read, String.toList_append, String.toList_append,
    List.append_assoc]
  exact List.prefix_append ..

/-- Texts that are equal are equal before and after the first separator. -/
theorem append_cons_inj {separator : Char} {first second rest other : List Char}
    (absent : separator ∉ first) (missing : separator ∉ second)
    (same : first ++ separator :: rest = second ++ separator :: other) :
    first = second ∧ rest = other := by
  have parts := congrArg (List.splitOn separator) same
  rw [List.splitOn_append_cons_self_of_not_mem absent,
    List.splitOn_append_cons_self_of_not_mem missing, List.cons.injEq] at parts
  obtain ⟨rfl, -⟩ := parts
  exact ⟨rfl, List.tail_eq_of_cons_eq (List.append_cancel_left same)⟩

theorem Landing.text_injective : Function.Injective text := by
  intro first second same
  have chars := congrArg String.toList same
  cases first <;> cases second <;> unfold text at chars <;>
    simp only [toString, String.toList_append, Nat.toList_repr] at chars
  case exhausted.exhausted => rfl
  case vacant.vacant | occupied.occupied =>
    rw [List.append_left_inj, List.append_right_inj] at chars
    rw [toDigits_inj chars]
  all_goals simp at chars

namespace Event

inductive Kind where
  | probed | inserted | erased | cleared | dynamicCreated | dynamicFull | fixedCleared | fixedFull
  deriving DecidableEq

def kind : Event → Kind
  | probed .. => .probed
  | inserted _ => .inserted
  | erased _ => .erased
  | cleared _ => .cleared
  | dynamicCreated _ => .dynamicCreated
  | dynamicFull _ => .dynamicFull
  | fixedCleared _ => .fixedCleared
  | fixedFull _ => .fixedFull

/-- The slot, or the number of slots, that an event names. -/
def number : Event → Nat
  | probed _ slots _ => slots
  | inserted slot => slot
  | erased slot => slot
  | cleared slots => slots
  | dynamicCreated capacity => capacity
  | dynamicFull capacity => capacity
  | fixedCleared slots => slots
  | fixedFull slots => slots

def Kind.opening : Kind → String
  | probed => "Probe for hash 0x"
  | inserted => "Inserted key into slot "
  | erased => "Erased key from slot "
  | cleared => "Cleared all "
  | dynamicCreated => "Creating HashAdaptor with capacity "
  | dynamicFull => "HashAdaptor is full, rejecting insert (capacity "
  | fixedCleared => "Cleared StaticHashAdaptor with "
  | fixedFull => "StaticHashAdaptor with "

/-- What follows the number in a message that tells no more than the number. -/
def Kind.closing : Kind → String
  | cleared => " slots"
  | dynamicFull => ")"
  | fixedCleared => " slots"
  | fixedFull => " slots is full, aborting"
  | _ => ""

variable {event first second : Event} {kind other : Kind}

theorem exists_probed (walk : event.kind = .probed) :
    ∃ hash slots landing, event = probed hash slots landing := by
  cases event <;> cases walk
  exact ⟨_, _, _, rfl⟩

theorem message_of_ne_probed (plain : event.kind ≠ .probed) :
    event.message = event.kind.opening ++ toString event.number ++ event.kind.closing := by
  cases event
  case probed => exact absurd rfl plain
  case inserted | erased | dynamicCreated => exact String.append_empty.symm
  all_goals rfl

theorem toList_message_probed (hash : UInt64) (slots : Nat) (landing : Landing) :
    (probed hash slots landing).message.toList =
      Kind.probed.opening.toList ++ ((hexDigits 16 hash.toNat).toList ++ ' ' :: ("over ".toList ++
        (Nat.toDigits 10 slots ++ ' ' :: ("slots landed at ".toList ++ landing.text.toList)))) := by
  unfold message
  simp only [toString, String.toList_append, Nat.toList_repr, List.append_assoc]
  rfl

theorem message_begins (event : Event) : event.kind.opening.toList <+: event.message.toList := by
  by_cases walk : event.kind = .probed
  · obtain ⟨hash, slots, landing, rfl⟩ := exists_probed walk
    rw [toList_message_probed]
    exact List.prefix_append ..
  · rw [message_of_ne_probed walk, String.toList_append, String.toList_append, List.append_assoc]
    exact List.prefix_append ..

theorem Kind.eq_of_beginning (starts : kind.opening.toList <+: other.opening.toList) :
    kind = other := by
  cases kind <;> cases other <;> first | rfl | exact absurd starts (by decide)

/-- A message that begins like those of a kind is one of this kind. -/
theorem kind_of_beginning (starts : kind.opening.toList <+: event.message.toList) :
    event.kind = kind := by
  rcases List.prefix_or_prefix_of_prefix starts (message_begins event) with short | long
  · exact (Kind.eq_of_beginning short).symm
  · exact Kind.eq_of_beginning long

/-- Reading the number out of a message of a kind, and only of this kind. -/
theorem numberBetween?_message (plain : kind ≠ .probed) (event : Event) :
    numberBetween? kind.opening kind.closing event.message =
      if event.kind = kind then some event.number else none := by
  split
  · next same =>
    subst same
    exact numberBetween?_eq_some_iff.mpr (message_of_ne_probed plain)
  · next different =>
    exact numberBetween?_eq_none (fun starts => different (kind_of_beginning starts)) _

theorem eq_of_number_eq (plain : first.kind ≠ .probed) (kinds : second.kind = first.kind)
    (numbers : first.number = second.number) : first = second := by
  cases first <;> cases second <;> cases kinds
  case probed => exact absurd rfl plain
  all_goals
    cases numbers
    rfl

/-- The text of a walk tells the hash, the number of slots and where the walk ended. -/
theorem message_probed_inj {hash hash' : UInt64} {slots slots' : Nat} {landing landing' : Landing}
    (same : (probed hash slots landing).message = (probed hash' slots' landing').message) :
    probed hash slots landing = probed hash' slots' landing' := by
  rw [← String.toList_inj, toList_message_probed, toList_message_probed,
    List.append_right_inj] at same
  obtain ⟨digits, rest⟩ := append_cons_inj (space_notMem_hexDigits _ _)
    (space_notMem_hexDigits _ _) same
  obtain ⟨numbers, texts⟩ := append_cons_inj (space_notMem_toDigits (by decide) _)
    (space_notMem_toDigits (by decide) _) (List.append_cancel_left rest)
  have hashes : hash.toNat = hash'.toNat := by
    rw [← readHex_hexDigits 16 hash.toNat, digits, readHex_hexDigits]
  have landings := String.toList_inj.mp (List.append_cancel_left texts)
  rw [UInt64.toNat_inj.mp hashes, toDigits_inj numbers, Landing.text_injective landings]

/-- No two events have the same text. -/
theorem message_injective : Function.Injective message := by
  intro first second same
  have kinds : second.kind = first.kind := kind_of_beginning (same ▸ message_begins first)
  by_cases walk : first.kind = .probed
  · obtain ⟨hash, slots, landing, rfl⟩ := exists_probed walk
    obtain ⟨hash', slots', landing', rfl⟩ := exists_probed (kinds.trans walk)
    exact message_probed_inj same
  · have told := numberBetween?_message walk second
    rw [← same, numberBetween?_message walk, if_pos rfl, if_pos kinds, Option.some.injEq] at told
    exact eq_of_number_eq walk kinds told

end Event

end SlotTable

import SlotTable.Log.Level
import SlotTable.Text.Blank

/-!
# Log filter: directives by target

A directive gives a threshold to all targets that begin with its name, or to every target if it has
none. Of the directives that apply, the one with the longest name decides. A filter is written as
directives with commas between them, each a level, a name, or `name=level`; what follows a slash is
no part of the directives.
-/
namespace SlotTable

structure Directive where
  name : Option String
  limit : Threshold
  deriving DecidableEq, Repr

namespace Directive

def appliesTo (directive : Directive) (target : String) : Bool :=
  match directive.name with
  | none => true
  | some name => name.toList.isPrefixOf target.toList

/-- Length of the name in bytes. -/
def weight (directive : Directive) : Nat :=
  match directive.name with
  | none => 0
  | some name => name.utf8ByteSize

/-- The parts of a text between separators; there is always at least one. -/
def splitAtEach (separator : Char) : List Char → List (List Char)
  | [] => [[]]
  | c :: rest =>
    if c = separator then [] :: splitAtEach separator rest
    else
      match splitAtEach separator rest with
      | [] => [[c]]
      | part :: parts => (c :: part) :: parts

/-- Reads one directive. A bare name means the most verbose level, and so does a name with nothing
after its equals sign. An unknown level or a second equals sign makes it no directive at all. -/
def read? (text : List Char) : Option Directive :=
  match splitAtEach '=' text with
  | [only] =>
    match Threshold.named? (String.ofList only) with
    | some limit => some ⟨none, limit⟩
    | none => some ⟨some (String.ofList only), .upTo .trace⟩
  | [name, level] =>
    match Blank.trim level with
    | [] => some ⟨some (String.ofList name), .upTo .trace⟩
    | level =>
      (Threshold.named? (String.ofList level)).map fun limit =>
        ⟨some (String.ofList name), limit⟩
  | _ => none

/-- Reads a list of directives; empty ones are skipped, and a text with two slashes has none. -/
def readAll (text : String) : List Directive :=
  match splitAtEach '/' text.toList with
  | [directives] | [directives, _] =>
    (((splitAtEach ',' directives).map Blank.trim).filter (!·.isEmpty)).filterMap read?
  | _ => []

end Directive

/-- Directives in the order in which their names were first given. -/
structure Filter where
  directives : List Directive
  deriving DecidableEq, Repr

namespace Filter

/-- A directive takes the place of an earlier one of its name, or else goes to the end. -/
def insertInto (new : Directive) : List Directive → List Directive
  | [] => [new]
  | old :: rest => if old.name = new.name then new :: rest else old :: insertInto new rest

def insert (filter : Filter) (directive : Directive) : Filter :=
  ⟨insertInto directive filter.directives⟩

/-- The better of two directives that apply: the longer name, or the later one of equal length. -/
def heavier (best : Option Directive) (next : Directive) : Option Directive :=
  match best with
  | none => some next
  | some best => if best.weight ≤ next.weight then some next else some best

def deciding? (filter : Filter) (target : String) : Option Directive :=
  (filter.directives.filter (·.appliesTo target)).foldl heavier none

def enabled (filter : Filter) (target : String) (level : Level) : Bool :=
  match filter.deciding? target with
  | none => false
  | some directive => directive.limit.admits level

/-- The most verbose threshold of any directive. -/
def maxLevel (filter : Filter) : Threshold :=
  filter.directives.foldl (fun limit directive => limit.max directive.limit) .off

/-- What is logged unless a directive says otherwise: everything up to `info`. -/
def standard : Filter :=
  ⟨[⟨none, .upTo .info⟩, ⟨some "hash_adaptor", .upTo .info⟩]⟩

/-- The standard filter under the directives of a text, if there is one. -/
def configured (text : Option String) : Filter :=
  match text with
  | none => standard
  | some text => (Directive.readAll text).foldl insert standard

end Filter

end SlotTable

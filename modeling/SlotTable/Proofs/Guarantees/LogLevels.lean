import SlotTable.Proofs.Log.Deciding
import SlotTable.Proofs.Log.Written

/-!
# Which records are logged

A process without a backend sets up its log, once or several times, under a text of directives. What
it then logs about a target is what that one of the directives says that decides about it, and
everything up to `info` if none of them applies. There is an exception: the standard filter has a
directive of its own for the library, and only a directive with a name as long or longer takes its
place. So a level alone, and a name that is a shorter beginning of the library's name, has no say
about the library's own targets.
-/
namespace SlotTable

open Directive (Decides Plain decides_cons_self readAll readAll_written written)

/-- The first of the two directives with which every filter begins. -/
def Directive.ofDefault : Directive := ⟨none, .upTo .info⟩

/-- The second one, the library's own. -/
def Directive.ofLibrary : Directive := ⟨some "hash_adaptor", .upTo .info⟩

/-- What a process logs about a target when it was given these directives. -/
structure LogsAsGiven (given : List Directive) (logging : Logging) (target : String) : Prop where
  decided : ∀ directive ∈ given, directive.appliesTo target = true →
    ∃! decider, Decides given target decider
  unaddressed : (∀ directive ∈ given, directive.appliesTo target = false) →
    ∀ level, logging.enabled target level = (Threshold.upTo .info).admits level
  /-- The deciding directive is heeded at every level, unless the library's own reaches farther. -/
  heeded_iff : ∀ directive, Decides given target directive →
    ((∀ level, logging.enabled target level = directive.limit.admits level) ↔
      (Directive.ofLibrary.appliesTo target = true →
        directive.extent < Directive.ofLibrary.extent → directive.limit = .upTo .info))
  overruled : ∀ directive, Decides given target directive →
    Directive.ofLibrary.appliesTo target = true →
    directive.extent < Directive.ofLibrary.extent →
    ∀ level, logging.enabled target level = (Threshold.upTo .info).admits level

namespace Threshold

variable {a b : Threshold}

theorem rank_max (a b : Threshold) : (a.max b).rank = Nat.max a.rank b.rank := by
  unfold max
  split
  · next less => exact (Nat.max_eq_right less).symm
  · next less => exact (Nat.max_eq_left (Nat.le_of_not_le less)).symm

theorem admits_of_rank_le {level : Level} (lower : a.rank ≤ b.rank)
    (admits : a.admits level = true) : b.admits level = true :=
  decide_eq_true (Nat.le_trans (of_decide_eq_true admits) lower)

/-- Thresholds that admit the same levels are equal. -/
theorem eq_of_admits (same : ∀ level, a.admits level = b.admits level) : a = b := by
  have agree : ∀ level ∈ Level.all, a.admits level = b.admits level := fun level _ => same level
  rcases a with _ | (_ | _ | _ | _ | _) <;> rcases b with _ | (_ | _ | _ | _ | _) <;>
    first | rfl | exact absurd agree (by decide)

end Threshold

namespace Filter

variable {filter : Filter} {directive : Directive} {target : String}

theorem rank_le_foldl (directives : List Directive) (limit : Threshold) :
    limit.rank ≤ (directives.foldl (fun limit directive => limit.max directive.limit) limit).rank ∧
    ∀ directive ∈ directives, directive.limit.rank ≤
      (directives.foldl (fun limit directive => limit.max directive.limit) limit).rank := by
  induction directives generalizing limit with
  | nil => simp
  | cons first rest ih =>
    obtain ⟨start, others⟩ := ih (limit.max first.limit)
    rw [Threshold.rank_max] at start
    exact ⟨Nat.le_trans (Nat.le_max_left _ _) start, List.forall_mem_cons.mpr
      ⟨Nat.le_trans (Nat.le_max_right _ _) start, others⟩⟩

/-- No record is held back that some directive admits. -/
theorem maxLevel_admits {level : Level} (member : directive ∈ filter.directives)
    (admits : directive.limit.admits level = true) : filter.maxLevel.admits level = true :=
  Threshold.admits_of_rank_le ((rank_le_foldl filter.directives .off).2 directive member) admits

/-- The directives of a text, if there is one. -/
def given (text : Option String) : List Directive :=
  match text with
  | none => []
  | some text => readAll text

theorem configured_eq (text : Option String) :
    configured text = ofDirectives (.ofDefault :: .ofLibrary :: given text) := by
  cases text <;> rfl

end Filter

namespace Logging

variable {text : Option String} {directive : Directive} {target : String}

/-- Only the first call of several counts. -/
theorem setUpTimes_initial (text : Option String) (calls : Nat) :
    initial.setUpTimes text (calls + 1) =
      ⟨true, some (.filtered (.configured text)), (Filter.configured text).maxLevel⟩ := by
  have settled : ∀ (calls : Nat) (logging : Logging), logging.wasSetUp = true →
      logging.setUpTimes text calls = logging := by
    intro calls
    induction calls with
    | zero => intro logging _; rfl
    | succ calls ih =>
      intro logging done
      have same : logging.setUp text = logging := by rw [setUp, if_pos done]
      rw [setUpTimes, same, ih logging done]
  exact settled calls _ rfl

theorem enabled_of_decides
    (decides : Decides (.ofDefault :: .ofLibrary :: Filter.given text) target directive)
    (calls : Nat) (level : Level) :
    (initial.setUpTimes text (calls + 1)).enabled target level = directive.limit.admits level := by
  have deciding : (Filter.configured text).deciding? target = some directive := by
    rw [Filter.configured_eq]
    exact Filter.deciding?_ofDirectives rfl decides
  have held : directive ∈ (Filter.configured text).directives := by
    rw [Filter.configured_eq]
    exact Filter.mem_ofDirectives.mpr decides.stands
  rw [setUpTimes_initial, enabled]
  simp only [Filter.enabled, deciding]
  cases admits : directive.limit.admits level with
  | false => rw [Bool.and_false]
  | true => rw [Filter.maxLevel_admits held admits, Bool.and_true]

end Logging

section Given

variable {given : List Directive} {target : String} {directive : Directive}

/-- A given directive keeps its say beside those with which every filter begins, unless the
library's own reaches farther. -/
theorem Directive.Decides.beside (decides : Decides given target directive)
    (farther : ofLibrary.appliesTo target = true → ofLibrary.extent ≤ directive.extent) :
    Decides (ofDefault :: ofLibrary :: given) target directive :=
  (decides.cons farther).cons fun _ => Nat.zero_le _

theorem Directive.decides_ofLibrary (applies : ofLibrary.appliesTo target = true)
    (shorter : ∀ other ∈ given, other.appliesTo target = true → other.extent < ofLibrary.extent) :
    Decides (ofDefault :: ofLibrary :: given) target ofLibrary :=
  (decides_cons_self applies shorter).cons fun _ => Nat.zero_le _

theorem Directive.decides_ofDefault (foreign : ofLibrary.appliesTo target = false)
    (silent : ∀ other ∈ given, other.appliesTo target = false) :
    Decides (ofDefault :: ofLibrary :: given) target ofDefault :=
  decides_cons_self rfl (List.forall_mem_cons.mpr
    ⟨fun applies => absurd applies (Bool.eq_false_iff.mp foreign), fun other member applies =>
      absurd applies (Bool.eq_false_iff.mp (silent other member))⟩)

theorem logsAsGiven (text : Option String) (calls : Nat) (target : String) :
    LogsAsGiven (Filter.given text) (Logging.initial.setUpTimes text (calls + 1)) target := by
  -- No given directive that applies reaches farther than the deciding one, so the library's own
  -- reaches farther than all of them.
  have overruled : ∀ directive, Decides (Filter.given text) target directive →
      Directive.ofLibrary.appliesTo target = true →
      directive.extent < Directive.ofLibrary.extent → ∀ level,
      (Logging.initial.setUpTimes text (calls + 1)).enabled target level =
        (Threshold.upTo .info).admits level := by
    intro directive decides applies shorter
    have every := fun other member also =>
      Nat.lt_of_le_of_lt (decides.longest other member also) shorter
    exact Logging.enabled_of_decides (Directive.decides_ofLibrary applies every) calls
  refine ⟨?_, ?_, ?_, overruled⟩
  · intro directive member applies
    obtain ⟨decider, decides⟩ := Directive.exists_decides member applies
    exact ⟨decider, decides, fun other also => decides.unique also⟩
  · intro silent
    cases applies : Directive.ofLibrary.appliesTo target with
    | false =>
      exact Logging.enabled_of_decides (Directive.decides_ofDefault applies silent) calls
    | true =>
      have every : ∀ other ∈ Filter.given text, other.appliesTo target = true →
          other.extent < Directive.ofLibrary.extent := fun other member also =>
        absurd also (Bool.eq_false_iff.mp (silent other member))
      exact Logging.enabled_of_decides (Directive.decides_ofLibrary applies every) calls
  · intro directive decides
    constructor
    · intro heeded applies shorter
      refine Threshold.eq_of_admits fun level => ?_
      rw [← heeded level, overruled directive decides applies shorter level]
    · intro harmless level
      by_cases farther : Directive.ofLibrary.appliesTo target = true ∧
        directive.extent < Directive.ofLibrary.extent
      · rw [harmless farther.1 farther.2, overruled directive decides farther.1 farther.2 level]
      · have reaches := fun applies => Nat.le_of_not_lt fun less => farther ⟨applies, less⟩
        exact Logging.enabled_of_decides (decides.beside reaches) calls level

end Given

/-- After the log was set up, once or more often, a target is logged as the directives of the text
say, or up to `info` if none applies, but for targets of the library about which a directive decides
that reaches less far into them than the name of the library: these are logged up to `info`. The
same with the directives that were written into the text in place of those that were read. -/
theorem log_follows_directives (calls : Nat) (target : String) :
    (∀ text : Option String,
      LogsAsGiven (Filter.given text) (Logging.initial.setUpTimes text (calls + 1)) target) ∧
    ∀ directives : List Directive, (∀ directive ∈ directives, directive.Plain) →
      LogsAsGiven directives
        (Logging.initial.setUpTimes (some (written directives)) (calls + 1)) target := by
  refine ⟨fun text => logsAsGiven text calls target, fun directives plain => ?_⟩
  have follows := logsAsGiven (some (written directives)) calls target
  rw [Filter.given, readAll_written plain] at follows
  exact follows

/-- A level for everything and one for a part of the library: only the second one is heeded there,
and the first one is not heeded in the other part. -/
theorem log_follows_two_directives :
    ∃ directives : List Directive, (∀ directive ∈ directives, directive.Plain) ∧
      written directives = "debug,hash_adaptor::container=error" ∧
      (∀ level, (Logging.initial.setUpTimes (some (written directives)) 2).enabled
        "hash_adaptor::container::probe" level = (Threshold.upTo .error).admits level) ∧
      ∀ level, (Logging.initial.setUpTimes (some (written directives)) 2).enabled
        "hash_adaptor::common" level = (Threshold.upTo .info).admits level := by
  let part : Directive := ⟨some "hash_adaptor::container", .upTo .error⟩
  let everything : Directive := ⟨none, .upTo .debug⟩
  have plain : ∀ directive ∈ [everything, part], directive.Plain := by
    simp only [List.forall_mem_cons, everything, part, Plain]
    refine ⟨by simp, ?_, by simp⟩
    intro name named
    obtain rfl := Option.some.inj named
    exact ⟨by decide, Directive.isPlain_of_all (by decide)⟩
  have inside := (log_follows_directives 1 "hash_adaptor::container::probe").2 _ plain
  have outside := (log_follows_directives 1 "hash_adaptor::common").2 _ plain
  refine ⟨_, plain, by decide, ?_, ?_⟩
  · exact (inside.heeded_iff part ⟨by decide, by decide, by decide⟩).mpr (by decide)
  · exact outside.overruled everything ⟨by decide, by decide, by decide⟩ (by decide) (by decide)

/-- The level `debug` for everything decides about the library too, and is not heeded there. -/
theorem bare_level_is_overruled :
    written [⟨none, .upTo .debug⟩] = "debug" ∧
    Decides [⟨none, .upTo .debug⟩] "hash_adaptor::container::probe" ⟨none, .upTo .debug⟩ ∧
    (Threshold.upTo .debug).admits .debug = true ∧
    (Logging.initial.setUp (some "debug")).enabled "hash_adaptor::container::probe" .debug =
      false :=
  ⟨by decide, ⟨by decide, by decide, by decide⟩, by decide, by decide +kernel⟩

end SlotTable

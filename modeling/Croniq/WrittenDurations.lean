import Croniq.FailureAlerts
import Croniq.FileValidation
import Croniq.JobFields
import Croniq.VarsResolution
import Croniq.WorkItems

/-!
# The durations of a file

A duration is accepted by one grammar, rewritten to its compact form and read by another.
-/

namespace Croniq.Config

open DecimalText List String

inductive DurationUnit
  | milliseconds
  | seconds
  | minutes
  | hours
  | days
  | unnamed
deriving DecidableEq

open DurationUnit

namespace DurationUnit

def suffix : DurationUnit → List Char
  | milliseconds => ['m','s']
  | seconds => ['s']
  | minutes => ['m']
  | hours => ['h']
  | days => ['d']
  | unnamed => []

def millis : DurationUnit → Nat
  | milliseconds => 1
  | seconds | unnamed => 1000
  | minutes => 60 * 1000
  | hours => 3600 * 1000
  | days => 86400 * 1000

end DurationUnit

/-- The words are a number of units, in one word or two. -/
def Spells (words : List String) (number : List Char) (count : Nat) (unit : DurationUnit) : Prop :=
  parseUnsigned 64 number = some count ∧
    (words = [ofList (number ++ unit.suffix)] ∨
      ∃ word, verboseDurationUnit word = some (ofList unit.suffix) ∧ words = [ofList number,word])

variable {words : List String} {number : List Char} {count : Nat} {unit : DurationUnit}

def IsNumeral (char : Char) : Prop :=
  char = '+' ∨ (digitValue char).isSome = true

theorem isWhitespace_of_isNumeral {char : Char} (numeral : IsNumeral char) :
    isWhitespace char = false := by
  rcases numeral with rfl | digit
  · rfl
  · have range : '0' ≤ char ∧ char ≤ '9' := by simpa [digitValue] using digit
    have codes : 48 ≤ char.toNat ∧ char.toNat ≤ 57 := range
    simp only [isWhitespace]
    grind

theorem digitValue_of_digitsValue {value : Nat} (reads : (digitsValue number value).isSome = true) :
    ∀ char ∈ number, (digitValue char).isSome = true := by
  induction number generalizing value with
  | nil => simp
  | cons first rest ih =>
    rw [digitsValue] at reads
    cases digit : digitValue first with
    | none => simp [digit] at reads
    | some =>
      rw [digit] at reads
      exact forall_mem_cons.mpr ⟨by simp [digit],ih reads⟩

theorem trim_of_solid {text : List Char} (solid : ∀ char ∈ text, isWhitespace char = false) :
    trim (ofList text) = ofList text := by
  have kept : ∀ part : List Char, (∀ char ∈ part, isWhitespace char = false) →
      part.dropWhile isWhitespace = part := by
    intro part solid
    cases part with
    | nil => rfl
    | cons first rest => simp [solid first]
  rw [trim,toList_ofList,kept text solid,trimEnd,kept text.reverse (by simpa using solid),
    reverse_reverse]

section

variable (reads : parseUnsigned 64 number = some count) (unit : DurationUnit)
include reads

theorem exists_digit_of_parseUnsigned :
    ∃ front last, number = front ++ [last] ∧ (digitValue last).isSome = true ∧
      ∀ char ∈ number, IsNumeral char := by
  have read : (unsignedDigits number).isSome = true := by
    rw [parseUnsigned,Option.filter_eq_some_iff] at reads
    simp [reads.1]
  have digits : ∃ digits, digits ≠ [] ∧ (number = digits ∨ number = '+' :: digits) ∧
      ∀ char ∈ digits, (digitValue char).isSome = true := by
    unfold unsignedDigits at read
    split at read
    · simp at read
    · split at read
      · simp at read
      · exact ⟨_,by simp_all,.inr rfl,digitValue_of_digitsValue read⟩
    · exact ⟨number,by assumption,.inl rfl,digitValue_of_digitsValue read⟩
  obtain ⟨digits,nonempty,written,all⟩ := digits
  obtain ⟨front,last,rfl⟩ := (eq_nil_or_concat' digits).resolve_left nonempty
  have ends := all last (by simp)
  rcases written with rfl | rfl
  · exact ⟨front,last,rfl,ends,fun char member => .inr (all char member)⟩
  · refine ⟨'+' :: front,last,rfl,ends,fun char member => ?_⟩
    exact (mem_cons.mp member).imp id (all char)

theorem trim_spelled : trim (ofList (number ++ unit.suffix)) = ofList (number ++ unit.suffix) := by
  obtain ⟨-,-,-,-,numerals⟩ := exists_digit_of_parseUnsigned reads
  refine trim_of_solid fun char member => ?_
  rcases mem_append.mp member with inNumber | inSuffix
  · exact isWhitespace_of_isNumeral (numerals char inNumber)
  · have solid : ∀ letter ∈ unit.suffix, isWhitespace letter = false := by
      cases unit <;> simp [suffix,isWhitespace]
    exact solid char inSuffix

theorem durationParts_spelled : durationParts (number ++ unit.suffix) = (number, unit.millis) := by
  obtain ⟨front,last,rfl,digit,-⟩ := exists_digit_of_parseUnsigned reads
  have other : last ≠ 's' ∧ last ≠ 'm' ∧ last ≠ 'h' ∧ last ≠ 'd' := by
    refine ⟨?_,?_,?_,?_⟩ <;>
      rintro rfl <;>
      exact absurd digit (by decide)
  cases unit <;>
    simp [durationParts,suffix,millis,← reverse_prefix,other,Ne.symm other.1,Ne.symm other.2.1]

theorem parseDuration_spelled :
    parseDuration (ofList (number ++ unit.suffix)) =
      if count * unit.millis < 2 ^ 64 then some (count * unit.millis) else none := by
  rw [parseDuration,trim_spelled reads,toList_ofList,durationParts_spelled reads]
  simp [reads,Option.filter]

theorem parseThrottleSecs_spelled :
    (parseThrottleSecs (ofList (number ++ unit.suffix))).map (· * 1000) =
      if unit ≠ .milliseconds ∧ unit ≠ .days ∧ count * unit.millis < 2 ^ 64 * 1000 then
        some (count * unit.millis) else none := by
  have unread : parseUnsigned 64 (number ++ ['m']) = none := by
    rw [Option.eq_none_iff_forall_ne_some]
    intro other reads
    obtain ⟨front,last,written,digit,-⟩ := exists_digit_of_parseUnsigned reads
    obtain ⟨-,rfl⟩ := append_singleton_inj.mp written
    exact absurd digit (by decide)
  obtain ⟨front,last,written,digit,-⟩ := exists_digit_of_parseUnsigned reads
  have bare : last.isDigit = true := by simpa [digitValue,Char.isDigit,Char.le_def] using digit
  have other : last ≠ 's' ∧ last ≠ 'm' ∧ last ≠ 'h' := by
    refine ⟨?_,?_,?_⟩ <;>
      rintro rfl <;>
      exact absurd digit (by decide)
  rw [parseThrottleSecs,trim_spelled reads,toList_ofList]
  cases unit with
  | milliseconds => simp [suffix,unread]
  | days => simp [suffix]
  | unnamed =>
    have ends : number.getLast? = some last := by simp [written]
    simp [suffix,ends,reads,other,bare,millis]
    grind
  | seconds | minutes | hours =>
    simp [suffix,reads,millis]
    grind

theorem spelled_ne_none : ofList (number ++ unit.suffix) ≠ "none" := by
  intro same
  obtain ⟨front,last,written,-,numerals⟩ := exists_digit_of_parseUnsigned reads
  have whole : number ++ unit.suffix = ['n','o','n','e'] := by
    simpa [toList_ofList] using congrArg toList same
  cases number with
  | nil => simp at written
  | cons first rest =>
    obtain rfl : first = 'n' := (List.cons.inj whole).1
    have numeral := numerals 'n' (by simp)
    simp [IsNumeral,digitValue] at numeral

end

theorem exists_suffix_of_mem {suffix : String} (member : suffix ∈ durationUnits) :
    ∃ unit : DurationUnit, suffix = ofList unit.suffix := by
  simp only [durationUnits,mem_cons,not_mem_nil,or_false] at member
  rcases member with rfl | rfl | rfl | rfl | rfl
  exacts [⟨.milliseconds,rfl⟩,⟨.seconds,rfl⟩,⟨.minutes,rfl⟩,⟨.hours,rfl⟩,⟨.days,rfl⟩]

theorem mem_of_verboseDurationUnit {word suffix : String}
    (named : verboseDurationUnit word = some suffix) : suffix ∈ durationUnits := by
  unfold verboseDurationUnit at named
  split at named <;> simp_all [durationUnits]

theorem exists_spells (readable : readsAsDuration words = true) :
    ∃ number count unit, Spells words number count unit := by
  match words, readable with
  | [value], compact =>
    rw [readsAsDuration,isCompactDuration,Bool.and_eq_true,Option.isSome_iff_exists] at compact
    obtain ⟨-,count,reads⟩ := compact
    cases cut : durationUnits.findSome? fun unit => value.toList.dropSuffix? unit.toList with
    | none =>
      rw [cut,Option.getD_none] at reads
      exact ⟨value.toList,count,.unnamed,reads,.inl (by simp [suffix])⟩
    | some number =>
      rw [cut,Option.getD_some] at reads
      obtain ⟨suffix,member,dropped⟩ := exists_of_findSome?_eq_some cut
      obtain ⟨unit,rfl⟩ := exists_suffix_of_mem member
      obtain ⟨ending,whole,same⟩ := dropSuffix?_eq_some_iff.mp dropped
      obtain rfl := eq_of_beq same
      exact ⟨number,count,unit,reads,.inl (by simp [← toList_inj,whole])⟩
  | [number,word], verbose =>
    rw [readsAsDuration,Bool.and_eq_true,Option.isSome_iff_exists,Option.isSome_iff_exists]
      at verbose
    obtain ⟨⟨count,reads⟩,suffix,named⟩ := verbose
    obtain ⟨unit,rfl⟩ := exists_suffix_of_mem (mem_of_verboseDurationUnit named)
    exact ⟨number.toList,count,unit,reads,.inr ⟨word,named,by simp⟩⟩

theorem durationArg_of_spells {host : Host} {vars : Vars} {directive : Directive}
    (literal : directive.hasPlaceholder = false)
    (spells : Spells directive.words number count unit) :
    durationArg host vars directive = some (ofList (number ++ unit.suffix)) := by
  obtain ⟨key,args⟩ := directive
  obtain ⟨reads,compact | ⟨word,named,verbose⟩⟩ := spells
  · obtain ⟨arg,rfl,same⟩ := map_eq_singleton_iff.mp compact
    simp_all [durationArg,firstArg,resolveStr,Directive.hasPlaceholder]
  · obtain ⟨first,rest,rfl,sameFirst,only⟩ := map_eq_cons_iff.mp verbose
    obtain ⟨second,rfl,sameSecond⟩ := map_eq_singleton_iff.mp only
    have bare := trim_spelled reads .unnamed
    rw [suffix,append_nil] at bare
    simp_all [durationArg,firstArg,resolveStr,Directive.hasPlaceholder]

/-- An accepted `timeout` or `queue_ttl`, of a job or of the defaults, is applied as written
exactly if it fits the milliseconds of a machine word. -/
theorem acceptedDuration_applied_iff (host : Host) (vars : Vars)
    (groupLimits : String → Option Nat) (draft : JobDraft) (defaults : JobDefaults)
    (directive : Directive)
    (period : directive.key.value = "timeout" ∨ directive.key.value = "queue_ttl")
    (literal : directive.hasPlaceholder = false) (spelled : directive.words ≠ ["none"])
    (accepted : validateDurationDirective directive = []) :
    let compiled := jobDirective host vars groupLimits draft directive
    let inherited := defaultsDirective host vars defaults (.directive directive)
    ∃ number count unit text, Spells directive.words number count unit ∧
      (if directive.key.value = "timeout" then (compiled.timeout, inherited.timeout)
        else (compiled.queueTtl, inherited.queueTtl)) = (some text, some text) ∧
      ((parseDuration text = some (count * unit.millis) ∧
        ∀ metadata : List (String × String),
          (metadata.lookup timeoutMetadataKey).getD text = text →
            effectiveTimeout metadata (some text) = text) ↔
        count * unit.millis < 2 ^ 64) := by
  intro compiled inherited
  have readable : readsAsDuration directive.words = true := by
    rcases period with named | named <;> simp_all [validateDurationDirective]
  obtain ⟨number,count,unit,spells⟩ := exists_spells readable
  have arg := @durationArg_of_spells _ _ _ host vars _ literal spells
  have kept := spelled_ne_none spells.1 unit
  have trimmed := trim_spelled spells.1 unit
  have read := parseDuration_spelled spells.1 unit
  generalize ofList (number ++ unit.suffix) = text at arg kept trimmed read
  refine ⟨number,count,unit,text,spells,?_,?_⟩
  · rcases period with named | named <;>
      simp [compiled,jobDirective,inherited,defaultsDirective,named,arg,kept]
  constructor
  · rintro ⟨applied,-⟩
    rw [read] at applied
    exact (Option.ite_none_right_eq_some.mp applied).1
  · intro fits
    rw [if_pos fits] at read
    have usable : UsableTimeout text := ⟨trimmed,by rw [read]; rfl⟩
    refine ⟨read,fun metadata stamped => ?_⟩
    cases stamp : metadata.lookup timeoutMetadataKey with
    | none => simp [effectiveTimeout,stamp,usable.1,usable.2]
    | some other =>
      obtain rfl : other = text := by rwa [stamp,Option.getD_some] at stamped
      exact effectiveTimeout_of_usable stamp usable _

def periodEntry (key : String) (words : List String) : Directive :=
  ⟨wordOf key,words.map wordOf⟩

theorem Spells.fourHours (spells : Spells ["4","hours"] number count unit) :
    count = 4 ∧ unit = .hours := by
  obtain ⟨reads,compact | ⟨word,named,verbose⟩⟩ := spells
  · simp at compact
  · obtain ⟨isNumber,rfl⟩ : "4" = ofList number ∧ "hours" = word := by simpa using verbose
    obtain rfl : number = ['4'] := by simpa using (congrArg toList isNumber).symm
    refine ⟨(Option.some.inj reads).symm,?_⟩
    revert named
    cases unit <;> decide

theorem acceptedDuration_applied_hours :
    ∃ text, (jobDirective quietHost (fun _ => none) (fun _ => none) (.start {} none)
        (periodEntry "timeout" ["4","hours"])).timeout = some text ∧
      parseDuration text = some (4 * (3600 * 1000)) := by
  obtain ⟨number,count,unit,text,spells,compiled,applied⟩ :=
    acceptedDuration_applied_iff quietHost (fun _ => none) (fun _ => none) (.start {} none) {}
      (periodEntry "timeout" ["4","hours"]) (.inl rfl) (by decide) (by decide) (by decide)
  obtain ⟨rfl,rfl⟩ := spells.fourHours
  exact ⟨text,congrArg Prod.fst compiled,(applied.mpr (by decide)).1⟩

/-- The days are accepted, overflow when read, and the run gets the default timeout. -/
theorem acceptedDuration_not_applied :
    validateDurationDirective (periodEntry "timeout" ["999999999999999999d"]) = [] ∧
      durationArg quietHost (fun _ => none) (periodEntry "timeout" ["999999999999999999d"]) =
        some "999999999999999999d" ∧
      parseDuration "999999999999999999d" = none ∧
      effectiveTimeout [] (some "999999999999999999d") = "5m" := by
  decide

/-- The period of an accepted rule is read as written exactly if it is in seconds, minutes or hours
and its seconds fit a machine word. -/
theorem acceptedPeriod_read_iff (host : Host) (vars : Vars) (name : String) (parts : RuleParts)
    (directive : Directive)
    (period : directive.key.value = "throttle" ∨ directive.key.value = "expected_within")
    (literal : directive.hasPlaceholder = false)
    (accepted : validateRulePeriod name directive = []) :
    let compiled := ruleDirective host vars parts (.directive directive)
    ∃ number count unit text, Spells directive.words number count unit ∧
      (if directive.key.value = "throttle" then compiled.throttle else compiled.expectedWithin) =
        some text ∧
      ((parseThrottleSecs text).map (· * 1000) = some (count * unit.millis) ↔
        unit ≠ .milliseconds ∧ unit ≠ .days ∧ count * unit.millis < 2 ^ 64 * 1000) := by
  intro compiled
  have readable : readsAsDuration directive.words = true := by
    simpa [validateRulePeriod,literal] using accepted
  obtain ⟨number,count,unit,spells⟩ := exists_spells readable
  have arg := @durationArg_of_spells _ _ _ host vars _ literal spells
  refine ⟨number,count,unit,ofList (number ++ unit.suffix),spells,?_,?_⟩
  · rcases period with named | named <;> simp [compiled,ruleDirective,named,arg]
  · rw [parseThrottleSecs_spelled spells.1]
    simp

theorem acceptedPeriod_read_hours :
    ∃ text, (ruleDirective quietHost (fun _ => none) {}
        (.directive (periodEntry "throttle" ["4","hours"]))).throttle = some text ∧
      (parseThrottleSecs text).map (· * 1000) = some (4 * (3600 * 1000)) := by
  obtain ⟨number,count,unit,text,spells,compiled,read⟩ :=
    acceptedPeriod_read_iff quietHost (fun _ => none) "late" {}
      (periodEntry "throttle" ["4","hours"]) (.inl rfl) (by decide) (by decide)
  obtain ⟨rfl,rfl⟩ := spells.fourHours
  exact ⟨text,compiled,read.mpr (by decide)⟩

/-- A day is accepted and never read. -/
theorem acceptedPeriod_not_read :
    validateRulePeriod "late" (periodEntry "throttle" ["1d"]) = [] ∧
      (ruleDirective quietHost (fun _ => none) {}
        (.directive (periodEntry "throttle" ["1d"]))).throttle = some "1d" ∧
      parseThrottleSecs "1d" = none := by
  decide

end Croniq.Config

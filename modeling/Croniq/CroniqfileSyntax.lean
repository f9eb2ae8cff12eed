import Croniq.ScheduleFires

/-!
# The syntax tree of a Croniqfile

A file is a list of top-level blocks.  Most blocks hold directives, a key with
its values.
-/

namespace Croniq.Config

open CivilCalendar

/-- A word, a quoted text or a placeholder. -/
structure StringValue where
  value : String
  (quoted isPlaceholder : Bool)
deriving DecidableEq

def wordOf (text : String) : StringValue :=
  ⟨text,false,false⟩

def placeholderOf (text : String) : StringValue :=
  ⟨text,false,true⟩

structure Directive where
  key : StringValue
  args : List StringValue
deriving DecidableEq

/-- A directive, a comment, or a block that holds more of them. -/
inductive DirectiveOrBlock where
  | directive (directive : Directive)
  | block (name : StringValue) (qualifier : Option StringValue)
      (directives : List DirectiveOrBlock)
  | comment (text : String)

structure NamedBlock where
  name : StringValue
  qualifier : Option StringValue
  directives : List DirectiveOrBlock

structure TimeValue where
  (hour minute : Nat)
  raw : String
deriving DecidableEq

inductive IntervalUnit where
  | seconds | minutes | hours
deriving DecidableEq

inductive ScheduleMode where
  | queued | ephemeral
deriving DecidableEq

inductive ScheduleKind where
  | interval (count : Nat) (unit : IntervalUnit)
  | daily (time : TimeValue)
  | weekdays (days : List Weekday) (time : TimeValue)
  | monthly (ordinals : List MonthDay) (time : TimeValue)
  | once (instant : StringValue)
  | disabled
deriving DecidableEq

structure ScheduleNode where
  kind : ScheduleKind
  mode : Option ScheduleMode
  options : List Directive
deriving DecidableEq

structure JobKey where
  (raw nameSpace name : String)
  variant : Option String
deriving DecidableEq

structure JobBlock where
  key : JobKey
  schedule : Option ScheduleNode
  directives : List DirectiveOrBlock

inductive CalendarRuleKind where
  | include | exclude
deriving DecidableEq

structure CalendarRule where
  kind : CalendarRuleKind
  ruleType : StringValue
  args : List StringValue
deriving DecidableEq

structure CalendarBlock where
  name : StringValue
  rules : List CalendarRule
deriving DecidableEq

structure ConcurrencyGroupBlock where
  name : StringValue
  directives : List Directive
deriving DecidableEq

inductive Item where
  | importFile (path : StringValue)
  | server (directives : List Directive)
  | smtp (directives : List Directive)
  | pullApi (directives : List Directive)
  | observability (subBlocks : List NamedBlock)
  | mcp (directives : List Directive)
  | oidc (directives : List Directive)
  | auth (subBlocks : List NamedBlock)
  | policy (directives : List Directive)
  | alerts (subBlocks : List NamedBlock)
  | vars (entries : List Directive)
  | defaults (directives : List DirectiveOrBlock)
  | calendar (block : CalendarBlock)
  | concurrencyGroup (block : ConcurrencyGroupBlock)
  | job (block : JobBlock)
  | comment (text : String)

structure Croniqfile where
  items : List Item

def weekdayAsStr : Weekday → String
  | .mon => "monday"
  | .tue => "tuesday"
  | .wed => "wednesday"
  | .thu => "thursday"
  | .fri => "friday"
  | .sat => "saturday"
  | .sun => "sunday"

variable (text : String)

/-- Letters outside the ASCII range are kept. -/
def toAsciiLowercase : String :=
  String.ofList (text.toList.map Char.toLower)

def parseWeekday : Option Weekday :=
  match toAsciiLowercase text with
  | "monday" | "mon" => some .mon
  | "tuesday" | "tue" => some .tue
  | "wednesday" | "wed" => some .wed
  | "thursday" | "thu" => some .thu
  | "friday" | "fri" => some .fri
  | "saturday" | "sat" => some .sat
  | "sunday" | "sun" => some .sun
  | _ => none

def parseWeekdayGroup : Option (List Weekday) :=
  match toAsciiLowercase text with
  | "weekday" => some [.mon,.tue,.wed,.thu,.fri]
  | "weekend" => some [.sat,.sun]
  | _ => none

/-- A group alias, or a single day as a list of one. -/
def parseWeekdayToken : Option (List Weekday) :=
  (parseWeekdayGroup text).or ((parseWeekday text).map fun day => [day])

end Croniq.Config

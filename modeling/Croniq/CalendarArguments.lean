import Croniq.JobTimes
import Croniq.Placeholders

/-!
# The arguments of a calendar rule

The validator and the runtime read the arguments of a rule with the same
functions.  The compiler only asks whether all of them can be read.
-/

namespace Croniq.Config

open CivilCalendar DecimalText

def parseWeeklyArg (text : String) : Except String (List Weekday) :=
  match parseWeekdayToken text with
  | some days => .ok days
  | none => .error ("unknown weekday: " ++ text)

def parseTime (text : List Char) : Except String NaiveTime :=
  match Croniq.parseTime text with
  | some time => .ok time
  | none => .error ("invalid time: " ++ String.ofList text)

/-- One range, or its two ends. -/
def parseWindowArgs : List String → Except String (NaiveTime × NaiveTime)
  | [] => .error "window requires start..end times"
  | [range] =>
    match splitAtDots range.toList with
    | none => .error ("invalid window: " ++ range)
    | some (start, stop) => do return (← parseTime start, ← parseTime stop)
  | [start,stop] => do return (← parseTime start.toList, ← parseTime stop.toList)
  | _ => .error "window expects start..end or start end"

def parseMonthlyArg (text : String) : Except String Nat :=
  match parseUnsigned 32 text.toList with
  | some day => .ok day
  | none => .error ("invalid day: " ++ text)

inductive AnnualArg where
  | monthDay (month day : Nat)
  | date (text : String)
  | ignored
deriving DecidableEq

def parseAnnualArg (host : Host) (text : String) : Except String AnnualArg :=
  if text.utf8ByteSize = 5 ∧ '-' ∈ text.toList then
    match text.toList.splitOn '-' with
    | [month,day] =>
      match parseUnsigned 32 month, parseUnsigned 32 day with
      | some month, some day => .ok (.monthDay month day)
      | _, _ => .error ("invalid date: " ++ text)
    | _ => .ok .ignored
  else if text.utf8ByteSize = 10 ∧ text.toList.count '-' = 2 then
    if host.isDate text then .ok (.date text) else .error ("invalid date: " ++ text)
  else .error ("invalid annual date format: " ++ text ++ " (expected MM-DD or YYYY-MM-DD)")

def ruleArgsValid (host : Host) (ruleType : String) (args : List String) : Bool :=
  match ruleType with
  | "weekly" => args.all fun arg => (parseWeeklyArg arg).isOk
  | "window" => (parseWindowArgs args).isOk
  | "monthly" => args.all fun arg => (parseMonthlyArg arg).isOk
  | "annual" | "yearly" => args.all fun arg => (parseAnnualArg host arg).isOk
  | _ => true

end Croniq.Config

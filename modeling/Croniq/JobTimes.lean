import Croniq.DecimalText
import Croniq.TriggerLifecycle

/-!
# The times a job declares

A job writes its window, its two bounds and its one-off instant as text.  The
validator and the loader read them with the same functions.
-/

namespace Croniq

open CivilCalendar DecimalText

/-- The readings of the date library: a timestamp with its offset, and a date and time without. -/
structure DateParsers where
  rfc3339 : String → Option Int
  naiveDateTime : String → Option Int

/-- The reading of zone names, which is the time zone database's. -/
abbrev ZoneParser := String → Except String Tz

def undated : DateParsers :=
  ⟨fun _ => none,fun _ => none⟩

def noZone (name : String) : Except String Tz :=
  .error ("unknown timezone '" ++ name ++ "'")

/-- The text before and after the first two dots. -/
def splitAtDots : List Char → Option (List Char × List Char)
  | '.' :: '.' :: rest => some ([], rest)
  | char :: rest => (splitAtDots rest).map fun (before, after) => (char :: before, after)
  | [] => none

/-- A time of day: two numbers with a colon between them. -/
def parseTime (text : List Char) : Option NaiveTime :=
  match text.splitOn ':' with
  | [hour,minute] =>
    (parseUnsigned 32 hour).bind fun hour =>
      (parseUnsigned 32 minute).bind fun minute => NaiveTime.fromHmsOpt hour minute
  | _ => none

variable (text : String)

def TimeWindow.parse : Option TimeWindow :=
  (splitAtDots text.toList).bind fun (start, stop) =>
    (parseTime start).bind fun start => (parseTime stop).map fun stop => ⟨start,stop⟩

def windowTime (part : List Char) : Except String NaiveTime :=
  match parseTime part with
  | some time => .ok time
  | none =>
    .error ("invalid window `" ++ text ++ "`: `" ++ String.ofList part ++
      "` is not a time of day (HH:MM)")

def parseJobWindow : Except String (NaiveTime × NaiveTime) :=
  match splitAtDots text.toList with
  | none => .error ("invalid window `" ++ text ++ "`: write it as `HH:MM..HH:MM`")
  | some (start, stop) => do
      let start ← windowTime text start
      let stop ← windowTime text stop
      return (start, stop)

def parseBound (parsers : DateParsers) (text : String) : Except String Int :=
  match parsers.rfc3339 text with
  | some instant => .ok instant
  | none =>
    .error ("invalid bound `" ++ text ++ "`: write an RFC 3339 timestamp with an offset, " ++
      "e.g. `2026-12-31T23:59:59Z`")

def parseOnceAt (parsers : DateParsers) (text : String) : Except String Int :=
  match parsers.rfc3339 text with
  | some instant => .ok instant
  | none =>
    match parsers.naiveDateTime text with
    | some instant => .ok instant
    | none =>
      .error ("invalid `once at` datetime `" ++ text ++
        "`: write an existing date and time, e.g. `2026-12-31T23:59:59Z`")

end Croniq

import Croniq.CroniqfileParser
import Croniq.FileLoading

/-!
# Triggers and calendars from stored rows

Jobs that are registered through the API have no entry in the Croniqfile: a row
holds their schedule, another one their settings, and calendars have rows of
their own.
-/

namespace Croniq.Config

open ConsumingLoops DecimalText

def LexError.text : LexError → String
  | .unterminatedString => "unterminated string"
  | .unterminatedPlaceholder => "unterminated placeholder"
  | .invalidEscape char => "invalid escape sequence '\\" ++ char.toString ++ "'"
  | .unexpectedChar char => "unexpected character '" ++ char.toString ++ "'"

def ParseError.text : ParseError → String
  | .general message => message
  | .unexpected expected got => "unexpected token: expected " ++ expected ++ ", got " ++ got
  | .invalidJobKey key =>
    "invalid job key '" ++ key ++ "': expected namespace:name or namespace:name:variant"
  | .invalidTime value => "invalid time '" ++ value ++ "': expected HH:MM"
  | .invalidOrdinal value =>
    "invalid ordinal '" ++ value ++ "': expected 1st, 2nd, 3rd, ... or 'last'"
  | .lex error => error.text

/-- The schedule of a job that has only the expression. -/
def parseScheduleExpr (expression : String) : Except ParseError ScheduleKind :=
  (parse ("job __sched__:__probe__ \x7b\n" ++ expression ++ "\n\x7d\n")).bind fun ast =>
    match ast.jobs.findSome? fun job => job.schedule.map ScheduleNode.kind with
    | some kind => .ok kind
    | none => .error (.general "expression did not contain a schedule")

def scaledSeconds (digits : List Char) (factor : Nat) : Option Nat :=
  (parseUnsigned 64 digits).map fun count => count * factor % 2 ^ 64

/-- The short forms `300`, `30s`, `5m`, `1h` and `*/5 * * * *`. -/
def parseIntervalSeconds (text : String) : Option Nat :=
  let text := (trim text).toList
  match parseUnsigned 64 text with
  | some seconds => some seconds
  | none =>
    match text.getLast? with
    | some 's' => scaledSeconds text.dropLast 1
    | some 'm' => scaledSeconds text.dropLast 60
    | some 'h' => scaledSeconds text.dropLast 3600
    | _ =>
      match text with
      | '*' :: '/' :: rest =>
        let field := (rest.dropWhile isWhitespace).takeWhile fun c => !isWhitespace c
        scaledSeconds field 60
      | _ => none

def scheduleFromExpr (parsers : DateParsers) (expression : String) : Option Schedule :=
  match parseIntervalSeconds expression with
  | some seconds => some (.interval seconds)
  | none =>
    (parseScheduleExpr expression).toOption.bind fun kind =>
      (Schedule.fromAst parsers kind).toOption

def compiledScheduleFromExpr (expression : String) : Option CompiledSchedule :=
  match parseIntervalSeconds expression with
  | some seconds => some (.interval seconds)
  | none => (parseScheduleExpr expression).toOption.map .fromAst

inductive ManagedBy where
  | dsl | api | runner
deriving DecidableEq

structure TriggerDefinition where
  (triggerId jobKey : String)
  (cronExpression timezone calendar window : Option String)
  (notBefore notAfter : Option Int)
  enabled : Bool
  managedBy : ManagedBy
deriving DecidableEq

structure JobDefinition where
  jobKey : String
  description : Option String
  isActive : Bool
  metadata : String → Option String
  timeout : Option String
  maxRetries : Option Nat
  deadLetterEnabled : Option Bool
  (deadLetterRetention deadLetterOperatorHint deadLetterReplayMaxAge : Option String)
  tags : List String

open JobDefinition

structure CalendarDefinition where
  name : String
  timezone : Option String
  rules : String
  managedBy : ManagedBy
deriving DecidableEq

/-- The host, the day of a date, the parsers of dates and zones, and the text of an instant. -/
structure Platform where
  host : Host
  dayNumber : String → Int
  parsers : DateParsers
  parseZone : ZoneParser
  rfc3339 : Int → String

/-- What rules outside a Croniqfile may not contain. -/
def refusedInRules : TokenKind → Option String
  | .placeholder text =>
    some ("placeholder '\x7b" ++ text ++
      "\x7d' is not allowed in calendar rules stored outside a Croniqfile")
  | .lBrace | .rBrace => some "braces are not allowed in calendar rules"
  | _ => none

/-- The rules of a calendar as a file with it alone. -/
def parseCalendarRules (name rules : String) : Except ParseError Croniqfile :=
  match tokenize rules.toList with
  | .error error => .error (.lex error)
  | .ok tokens =>
    match tokens.findSome? refusedInRules with
    | some message => .error (.general message)
    | none =>
      ((collect (List.dropWhile fun token =>
          token = .newline || token.isCommentOrSemicolon) List.isEmpty
        parseCalendarRule).run [] tokens).map fun (parsed, _) =>
          ⟨[.calendar { name := ⟨name,true,false⟩, rules := parsed }]⟩

section

variable (platform : Platform) (definition : CalendarDefinition)

/-- The zone of the rules goes before that of the row; one that is no zone is
dropped. -/
def CalendarDefinition.zone (ofRules : Option String) : Option String :=
  (ofRules.or definition.timezone).filter fun name =>
    name = "" || (platform.parseZone name).toOption.isSome

def calendarConfigFromDefinition : Except String CalendarConfig :=
  ((parseCalendarRules "__store__" definition.rules).mapError ParseError.text).bind fun ast =>
    let errors :=
      ((validate platform.host platform.parsers platform.parseZone ast).filter
        (·.diagnostic.severity = .error)).map (·.diagnostic.message)
    if errors.isEmpty then
      match (compile platform.host ast).calendars with
      | [] => .error "rules did not produce a calendar"
      | config :: _ =>
        .ok { config with
          name := definition.name, timezone := definition.zone platform config.timezone }
    else .error ("; ".intercalate errors)

/-- A stored calendar; one that compiles leaves an earlier error. -/
def resolveStoredCalendar (resolved : ResolvedCalendars) (definition : CalendarDefinition) :
    ResolvedCalendars :=
  if definition.managedBy = .dsl then resolved
  else
    match (calendarConfigFromDefinition platform definition).bind fun config =>
        (Calendar.fromConfig platform.host platform.dayNumber platform.parseZone config).mapError
          CalendarError.text with
    | .ok calendar =>
      { resolved with
        calendars := Function.update resolved.calendars definition.name (some calendar) }
    | .error error =>
      { resolved with errors := Function.update resolved.errors definition.name (some error) }

/-- The calendars in force: those of the store, under those of the file. -/
def resolveAllCalendars (configs : List CalendarConfig) (stored : List CalendarDefinition)
    (strict : Bool) : ResolvedCalendars :=
  configs.foldl (resolveCalendar platform.host platform.dayNumber platform.parseZone)
    (stored.foldl (resolveStoredCalendar platform)
      { calendars := fun _ => none, errors := fun _ => none, strict })

end

/-- The zone of a row; one that does not parse is a fault. -/
def definitionZone (parseZone : ZoneParser) (timezone : Option String) : Tz × Option String :=
  match timezone with
  | none => (.utc, none)
  | some name =>
    match parseZone name with
    | .ok zone => (zone, none)
    | .error message => (.utc, some message)

def definitionWindow (window : Option String) : Option TimeWindow × Option String :=
  match window with
  | none => (none, none)
  | some text =>
    match parseJobWindow text with
    | .ok _ => (TimeWindow.parse text, none)
    | .error message => (none, some message)

/-- The schedule of a row, if it has one that reads. -/
def TriggerDefinition.schedule? (parsers : DateParsers) (definition : TriggerDefinition) :
    Option Schedule :=
  definition.cronExpression.bind (scheduleFromExpr parsers)

/-- The definition of a trigger that a row with this schedule stands for, and why it is
faulted. -/
def specFromDefinition (platform : Platform) (calendars : ResolvedCalendars)
    (definition : TriggerDefinition) (schedule : Schedule) : TriggerSpec × List String :=
  let (timezone, timezoneFault) := definitionZone platform.parseZone definition.timezone
  let (window, windowFault) := definitionWindow definition.window
  let (calendar, calendarFault) := calendars.resolve definition.calendar
  let faults := calendarFault.toList ++ timezoneFault.toList ++ windowFault.toList
  ({ schedule, timezone, calendar, window, jobKey := definition.jobKey
     notBefore := definition.notBefore, notAfter := definition.notAfter
     missedFires := .once, faulted := !faults.isEmpty }, faults)

structure BuiltTrigger where
  trigger : Trigger
  configFault : Option String

section

variable (platform : Platform)

def triggerFromDefinition (calendars : ResolvedCalendars)
    (definition : TriggerDefinition) (now : Int) : Option BuiltTrigger :=
  (definition.schedule? platform.parsers).map fun schedule =>
    let (spec, faults) := specFromDefinition platform calendars definition schedule
    { trigger := spec.build now, configFault := faultOnRecord faults }

variable (definition : TriggerDefinition)

/-- The configuration of a job not in the Croniqfile. -/
def jobConfigFromDefinition (job : Option JobDefinition) : JobConfig :=
  let (nameSpace, name) :=
    match splitOnce ':' definition.jobKey.toList with
    | some (nameSpace, name) => (String.ofList nameSpace, String.ofList name)
    | none => ("default", definition.jobKey)
  { key := definition.jobKey
    nameSpace
    name
    variant := none
    description := job.bind description
    schedule := (definition.cronExpression.bind compiledScheduleFromExpr).getD .disabled
    scheduleSummary := definition.cronExpression.getD ""
    timezone := definition.timezone
    calendar := definition.calendar
    window := definition.window
    notBefore := definition.notBefore.map platform.rfc3339
    notAfter := definition.notAfter.map platform.rfc3339
    runner := {}
    retry :=
      match job.bind maxRetries with
      | some attempts => { maxAttempts := attempts }
      | none => {}
    timeout := (job.bind timeout).or (some "5m")
    deadLetter :=
      { enabled := (job.bind deadLetterEnabled).getD true
        retention := (job.bind deadLetterRetention).or (some "30d")
        operatorHint := job.bind deadLetterOperatorHint
        replayMaxAge := job.bind deadLetterReplayMaxAge }
    metadata := fun key => job.bind fun job => job.metadata key
    executionMode := .queued
    catchUp := .all
    catchUpExplicit := false
    queueTtl := none
    maxQueueDepth := none
    keepLast := none
    maxConcurrent := none
    concurrencyGroup := none
    coalesce := false
    priority := .normal
    tags := (job.map tags).getD []
    runOnRegister := false }

@[simp]
theorem jobConfigFromDefinition_key (job : Option JobDefinition) :
    (jobConfigFromDefinition platform definition job).key = definition.jobKey :=
  rfl

end

end Croniq.Config

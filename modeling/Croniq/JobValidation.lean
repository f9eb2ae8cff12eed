import Croniq.BlockDirectives
import Croniq.JobLoader

/-!
# Validating a job

What the validator says about one job: its schedule, its times, its zone, its
runner blocks, its durations and its concurrency guards.
-/

namespace Croniq.Config

open CivilCalendar DecimalText

variable (directive : Directive) (job : JobBlock)

def validateScheduleKind (schedule : ScheduleNode) : List Diagnostic :=
  match schedule.kind with
  | .interval count unit =>
    let seconds := match unit with
      | .seconds => count
      | .minutes => min (count * 60) (2 ^ 32 - 1)
      | .hours => min (count * 3600) (2 ^ 32 - 1)
    (if seconds < 30 then
      [.warning ("interval of " ++ toString seconds ++ "s is shorter than the default runner " ++
        "poll cycle (30s); executions may be delayed by up to one poll period")]
    else []) ++
      if count = 0 then [.error "interval count must be greater than zero"] else []
  | _ => []

def validateJobTimes (parsers : DateParsers) (job : JobBlock) : List Diagnostic :=
  (jobTimeErrors parsers job).map .error

variable (parseZone : ZoneParser)

/-- Whether a zone is declared, and what is wrong with it. -/
def validateTimezoneValue (directive : Directive) : Bool × List Diagnostic :=
  match directive.args with
  | [] => (false, [.error "`timezone` needs a zone name, e.g. `timezone Europe/Vienna`"])
  | arg :: _ =>
    (true,
      if arg.isPlaceholder then []
      else
        match parseZone arg.value with
        | .ok _ => []
        | .error message => [.error message])

def ScheduleKind.isWallClock : ScheduleKind → Bool
  | .daily _ | .weekdays _ _ | .monthly _ _ => true
  | _ => false

/-- The zones of a job, and the warning that wall-clock times are read as UTC if it has none. -/
def validateTimezone (job : JobBlock) (defaultTimezone : Bool) : List Diagnostic :=
  let options := (job.schedule.map ScheduleNode.options).getD []
  let declared := ((plainDirectives job.directives ++ options).filter
    (·.key.value = "timezone")).map (validateTimezoneValue parseZone)
  let wallClock := job.schedule.any (·.kind.isWallClock) ||
    (plainDirectives job.directives).any (·.key.value = "window")
  declared.flatMap Prod.snd ++
    if (defaultTimezone || declared.any Prod.fst) || !wallClock then []
    else
      [.warning ("job '" ++ job.key.raw ++ "' declares no timezone: wall-clock times are " ++
        "interpreted as UTC; declare 'timezone' to be explicit — in the job body, in " ++
        "`defaults \x7b \x7d`, or as a schedule option")]

def durationUnits : List String :=
  ["ms","s","m","h","d"]

/-- A number with a unit, or bare seconds. -/
def isCompactDuration (value : String) : Bool :=
  let digits := (durationUnits.findSome? fun unit =>
    value.toList.dropSuffix? unit.toList).getD value.toList
  !digits.isEmpty && (parseUnsigned 64 digits).isSome

/-- One duration, compact or as a number and a word. -/
def readsAsDuration : List String → Bool
  | [value] => isCompactDuration value
  | [count,unit] => (parseUnsigned 64 count.toList).isSome && (verboseDurationUnit unit).isSome
  | _ => false

def validateDurationDirective : List Diagnostic :=
  let key := directive.key.value
  if (key ≠ "timeout" ∧ key ≠ "queue_ttl") ∨ directive.hasPlaceholder ∨
      readsAsDuration directive.words ∨ (key = "queue_ttl" ∧ directive.words = ["none"]) then []
  else
    [.error ("`" ++ key ++ " " ++ " ".intercalate directive.words ++
      "` is not a duration — write e.g. `" ++ key ++ " 4h` or `" ++ key ++
      " 4 hours` (units: ms, s, m, h, d, or bare seconds)")]

variable (directives : List DirectiveOrBlock)

def validateDurationDirectives : List Diagnostic :=
  (plainDirectives directives).flatMap validateDurationDirective

def isPriority : List String → Bool
  | [value] => (JobPriority.parse value).isSome
  | _ => false

def validatePriorityDirective : List Diagnostic :=
  if directive.key.value ≠ "priority" ∨ directive.hasPlaceholder ∨
      isPriority directive.words then []
  else
    [.error ("`priority " ++ " ".intercalate directive.words ++
      "` is not a priority — write one of: low, normal, high (default: normal)")]

def validatePriorityDirectives : List Diagnostic :=
  (plainDirectives directives).flatMap validatePriorityDirective

def validateRunnerExecDirective (kind : String) : DirectiveOrBlock → List Diagnostic
  | .directive directive =>
    let key := directive.key.value
    if key = "command" then
      if directive.args = [] then
        [.error ("`command` in job '" ++ job.key.raw ++ "' requires a string argument")]
      else []
    else if key = "args" then
      if directive.args = [] then
        [.error ("`args` in job '" ++ job.key.raw ++ "' requires at least one argv entry")]
      else []
    else if key = "workdir" ∨ key = "user" then
      if directive.args.length ≠ 1 then
        [.error ("`" ++ key ++ "` in job '" ++ job.key.raw ++ "' takes exactly one argument")]
      else []
    else
      [.warning ("unknown directive '" ++ key ++ "' in `runner " ++ kind ++ "` block of job '" ++
        job.key.raw ++ "'")]
  | .block name _ _ =>
    if name.value = "env" then []
    else
      [.warning ("unknown sub-block '" ++ name.value ++ "' in `runner " ++ kind ++
        "` of job '" ++ job.key.raw ++ "'")]
  | .comment _ => []

/-- A shell block needs its command and an exec block its arguments; neither takes the other's
directive. -/
def validateRunnerExecBlock (kind : String) (block : NamedBlock) : List Diagnostic :=
  let hasCommand := (plainDirectives block.directives).any (·.key.value = "command")
  let hasArgs := (plainDirectives block.directives).any (·.key.value = "args")
  block.directives.flatMap (validateRunnerExecDirective job kind) ++
    if kind = "shell" then
      (if hasCommand then []
        else [.error ("`runner shell` in job '" ++ job.key.raw ++ "' requires `command \"…\"`")]) ++
      (if hasArgs then
        [.error ("`args` is only valid in `runner exec`; use `command` for shell strings (job '" ++
          job.key.raw ++ "')")]
      else [])
    else
      (if hasArgs then []
        else [.error ("`runner exec` in job '" ++ job.key.raw ++
          "' requires `args <argv0> <argv1> …`")]) ++
      (if hasCommand then
        [.error ("`command` is only valid in `runner shell`; use `args` for argv arrays (job '" ++
          job.key.raw ++ "')")]
      else [])

structure RunnerScan where
  requires : List String := []
  excludes : List String := []
  execBlockSeen : Bool := false
  diagnostics : List Diagnostic := []

variable (scan : RunnerScan)

def RunnerScan.report (found : List Diagnostic) : RunnerScan :=
  { scan with diagnostics := scan.diagnostics ++ found }

def runnerConstraint (directive : Directive) : RunnerScan :=
  let key := directive.key.value
  let capability := (directive.args.head?.map StringValue.value).getD ""
  if (key = "require" ∨ key = "prefer" ∨ key = "exclude") ∧
      (directive.args.length ≠ 1 ∨ capability = "") then
    scan.report
      [.error ("`runner \x7b " ++ key ++ " \x7d` takes exactly one capability, got " ++
        (if directive.args.length = 1 then "an empty one"
          else toString directive.args.length) ++
        " (job '" ++ job.key.raw ++ "') — write one line per capability")]
  else if key = "require" then { scan with requires := scan.requires.insert capability }
  else if key = "exclude" then { scan with excludes := scan.excludes.insert capability }
  else if key = "prefer" ∨ key = "sticky" then scan
  else
    scan.report
      [.warning ("unknown runner directive '" ++ key ++ "' in job '" ++ job.key.raw ++ "'")]

def runnerBlock (block : NamedBlock) : RunnerScan :=
  match block.qualifier.map StringValue.value with
  | none => (plainDirectives block.directives).foldl (runnerConstraint job) scan
  | some kind =>
    if kind = "shell" ∨ kind = "exec" then
      { scan with
        execBlockSeen := true
        diagnostics := scan.diagnostics ++
          (if scan.execBlockSeen then
            [.error ("job '" ++ job.key.raw ++ "' has more than one `runner shell|exec` " ++
              "block; only one execution payload is allowed")]
          else []) ++
          validateRunnerExecBlock job kind block }
    else
      scan.report
        [.error ("unknown runner type '" ++ kind ++ "' in job '" ++ job.key.raw ++
          "' — expected `shell` or `exec`")]

/-- The capabilities both required and excluded, in a fixed order; in the source they have none. -/
def validateRunnerConstraints : List Diagnostic :=
  let scan := job.directives.foldl (fun scan part =>
    match part with
    | .block name qualifier directives =>
      if name.value = "runner" then runnerBlock job scan ⟨name,qualifier,directives⟩ else scan
    | _ => scan) {}
  scan.diagnostics ++ (scan.requires.filter (· ∈ scan.excludes)).map fun capability =>
    .error ("capability '" ++ capability ++ "' is both required and excluded in job '" ++
      job.key.raw ++ "'")

structure GuardScan where
  singletonSeen : Bool := false
  maxConcurrentSeen : Bool := false
  guard : Option String := none
  groupSeen : Bool := false
  coalesceSeen : Bool := false
  diagnostics : List Diagnostic := []

def mutuallyExclusive (seen : Bool) : List Diagnostic :=
  if seen then
    [.error ("`singleton` and `max_concurrent` are mutually exclusive (job '" ++ job.key.raw ++
      "')")]
  else []

def validateMaxConcurrent (directive : Directive) : List Diagnostic :=
  match directive.args.head? with
  | none =>
    [.error ("`max_concurrent` in job '" ++ job.key.raw ++
      "' requires a positive integer argument")]
  | some arg =>
    if arg.isPlaceholder then []
    else
      match parseU32 arg.value with
      | some 0 =>
        [.error ("`max_concurrent` in job '" ++ job.key.raw ++ "' must be greater than zero")]
      | some _ => []
      | none =>
        [.error ("`max_concurrent` in job '" ++ job.key.raw ++
          "' requires a positive integer, got '" ++ arg.value ++ "'")]

/-- The argument of a `coalesce` that is not `schedule`. -/
def unexpectedCoalesce : List StringValue → Option StringValue
  | [] => none
  | [arg] => if arg.isPlaceholder ∨ arg.value = "schedule" then none else some arg
  | _ :: extra :: _ => some extra

def validateCoalesce (directive : Directive) : List Diagnostic :=
  match unexpectedCoalesce directive.args with
  | none => []
  | some arg =>
    [.error ("`coalesce` in job '" ++ job.key.raw ++ "' takes no argument or `schedule`, got '" ++
      arg.value ++ "' — write `coalesce` to fold triggers, or `coalesce schedule` to fold " ++
      "scheduled fires as well")]

variable (groupNames : List String)

def validateGroupReference (directive : Directive) : List Diagnostic :=
  match directive.args.head? with
  | none =>
    [.error ("`concurrency_group` in job '" ++ job.key.raw ++
      "' requires the name of a `concurrency_group \x7b \x7d` block")]
  | some arg =>
    if arg.isPlaceholder ∨ arg.value ∈ groupNames then []
    else
      [.error ("concurrency_group '" ++ arg.value ++ "' referenced in job '" ++ job.key.raw ++
        "' is not defined — declare `concurrency_group " ++ arg.value ++
        " \x7b max_concurrent N \x7d` at the top level. Left undefined the job would run " ++
        "unguarded, which is the failure mode a shared budget exists to prevent.")]

def guardDirective (scan : GuardScan) (directive : Directive) : GuardScan :=
  match directive.key.value with
  | "singleton" =>
    { scan with
      singletonSeen := true
      guard := scan.guard.or (some "singleton")
      diagnostics := scan.diagnostics ++ mutuallyExclusive job scan.maxConcurrentSeen }
  | "max_concurrent" =>
    { scan with
      maxConcurrentSeen := true
      guard := scan.guard.or (some "max_concurrent")
      diagnostics := scan.diagnostics ++ mutuallyExclusive job scan.singletonSeen ++
        validateMaxConcurrent job directive }
  | "coalesce" =>
    { scan with
      coalesceSeen := true
      diagnostics := scan.diagnostics ++ validateCoalesce job directive }
  | "concurrency_group" =>
    { scan with
      groupSeen := true
      diagnostics := scan.diagnostics ++ validateGroupReference job groupNames directive }
  | _ => scan

variable (defaultEphemeral : Bool)

/-- The mode without placeholders: inherited, the prefix of the schedule, then the directives. -/
def jobIsEphemeral : Bool :=
  (plainDirectives job.directives).foldl
    (fun ephemeral directive =>
      if directive.key.value = "execution_mode" then
        directive.args.head?.elim ephemeral fun arg => arg.value = "ephemeral"
      else ephemeral)
    ((job.schedule.bind ScheduleNode.mode).elim defaultEphemeral (· = .ephemeral))

def ephemeralGuard (scan : GuardScan) : List Diagnostic :=
  (if scan.groupSeen then
    [.error ("`concurrency_group` has no effect on the `ephemeral` job '" ++ job.key.raw ++
      "': ephemeral executions are not persisted, so they are blocked by the group's budget " ++
      "without ever counting toward it. Use `queued` (the default) for a job that shares a " ++
      "budget, or drop `concurrency_group`.")]
  else []) ++
  (if scan.coalesceSeen then
    [.error ("`coalesce` has no effect on the `ephemeral` job '" ++ job.key.raw ++
      "': a trigger folds into a queued execution, and ephemeral jobs keep at most one queued " ++
      "fire, which the next scheduled one replaces outright. Use `queued` (the default) for a " ++
      "job whose triggers should collapse, or drop `coalesce`.")]
  else []) ++
  scan.guard.elim [] fun guard =>
    [.error ("`" ++ guard ++ "` has no effect on the `ephemeral` job '" ++ job.key.raw ++
      "': ephemeral executions are not persisted, so the concurrency guard can never observe " ++
      "an in-flight run. Use `queued` for a real overlap guarantee, or drop `" ++ guard ++ "`.")]

def validateConcurrency (groupNames : List String) : List Diagnostic :=
  let scan := (plainDirectives job.directives).foldl (guardDirective job groupNames) {}
  scan.diagnostics ++ if jobIsEphemeral job defaultEphemeral then ephemeralGuard job scan else []

end Croniq.Config

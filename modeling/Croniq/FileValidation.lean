import Croniq.JobValidation

/-!
# Validating a file

The validator first collects the names of the calendars, groups and alert
channels.
-/

namespace Croniq.Config

open DecimalText

/-- What a diagnostic points at instead of a span; only calendar rules and job times are told
apart. -/
inductive Subject where
  | calendarRule (block : CalendarBlock)
  | jobTime (block : JobBlock)
  | other

structure Report where
  subject : Subject
  diagnostic : Diagnostic

/-- Diagnostics that all point at one subject. -/
def about (subject : Subject) (found : List Diagnostic) : List Report :=
  found.map fun diagnostic => ⟨subject,diagnostic⟩

@[simp]
theorem mem_about {subject : Subject} {found : List Diagnostic} {report : Report} :
    report ∈ about subject found ↔ report.subject = subject ∧ report.diagnostic ∈ found := by
  obtain ⟨reported,diagnostic⟩ := report
  simp only [about,List.mem_map,Report.mk.injEq]
  constructor
  · rintro ⟨_,member,rfl,rfl⟩
    exact ⟨rfl,member⟩
  · rintro ⟨rfl,member⟩
    exact ⟨diagnostic,member,rfl,rfl⟩

/-- The validator reads a weekday as the compiler does. -/
def validateWeeklyArg (arg : StringValue) : List Diagnostic :=
  match parseWeeklyArg arg.value with
  | .ok _ => []
  | .error message => [.error message]

/-- A day that no month has is a warning only. -/
def validateMonthlyArg (arg : StringValue) : List Diagnostic :=
  match parseMonthlyArg arg.value with
  | .ok day =>
    if 1 ≤ day ∧ day ≤ 31 then []
    else
      [.warning ("day " ++ toString day ++ " can never match (valid days are 1–31)")]
  | .error message => [.error message]

def validateAnnualArg (host : Host) (arg : StringValue) : List Diagnostic :=
  match parseAnnualArg host arg.value with
  | .ok .ignored =>
    [.warning ("argument '" ++ arg.value ++
      "' is ignored by the scheduler — expected MM-DD or YYYY-MM-DD")]
  | .ok (.monthDay month day) =>
    if (1 ≤ month ∧ month ≤ 12) ∧ 1 ≤ day ∧ day ≤ 31 then []
    else [.warning ("date " ++ arg.value ++ " can never match")]
  | .ok (.date _) => []
  | .error message => [.error message]

/-- One placeholder is enough to leave the times unchecked. -/
def validateWindowArgs (args : List StringValue) : List Diagnostic :=
  if args = [] then [.error "window rule requires start and end times"]
  else if args.any StringValue.isPlaceholder then []
  else
    match parseWindowArgs (args.map StringValue.value) with
    | .ok _ => []
    | .error message => [.error message]

/-- The checks of arguments skip placeholders. -/
def literalArgs (rule : CalendarRule) : List StringValue :=
  rule.args.filter (!·.isPlaceholder)

/-- A rule of an unknown type is a warning only. -/
def validateCalendarRule (host : Host) (rule : CalendarRule) : List Diagnostic :=
  match rule.ruleType.value with
  | "weekly" => (literalArgs rule).flatMap validateWeeklyArg
  | "window" => validateWindowArgs rule.args
  | "monthly" => (literalArgs rule).flatMap validateMonthlyArg
  | "annual" | "yearly" => (literalArgs rule).flatMap (validateAnnualArg host)
  | "timezone" => []
  | other => [.warning ("unknown calendar rule type '" ++ other ++ "'")]

/-- A calendar without a zone of its own gets a warning. -/
def validateCalendarTimezone (parseZone : ZoneParser) (block : CalendarBlock)
    (defaultTimezone : Bool) : List Diagnostic :=
  let declared := (block.rules.filter (·.ruleType.value = "timezone")).map fun rule =>
    validateTimezoneValue parseZone ⟨rule.ruleType,rule.args⟩
  declared.flatMap Prod.snd ++
    if (defaultTimezone || declared.any Prod.fst) || block.rules.isEmpty then []
    else
      [.warning ("calendar '" ++ block.name.value ++ "' declares no timezone: its rules are " ++
        "interpreted as UTC, not in the zone of the jobs that consult it; declare 'timezone' " ++
        "to be explicit — in the calendar body or in `defaults \x7b \x7d`")]

def validateCalendar (host : Host) (parseZone : ZoneParser)
    (block : CalendarBlock) (defaultTimezone : Bool) : List Report :=
  about .other (validateCalendarTimezone parseZone block defaultTimezone) ++
    about (.calendarRule block) (block.rules.flatMap (validateCalendarRule host))

/-- A group needs a positive limit. -/
def validateConcurrencyGroup (block : ConcurrencyGroupBlock) : List Diagnostic :=
  let name := block.name.value
  match block.directives.find? (·.key.value = "max_concurrent") with
  | none =>
    [.error ("`concurrency_group " ++ name ++ "` has no `max_concurrent` — a group without a " ++
      "limit caps nothing. Write `concurrency_group " ++ name ++
      " \x7b max_concurrent 1 \x7d` to serialize the set.")]
  | some directive =>
    match directive.args.head? with
    | none =>
      [.error ("`max_concurrent` in `concurrency_group " ++ name ++
        "` requires a positive integer argument")]
    | some arg =>
      if arg.isPlaceholder then []
      else
        match parseU32 arg.value with
        | some 0 =>
          [.error ("`max_concurrent` in `concurrency_group " ++ name ++
            "` must be greater than zero — zero would block every member of the group " ++
            "forever")]
        | some _ => []
        | none =>
          [.error ("`max_concurrent` in `concurrency_group " ++ name ++
            "` requires a positive integer, got '" ++ arg.value ++ "'")]

def alertChannelKinds : List String :=
  ["shell","webhook","email"]

def alertChannelKeys : List String :=
  ["shell","webhook","email","sign","timeout"]

def alertRuleKeys : List String :=
  ["when","job_key","min_attempts","min_consecutive","dead_letter","throttle",
    "expected_within","channels"]

def ruleTriggerValues : List String :=
  ["job_failed","job_sla_missed","job_missed_fire","maintenance_active","job_blocked",
    "job_recovered"]

/-- Unknown keys are answered with a close known one. -/
def checkAlertPart (kind name : String) (known : List String) : DirectiveOrBlock → List Diagnostic
  | .directive directive =>
    let key := directive.key.value
    if known.contains key then []
    else
      [.error ("unknown directive '" ++ key ++ "' in alert " ++ kind ++ " '" ++ name ++ "'" ++
        match known.find? fun candidate => editDistance key candidate ≤ 2 with
        | some candidate => " — did you mean '" ++ candidate ++ "'?"
        | none => " (known: " ++ ", ".intercalate known ++ ")")]
  | .block _ _ _ =>
    [.error ("alert " ++ kind ++ " '" ++ name ++ "' takes directives only, not blocks")]
  | .comment _ => []

variable (name : String)

/-- A channel has one kind. -/
def validateChannelKinds : List Directive → List Diagnostic
  | [] =>
    [.error ("alert channel '" ++ name ++ "' has no kind — add one of `shell \"…\"`, " ++
      "`webhook \"…\"` or `email \"…\"`")]
  | [_] => []
  | _ :: _ :: _ =>
    [.error ("alert channel '" ++ name ++ "' declares more than one kind; only one of " ++
      "shell / webhook / email is used")]

def isHmacSign : List String → Bool
  | ["hmac",key] => key ≠ ""
  | _ => false

/-- The timeout of a channel in whole seconds, as compiled. -/
def channelTimeout : List String → Option Nat
  | [value] => parseDurationSecs value
  | [count,unit] =>
    (verboseDurationUnit unit).bind fun suffix => parseDurationSecs (count ++ suffix)
  | _ => none

def webhookOnly (name key : String) (isWebhook : Bool) : List Diagnostic :=
  if isWebhook then []
  else [.error ("`" ++ key ++ "` in alert channel '" ++ name ++ "' applies to `webhook` only")]

/-- Each key of a channel has its own form. -/
def validateChannelDirective (isWebhook : Bool) (directive : Directive) : List Diagnostic :=
  let words := directive.words
  match directive.key.value with
  | "shell" | "webhook" =>
    if words.length = 1 ∧ words ≠ [""] then []
    else
      [.error ("`" ++ directive.key.value ++ "` in alert channel '" ++ name ++
        "' takes one value")]
  | "email" =>
    if words = [] ∨ words.any (trim · = "") then
      [.error ("`email` in alert channel '" ++ name ++ "' needs at least one address")]
    else []
  | "sign" =>
    if isHmacSign words ∨ directive.hasPlaceholder then webhookOnly name "sign" isWebhook
    else [.error ("`sign` in alert channel '" ++ name ++ "' takes `sign hmac <secret>`")]
  | "timeout" =>
    if directive.hasPlaceholder then []
    else if (channelTimeout words).isSome then webhookOnly name "timeout" isWebhook
    else
      [.error ("`timeout " ++ " ".intercalate words ++ "` in alert channel '" ++ name ++
        "' is not a duration — write e.g. `timeout 5s` (units: s, m, h)")]
  | _ => []

def validateChannel (directives : List Directive) : List Diagnostic :=
  let kinds := directives.filter (alertChannelKinds.contains ·.key.value)
  validateChannelKinds name kinds ++
    directives.flatMap (validateChannelDirective name (kinds.any (·.key.value = "webhook")))

/-- What the directives of a rule have said so far. -/
structure AlertRuleScan where
  trigger : Option RuleTrigger := none
  triggerUnknown : Bool := false
  hasExpectedWithin : Bool := false
  hasChannels : Bool := false
  diagnostics : List Diagnostic := []

def AlertRuleScan.report (scan : AlertRuleScan) (found : List Diagnostic) : AlertRuleScan :=
  { scan with diagnostics := scan.diagnostics ++ found }

/-- Only a known trigger is remembered. -/
def whenDirective (scan : AlertRuleScan) (directive : Directive) : AlertRuleScan :=
  if directive.hasPlaceholder then { scan with triggerUnknown := true }
  else
    match directive.words with
    | [value] =>
      match RuleTrigger.parse value with
      | some trigger => { scan with trigger := some trigger }
      | none =>
        let close := ruleTriggerValues.find? fun known => editDistance value known ≤ 3
        { scan with triggerUnknown := true }.report
          [.error ("unknown alert trigger `when " ++ value ++ "` in rule '" ++ name ++ "'" ++
            (close.elim "" fun known => " (did you mean '" ++ known ++ "'?)") ++
            " — write one of: " ++ ", ".intercalate ruleTriggerValues)]
    | _ =>
      { scan with triggerUnknown := true }.report
        [.error ("`when` in rule '" ++ name ++ "' takes one trigger")]

def isWholeNumber : List String → Bool
  | [value] => (parseU32 value).isSome
  | _ => false

def isFlagWord : List String → Bool
  | [value] => ["true","false","yes","no","on","off","1","0"].contains value
  | _ => false

def validateRulePeriod (directive : Directive) : List Diagnostic :=
  let key := directive.key.value
  if directive.hasPlaceholder ∨ readsAsDuration directive.words then []
  else
    [.error ("`" ++ key ++ " " ++ " ".intercalate directive.words ++ "` in rule '" ++ name ++
      "' is not a duration — write e.g. `" ++ key ++ " 10m`")]

variable (channels : List String) (checkRefs : Bool)

/-- Names are looked up only in a file without imports. -/
def validateRuleChannels (directive : Directive) : List Diagnostic :=
  (if directive.args = [] then
    [.error ("`channels` in rule '" ++ name ++ "' needs at least one channel name")]
  else []) ++
  directive.args.flatMap fun arg =>
    if checkRefs && !arg.isPlaceholder && !channels.contains arg.value then
      [.error ("rule '" ++ name ++ "' sends to channel '" ++ arg.value ++
        "', which is not declared in any `alerts \x7b channel … \x7d`")]
    else []

def alertRuleDirective (scan : AlertRuleScan) (directive : Directive) : AlertRuleScan :=
  let key := directive.key.value
  match key with
  | "when" => whenDirective name scan directive
  | "job_key" =>
    scan.report (if directive.args.length = 1 then []
      else [.error ("`job_key` in rule '" ++ name ++
        "' takes one glob, e.g. `job_key \"billing:*\"`")])
  | "min_attempts" | "min_consecutive" =>
    scan.report (if directive.hasPlaceholder ∨ isWholeNumber directive.words then []
      else [.error ("`" ++ key ++ "` in rule '" ++ name ++ "' takes a whole number")])
  | "dead_letter" =>
    scan.report (if directive.hasPlaceholder ∨ isFlagWord directive.words then []
      else [.error ("`dead_letter` in rule '" ++ name ++ "' takes `true` or `false`")])
  | "throttle" => scan.report (validateRulePeriod name directive)
  | "expected_within" =>
    { scan with hasExpectedWithin := true }.report (validateRulePeriod name directive)
  | "channels" =>
    { scan with hasChannels := scan.hasChannels || !directive.args.isEmpty }.report
      (validateRuleChannels name channels checkRefs directive)
  | _ => scan

/-- One pass over the directives, then what is missing. -/
def validateAlertRule (directives : List Directive) : List Diagnostic :=
  let scan := directives.foldl (alertRuleDirective name channels checkRefs) {}
  scan.diagnostics ++
    (if scan.trigger = none ∧ scan.triggerUnknown = false then
      [.error ("alert rule '" ++ name ++ "' has no `when` — write one of: " ++
        ", ".intercalate ruleTriggerValues)]
    else []) ++
    (if scan.trigger.any RuleTrigger.needsExpectedWithin && !scan.hasExpectedWithin then
      [.error ("alert rule '" ++ name ++ "' needs `expected_within` for this trigger — without " ++
        "it the rule is dropped")]
    else []) ++
    if scan.hasChannels then []
    else [.warning ("alert rule '" ++ name ++ "' has no `channels`, so it notifies no one")]

def validateAlertBody (kind name : String) (body : List DirectiveOrBlock) : List Diagnostic :=
  let known := if kind = "channel" then alertChannelKeys else alertRuleKeys
  let directives := (plainDirectives body).filter (known.contains ·.key.value)
  body.flatMap (checkAlertPart kind name known) ++
    if kind = "channel" then validateChannel name directives
    else validateAlertRule name channels checkRefs directives

/-- The blocks of an `alerts` block, after those seen. -/
def validateAlerts (channels : List String) (checkRefs : Bool) :
    List (String × String) → List NamedBlock → List Diagnostic
  | _, [] => []
  | seen, block :: blocks =>
    let kind := block.name.value
    let name := (block.qualifier.map StringValue.value).getD ""
    if kind ≠ "channel" ∧ kind ≠ "rule" then
      .error ("unknown block '" ++ kind ++ "' in `alerts \x7b \x7d` — write `channel " ++
        "\"name\" \x7b … \x7d` or `rule \"name\" \x7b … \x7d`") ::
        validateAlerts channels checkRefs seen blocks
    else if name = "" then
      .error ("alert " ++ kind ++ " needs a name: `" ++ kind ++ " \"name\" \x7b … \x7d`") ::
        validateAlerts channels checkRefs seen blocks
    else
      (if (kind, name) ∈ seen then
        [.error ("duplicate alert " ++ kind ++ " '" ++ name ++
          "' — the later one replaces the earlier")]
      else []) ++
      validateAlertBody channels checkRefs kind name block.directives ++
      validateAlerts channels checkRefs ((kind, name) :: seen) blocks

/-- The checks that the loader does without. -/
structure Options where
  checkCalendars : Bool := true
  checkJobTimes : Bool := true

/-- The loader pauses the jobs whose calendar or time is at fault instead of rejecting the file. -/
def Options.loader : Options where
  checkCalendars := false
  checkJobTimes := false

variable (ast : Croniqfile)

def Croniqfile.calendars : List CalendarBlock :=
  ast.items.filterMap fun
    | .calendar block => some block
    | _ => none

def Croniqfile.groups : List ConcurrencyGroupBlock :=
  ast.items.filterMap fun
    | .concurrencyGroup block => some block
    | _ => none

def Croniqfile.jobs : List JobBlock :=
  ast.items.filterMap fun
    | .job block => some block
    | _ => none

def Croniqfile.alertChannels : List String :=
  ast.items.flatMap fun
    | .alerts subBlocks =>
      (subBlocks.filter (·.name.value = "channel")).filterMap fun block =>
        block.qualifier.map StringValue.value
    | _ => []

def Croniqfile.hasImports : Bool :=
  ast.items.any fun
    | .importFile _ => true
    | _ => false

def duplicateNames (message : String → String) : List String → List String → List Diagnostic
  | _, [] => []
  | seen, name :: names =>
    (if name ∈ seen then [.error (message name)] else []) ++
      duplicateNames message (name :: seen) names

/-- The names that jobs and rules may refer to. -/
structure DeclaredNames where
  (calendars groups channels : List String)
  checkChannelRefs : Bool

def Croniqfile.declaredNames : DeclaredNames where
  calendars := ast.calendars.map (·.name.value)
  groups := ast.groups.map (·.name.value)
  channels := ast.alertChannels
  checkChannelRefs := !ast.hasImports

/-- What the items read so far mean for the later ones. -/
structure ValidateState where
  jobKeys : List String := []
  defaultEphemeral : Bool := false
  defaultTimezone : Bool := false
  declaredBeforeDefaults : Nat := 0

section

variable (host : Host) (parsers : DateParsers) (parseZone : ZoneParser)
  (options : Options) (names : DeclaredNames)

def validateCalendarReferences (job : JobBlock) : List Diagnostic :=
  ((job.schedule.map ScheduleNode.options).getD []).flatMap fun option =>
    if option.key.value = "calendar" then
      option.args.flatMap fun arg =>
        if arg.isPlaceholder ∨ arg.value ∈ names.calendars then []
        else
          [.error ("calendar '" ++ arg.value ++ "' referenced in job '" ++ job.key.raw ++
            "' is not defined")]
    else []

/-- A key is new, has no empty part and comes with a schedule. -/
def validateJobKey (job : JobBlock) (known : List String) : List Diagnostic :=
  (if job.key.raw ∈ known then [.error ("duplicate job key '" ++ job.key.raw ++ "'")] else []) ++
  (if job.key.nameSpace = "" ∨ job.key.name = "" ∨ job.key.variant = some "" then
    [.error ("job key '" ++ job.key.raw ++ "' has an empty segment — write `namespace:name` or " ++
      "`namespace:name:variant`")]
  else []) ++
  if job.schedule.isNone then [.error ("job '" ++ job.key.raw ++ "' has no schedule")] else []

variable (state : ValidateState)

def validateJob (job : JobBlock) : List Report :=
  about .other
    (validateJobKey job state.jobKeys ++
      (if options.checkCalendars then validateCalendarReferences names job else []) ++
      job.schedule.elim [] validateScheduleKind) ++
    (if options.checkJobTimes then about (.jobTime job) (validateJobTimes parsers job) else []) ++
    about .other
      (validateTimezone parseZone job state.defaultTimezone ++
        validateRunnerConstraints job ++
        validateDurationDirectives job.directives ++
        validatePriorityDirectives job.directives ++
        validateConcurrency job state.defaultEphemeral names.groups)

/-- The last mode in `defaults` counts. -/
def defaultsMode (ephemeral : Bool) (directive : Directive) : Bool :=
  if directive.key.value = "execution_mode" then
    directive.args.head?.elim ephemeral fun arg => arg.value = "ephemeral"
  else ephemeral

def defaultsZone (declared : Bool) (directive : Directive) : Bool :=
  if directive.key.value = "timezone" then (validateTimezoneValue parseZone directive).1
  else declared

/-- Items above a `defaults` block do not inherit it. -/
def validateDefaults (directives : List DirectiveOrBlock) : List Diagnostic :=
  (if state.declaredBeforeDefaults > 0 then
    [.warning ("`defaults \x7b \x7d` applies only to jobs, calendars and imports declared after " ++
      "it; " ++ toString state.declaredBeforeDefaults ++ " above it do not inherit it — move it " ++
      "to the top of the file")]
  else []) ++
    validateDurationDirectives directives ++
    validatePriorityDirectives directives ++
    (plainDirectives directives).flatMap fun directive =>
      if directive.key.value = "timezone" then (validateTimezoneValue parseZone directive).2
      else []

def validateItem : Item → List Report
  | .defaults directives => about .other (validateDefaults parseZone state directives)
  | .job block => validateJob parsers parseZone options names state block
  | .calendar block =>
    if options.checkCalendars then
      validateCalendar host parseZone block state.defaultTimezone
    else []
  | .concurrencyGroup block => about .other (validateConcurrencyGroup block)
  | .alerts subBlocks =>
    about .other (validateAlerts names.channels names.checkChannelRefs [] subBlocks)
  | _ => []

def ValidateState.next : Item → ValidateState
  | .defaults directives =>
    { state with
      defaultEphemeral := (plainDirectives directives).foldl defaultsMode state.defaultEphemeral
      defaultTimezone :=
        (plainDirectives directives).foldl (defaultsZone parseZone) state.defaultTimezone }
  | .job block =>
    { state with
      jobKeys := block.key.raw :: state.jobKeys
      declaredBeforeDefaults := state.declaredBeforeDefaults + 1 }
  | .calendar _ | .importFile _ =>
    { state with declaredBeforeDefaults := state.declaredBeforeDefaults + 1 }
  | _ => state

/-- The items in their order, as defaults hold from there on. -/
def validateItems : ValidateState → List Item → List Report
  | _, [] => []
  | state, item :: items =>
    validateItem host parsers parseZone options names state item ++
      validateItems (state.next parseZone item) items

end

def validateWith (host : Host) (parsers : DateParsers) (parseZone : ZoneParser)
    (options : Options) (ast : Croniqfile) : List Report :=
  about .other
    (duplicateNames (fun name => "duplicate calendar name '" ++ name ++ "'") []
        (ast.calendars.map (·.name.value)) ++
      duplicateNames (fun name => "duplicate concurrency_group name '" ++ name ++ "'") []
        (ast.groups.map (·.name.value)) ++
      validateBlocks host ast) ++
    validateItems host parsers parseZone options ast.declaredNames {} ast.items

def validate (host : Host) (parsers : DateParsers) (parseZone : ZoneParser)
    (ast : Croniqfile) : List Report :=
  validateWith host parsers parseZone {} ast

end Croniq.Config

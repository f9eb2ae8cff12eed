import Croniq.CroniqfileSyntax

/-!
# The compiled configuration

The values a compiled file hands to the server, with their defaults.
-/

namespace Croniq.Config

open CivilCalendar

/-- The `server` block. -/
structure ServerConfig where
  listen : String := ":4000"
  dataDir : String := "./.data"
  db : String := "sqlite"
  appUrl : Option String := none
  executionRetention : Option String := none
deriving DecidableEq

/-- The `pull_api` block, which the runners poll. -/
structure PullApiConfig where
  listen : String := ":9443"
  leaseTtl : String := "60s"
  triggerDedupWindow : String := "10m"
  runnerIdentityBinding : String := "strict"
deriving DecidableEq

structure LogConfig where
  level : String := "info"
  format : String := "text"
  output : String := "stderr"
deriving DecidableEq

structure MetricsConfig where
  listen : String := ":9900"
  path : String := "/metrics"
deriving DecidableEq

/-- The `observability` block. -/
structure ObservabilityConfig where
  log : Option LogConfig := none
  metrics : Option MetricsConfig := none
deriving DecidableEq

/-- The `mcp` block. -/
structure McpConfig where
  enabled : Bool := true
  allowedHosts : List String := []
deriving DecidableEq

/-- The `oidc` block; it wins over the environment. -/
structure OidcDslConfig where
  issuer : Option String := none
  clientId : Option String := none
  redirectUrl : Option String := none
  defaultRole : Option String := none
  providerName : Option String := none
  postLoginRedirect : Option String := none
deriving DecidableEq

structure SmtpDslConfig where
  host : Option String := none
  port : Option Nat := none
  security : Option String := none
  sender : Option String := none
deriving DecidableEq

/-- The `auth` block. -/
structure AuthDslConfig where
  passwordEnabled : Option Bool := none
  totpRequired : Option Bool := none
deriving DecidableEq

/-- The `policy` block. -/
structure PolicyConfig where
  dslAdoptOnMutate : Bool := false
  strictCalendars : Bool := true
deriving DecidableEq

/-- Where an alert is sent. -/
inductive ChannelKind where
  | shell (command : String)
  | webhook (url : String) (signingKey : Option String) (timeoutSecs : Nat)
  | email (recipients : List String)
  | unknown (reason : String)
deriving DecidableEq

structure ChannelConfig where
  name : String
  kind : ChannelKind
deriving DecidableEq

/-- The events that an alert rule can name. -/
inductive RuleTrigger where
  | jobFailed | jobSlaMissed | jobMissedFire | maintenanceActive | jobBlocked | jobRecovered
deriving DecidableEq

def RuleTrigger.parse : String → Option RuleTrigger
  | "job_failed" => some .jobFailed
  | "job_sla_missed" => some .jobSlaMissed
  | "job_missed_fire" => some .jobMissedFire
  | "maintenance_active" => some .maintenanceActive
  | "job_blocked" => some .jobBlocked
  | "job_recovered" => some .jobRecovered
  | _ => none

/-- These events are noticed only against a period. -/
def RuleTrigger.needsExpectedWithin : RuleTrigger → Bool
  | .jobSlaMissed | .jobMissedFire | .jobBlocked | .maintenanceActive => true
  | .jobFailed | .jobRecovered => false

/-- When an alert is sent, and through which channels. -/
structure RuleConfig where
  name : String
  trigger : RuleTrigger
  jobKeyGlob : String
  (minAttempts minConsecutive : Nat)
  deadLetterOnly : Bool
  (throttle expectedWithin : Option String)
  channels : List String
deriving DecidableEq

structure AlertsConfig where
  channels : String → Option ChannelConfig := fun _ => none
  rules : List RuleConfig := []

/-- Whether a fire is recorded as it is made. -/
inductive ExecutionMode where
  | queued | ephemeral
deriving DecidableEq

def ExecutionMode.parse : String → Option ExecutionMode
  | "queued" => some .queued
  | "ephemeral" => some .ephemeral
  | _ => none

/-- What happens to fires that were missed. -/
inductive CatchUpPolicy where
  | all | latest | none
deriving DecidableEq

def parseCatchUpPolicy : String → Option CatchUpPolicy
  | "all" => some .all
  | "latest" => some .latest
  | "none" => some .none
  | _ => none

inductive JobPriority where
  | low | normal | high
deriving DecidableEq

def JobPriority.parse : String → Option JobPriority
  | "low" => some .low
  | "normal" => some .normal
  | "high" => some .high
  | _ => none

def JobPriority.asStr : JobPriority → String
  | .low => "low"
  | .normal => "normal"
  | .high => "high"

/-- The capabilities that a job asks of its runner. -/
structure RunnerConfig where
  require : List String := []
  prefer : List String := []
  exclude : List String := []
  sticky : Bool := false
deriving DecidableEq

/-- What a qualified runner block asks a thin runner to execute. -/
inductive RunnerExec where
  | shell (command : String) (workdir user : Option String) (env : String → Option String)
  | exec (argv : List String) (workdir user : Option String) (env : String → Option String)

structure RetryConfig where
  strategy : String := "exponential"
  maxAttempts : Nat := 3
  base : Option String := some "2s"
  cap : Option String := some "30s"
  delay : Option String := none
  step : Option String := none
  jitter : Option Float := some 0.25

structure DeadLetterConfig where
  enabled : Bool := true
  retention : Option String := some "30d"
  operatorHint : Option String := none
  replayMaxAge : Option String := none
deriving DecidableEq

/-- A rule as written, its arguments resolved. -/
structure CalendarRuleConfig where
  (kind ruleType : String)
  args : List String
deriving DecidableEq

structure CalendarConfig where
  name : String
  timezone : Option String
  rules : List CalendarRuleConfig
deriving DecidableEq

structure ConcurrencyGroupConfig where
  name : String
  maxConcurrent : Nat
deriving DecidableEq

/-- A schedule whose times are numbers. -/
inductive CompiledSchedule where
  | interval (seconds : Nat)
  | daily (hour minute : Nat)
  | weekdays (days : List Weekday) (hour minute : Nat)
  | monthly (ordinals : List MonthDay) (hour minute : Nat)
  | once (instant : String)
  | disabled
deriving DecidableEq

/-- A compiled job, with its placeholders resolved and its defaults filled in. -/
structure JobConfig where
  (key nameSpace name : String)
  (variant description : Option String)
  schedule : CompiledSchedule
  scheduleSummary : String
  (timezone calendar window notBefore notAfter : Option String)
  runner : RunnerConfig
  retry : RetryConfig
  timeout : Option String
  deadLetter : DeadLetterConfig
  metadata : String → Option String
  executionMode : ExecutionMode
  catchUp : CatchUpPolicy
  catchUpExplicit : Bool
  queueTtl : Option String
  (maxQueueDepth keepLast maxConcurrent : Option Nat)
  concurrencyGroup : Option String
  coalesce : Bool
  priority : JobPriority
  tags : List String
  runOnRegister : Bool

structure RuntimeConfig where
  server : ServerConfig
  pullApi : Option PullApiConfig
  observability : Option ObservabilityConfig
  mcp : Option McpConfig
  oidc : Option OidcDslConfig
  smtp : Option SmtpDslConfig
  auth : AuthDslConfig
  policy : PolicyConfig
  alerts : AlertsConfig
  jobs : List JobConfig
  calendars : List CalendarConfig
  concurrencyGroups : List ConcurrencyGroupConfig

/-- The schedule of the syntax tree with its times as numbers. -/
def CompiledSchedule.fromAst : ScheduleKind → CompiledSchedule
  | .interval count .seconds => .interval count
  | .interval count .minutes => .interval (count * 60)
  | .interval count .hours => .interval (count * 3600)
  | .daily time => .daily time.hour time.minute
  | .weekdays days time => .weekdays days time.hour time.minute
  | .monthly ordinals time => .monthly ordinals time.hour time.minute
  | .once instant => .once instant.value
  | .disabled => .disabled

/-- A number and its unit, in the plural unless it is one. -/
def intervalPhrase (count : Nat) (singularUnit : String) : String :=
  toString count ++ " " ++ singularUnit ++ (if count = 1 then "" else "s")

def twoDigits (number : Nat) : String :=
  if number < 10 then "0" ++ toString number else toString number

def MonthOrdinal.summary : MonthDay → String
  | .day number => toString number
  | .last => "last"

def CompiledSchedule.summary : CompiledSchedule → String
  | .interval seconds =>
    if 3600 ≤ seconds ∧ seconds % 3600 = 0 then
      "every " ++ intervalPhrase (seconds / 3600) "hour"
    else if 60 ≤ seconds ∧ seconds % 60 = 0 then
      "every " ++ intervalPhrase (seconds / 60) "minute"
    else "every " ++ intervalPhrase seconds "second"
  | .daily hour minute => "every day at " ++ twoDigits hour ++ ":" ++ twoDigits minute
  | .weekdays days hour minute =>
    "every " ++ ", ".intercalate (days.map weekdayAsStr) ++ " at " ++ twoDigits hour ++ ":" ++
      twoDigits minute
  | .monthly ordinals hour minute =>
    "every " ++ ", ".intercalate (ordinals.map MonthOrdinal.summary) ++ " of month at " ++
      twoDigits hour ++ ":" ++ twoDigits minute
  | .once instant => "once at " ++ instant
  | .disabled => "disabled"

end Croniq.Config

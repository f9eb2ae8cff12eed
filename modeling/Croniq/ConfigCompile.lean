import Croniq.CalendarArguments

/-!
# Compiling a Croniqfile

Every block of the syntax tree has its own fold over its directives.
-/

namespace Croniq.Config

open DecimalText

/-- The spellings of a true flag. -/
def isTrueFlag : String → Bool
  | "true" | "yes" | "1" | "on" => true
  | _ => false

variable (text : String)

def parseBool : Option Bool :=
  match toAsciiLowercase text with
  | "true" | "yes" | "on" | "1" => some true
  | "false" | "no" | "off" | "0" => some false
  | _ => none

def parseU32 : Option Nat :=
  parseUnsigned 32 text.toList

def parseDurationSecs : Option Nat :=
  let chars := (trim text).toList
  let scaled (digits : List Char) (factor : Nat) : Option Nat :=
    ((parseUnsigned 64 digits).map (· * factor)).filter (· < 2 ^ 64)
  match chars.getLast? with
  | none => none
  | some 's' => scaled chars.dropLast 1
  | some 'm' => scaled chars.dropLast 60
  | some 'h' => scaled chars.dropLast 3600
  | some last => if last.isDigit then scaled chars 1 else none

section Blocks

variable (host : Host) (vars : Vars)

def serverDirective (config : ServerConfig) (directive : Directive) : ServerConfig :=
  match directive.key.value with
  | "listen" => (firstArg host vars directive).elim config fun v => { config with listen := v }
  | "data_dir" => (firstArg host vars directive).elim config fun v => { config with dataDir := v }
  | "db" => (firstArg host vars directive).elim config fun v => { config with db := v }
  | "app_url" =>
    (firstArg host vars directive).elim config fun v => { config with appUrl := some v }
  | "execution_retention" =>
    (durationArg host vars directive).elim config fun v =>
      { config with executionRetention := some v }
  | _ => config

def pullApiDirective (config : PullApiConfig) (directive : Directive) : PullApiConfig :=
  match directive.key.value with
  | "listen" => (firstArg host vars directive).elim config fun v => { config with listen := v }
  | "lease_ttl" =>
    (durationArg host vars directive).elim config fun v => { config with leaseTtl := v }
  | "trigger_dedup_window" =>
    (durationArg host vars directive).elim config fun v => { config with triggerDedupWindow := v }
  | "runner_identity_binding" =>
    (firstArg host vars directive).elim config fun v => { config with runnerIdentityBinding := v }
  | _ => config

def logDirective (config : LogConfig) : DirectiveOrBlock → LogConfig
  | .directive directive =>
    match directive.key.value with
    | "level" => (firstArg host vars directive).elim config fun v => { config with level := v }
    | "format" => (firstArg host vars directive).elim config fun v => { config with format := v }
    | "output" => (firstArg host vars directive).elim config fun v => { config with output := v }
    | _ => config
  | _ => config

def metricsDirective (config : MetricsConfig) : DirectiveOrBlock → MetricsConfig
  | .directive directive =>
    match directive.key.value with
    | "listen" => (firstArg host vars directive).elim config fun v => { config with listen := v }
    | "path" => (firstArg host vars directive).elim config fun v => { config with path := v }
    | _ => config
  | _ => config

def observabilityBlock (config : ObservabilityConfig) (block : NamedBlock) : ObservabilityConfig :=
  match block.name.value with
  | "log" => { config with log := some (block.directives.foldl (logDirective host vars) {}) }
  | "metrics" =>
    { config with metrics := some (block.directives.foldl (metricsDirective host vars) {}) }
  | _ => config

/-- The flag is read as written, the host names are resolved. -/
def mcpDirective (config : McpConfig) (directive : Directive) : McpConfig :=
  match directive.key.value with
  | "enabled" =>
    directive.args.head?.elim config fun arg => { config with enabled := isTrueFlag arg.value }
  | "allowed_hosts" =>
    { config with
      allowedHosts := (directive.args.map (resolveStr host vars)).filter (· ≠ "") }
  | _ => config

def policyDirective (config : PolicyConfig) (directive : Directive) : PolicyConfig :=
  match directive.key.value with
  | "dsl_adopt_on_mutate" =>
    directive.args.head?.elim config fun arg =>
      { config with dslAdoptOnMutate := isTrueFlag arg.value }
  | "strict_calendars" =>
    (directive.args.head?.bind fun arg => parseBool arg.value).elim config fun flag =>
      { config with strictCalendars := flag }
  | _ => config

def oidcDirective (config : OidcDslConfig) (directive : Directive) : OidcDslConfig :=
  (firstArg host vars directive).elim config fun v =>
    match directive.key.value with
    | "issuer" => { config with issuer := some v }
    | "client_id" => { config with clientId := some v }
    | "redirect_url" => { config with redirectUrl := some v }
    | "default_role" => { config with defaultRole := some v }
    | "provider_name" => { config with providerName := some v }
    | "post_login_redirect" => { config with postLoginRedirect := some v }
    | _ => config

def smtpDirective (config : SmtpDslConfig) (directive : Directive) : SmtpDslConfig :=
  (firstArg host vars directive).elim config fun v =>
    match directive.key.value with
    | "host" => { config with host := some v }
    | "port" => { config with port := parseUnsigned 16 (trim v).toList }
    | "security" => { config with security := some (toAsciiLowercase (trim v)) }
    | "from" => { config with sender := some v }
    | _ => config

/-- The named flag after one more directive of its block. -/
def authFlag (key : String) (flag : Option Bool) : DirectiveOrBlock → Option Bool
  | .directive directive =>
    if directive.key.value = key then
      (firstArg host vars directive).elim flag parseBool
    else flag
  | _ => flag

def authBlock (config : AuthDslConfig) (block : NamedBlock) : AuthDslConfig :=
  if block.name.value = "password" then
    { config with
      passwordEnabled :=
        block.directives.foldl (authFlag host vars "enabled") config.passwordEnabled }
  else if block.name.value = "totp" then
    { config with
      totpRequired := block.directives.foldl (authFlag host vars "required") config.totpRequired }
  else config

/-- The directives of a channel, before one is chosen as its kind. -/
structure ChannelParts where
  shellCommand : Option String := none
  webhookUrl : Option String := none
  webhookSigningKey : Option String := none
  webhookTimeoutSecs : Nat := 5
  emailRecipients : List String := []

def channelDirective (parts : ChannelParts) : DirectiveOrBlock → ChannelParts
  | .directive directive =>
    match directive.key.value with
    | "shell" =>
      (firstArg host vars directive).elim parts fun v => { parts with shellCommand := some v }
    | "webhook" =>
      (firstArg host vars directive).elim parts fun v => { parts with webhookUrl := some v }
    | "sign" =>
      match directive.args with
      | scheme :: value :: _ =>
        if resolveStr host vars scheme = "hmac" ∧ resolveStr host vars value ≠ "" then
          { parts with webhookSigningKey := some (resolveStr host vars value) }
        else parts
      | _ => parts
    | "timeout" =>
      ((durationArg host vars directive).bind parseDurationSecs).elim parts fun secs =>
        { parts with webhookTimeoutSecs := max secs 1 }
    | "email" =>
      { parts with
        emailRecipients := parts.emailRecipients ++
          (directive.args.map (resolveStr host vars)).filter (trim · ≠ "") }
    | _ => parts
  | _ => parts

def ChannelParts.kind (parts : ChannelParts) : ChannelKind :=
  match parts.shellCommand, parts.webhookUrl with
  | some command, _ => .shell command
  | none, some url => .webhook url parts.webhookSigningKey parts.webhookTimeoutSecs
  | none, none =>
    if parts.emailRecipients = [] then
      .unknown "no channel kind directive (expected `shell`, `webhook`, or `email`)"
    else .email parts.emailRecipients

variable (block : NamedBlock)

def compileChannelKind : ChannelKind :=
  (block.directives.foldl (channelDirective host vars) {}).kind

structure RuleParts where
  trigger : Option RuleTrigger := none
  jobKeyGlob : String := "*"
  minAttempts : Nat := 1
  minConsecutive : Nat := 1
  deadLetterOnly : Bool := false
  throttle : Option String := none
  expectedWithin : Option String := none
  channels : List String := []

def ruleDirective (parts : RuleParts) : DirectiveOrBlock → RuleParts
  | .directive directive =>
    match directive.key.value with
    | "when" =>
      (firstArg host vars directive).elim parts fun v =>
        { parts with trigger := RuleTrigger.parse v }
    | "job_key" => (firstArg host vars directive).elim parts fun v => { parts with jobKeyGlob := v }
    | "min_attempts" =>
      ((firstArg host vars directive).bind parseU32).elim parts fun n =>
        { parts with minAttempts := max n 1 }
    | "min_consecutive" =>
      ((firstArg host vars directive).bind parseU32).elim parts fun n =>
        { parts with minConsecutive := max n 1 }
    | "dead_letter" =>
      (firstArg host vars directive).elim parts fun v =>
        { parts with deadLetterOnly := isTrueFlag v }
    | "throttle" => { parts with throttle := durationArg host vars directive }
    | "expected_within" => { parts with expectedWithin := durationArg host vars directive }
    | "channels" =>
      { parts with
        channels := parts.channels ++
          (directive.args.map (resolveStr host vars)).filter (· ≠ "") }
    | _ => parts
  | _ => parts

/-- A rule without a trigger, or the period it needs, is dropped. -/
def RuleParts.rule (parts : RuleParts) (name : String) : Option RuleConfig :=
  parts.trigger.bind fun trigger =>
    if trigger.needsExpectedWithin ∧ parts.expectedWithin = none then none
    else some
      { name, trigger, jobKeyGlob := parts.jobKeyGlob, minAttempts := parts.minAttempts,
        minConsecutive := parts.minConsecutive, deadLetterOnly := parts.deadLetterOnly,
        throttle := parts.throttle, expectedWithin := parts.expectedWithin,
        channels := parts.channels }

def compileRule (name : String) (block : NamedBlock) : Option RuleConfig :=
  (block.directives.foldl (ruleDirective host vars) {}).rule name

def alertsBlock (config : AlertsConfig) (block : NamedBlock) : AlertsConfig :=
  let qualifier := (block.qualifier.map (resolveStr host vars)).getD ""
  match block.name.value with
  | "channel" =>
    if qualifier = "" then config
    else
      { config with
        channels := Function.update config.channels qualifier
          (some ⟨qualifier,compileChannelKind host vars block⟩) }
  | "rule" =>
    if qualifier = "" then config
    else { config with rules := config.rules ++ (compileRule host vars qualifier block).toList }
  | _ => config

def compileAlerts (subBlocks : List NamedBlock) : AlertsConfig :=
  subBlocks.foldl (alertsBlock host vars) {}

def runnerDirective (config : RunnerConfig) : DirectiveOrBlock → RunnerConfig
  | .directive directive =>
    let value := (firstArg host vars directive).getD ""
    match directive.key.value with
    | "require" =>
      if value = "" then config else { config with require := config.require ++ [value] }
    | "prefer" => if value = "" then config else { config with prefer := config.prefer ++ [value] }
    | "exclude" =>
      if value = "" then config else { config with exclude := config.exclude ++ [value] }
    | "sticky" => { config with sticky := true }
    | _ => config
  | _ => config

def compileRunnerBlock : RunnerConfig :=
  block.directives.foldl (runnerDirective host vars) {}

structure RunnerExecParts where
  command : Option String := none
  argv : List String := []
  workdir : Option String := none
  user : Option String := none
  env : String → Option String := fun _ => none

def envEntry (env : String → Option String) : DirectiveOrBlock → String → Option String
  | .directive directive =>
    (firstArg host vars directive).elim env fun v =>
      Function.update env directive.key.value (some v)
  | _ => env

def runnerExecDirective (parts : RunnerExecParts) : DirectiveOrBlock → RunnerExecParts
  | .directive directive =>
    match directive.key.value with
    | "command" => { parts with command := firstArg host vars directive }
    | "args" => { parts with argv := directive.args.map (resolveStr host vars) }
    | "workdir" => { parts with workdir := firstArg host vars directive }
    | "user" => { parts with user := firstArg host vars directive }
    | _ => parts
  | .block name _ directives =>
    if name.value = "env" then
      { parts with env := directives.foldl (envEntry host vars) parts.env }
    else parts
  | .comment _ => parts

/-- The payload of a `runner shell` or `runner exec` block, unless what its kind requires is
missing. -/
def compileRunnerExecBlock : Option RunnerExec :=
  let parts := block.directives.foldl (runnerExecDirective host vars) {}
  match block.qualifier.map StringValue.value with
  | some "shell" =>
    parts.command.map fun command => .shell command parts.workdir parts.user parts.env
  | some "exec" =>
    if parts.argv = [] then none
    else some (.exec parts.argv parts.workdir parts.user parts.env)
  | _ => none

def retryStrategies : List String :=
  ["exponential","linear","fixed","none"]

def retryDirective (config : RetryConfig) : DirectiveOrBlock → RetryConfig
  | .directive directive =>
    let value := (durationArg host vars directive).getD ""
    match directive.key.value with
    | "max_attempts" => (parseU32 value).elim config fun n => { config with maxAttempts := n }
    | "base" => { config with base := some value }
    | "cap" => { config with cap := some value }
    | "delay" => { config with delay := some value }
    | "step" => { config with step := some value }
    | "jitter" => { config with jitter := host.parseFloat value }
    | _ => config
  | _ => config

/-- The block over the inherited values.  An unknown strategy keeps the
inherited one. -/
def compileRetryBlock (base : RetryConfig) : RetryConfig :=
  block.directives.foldl (retryDirective host vars)
    (block.qualifier.elim base fun strategy =>
      if strategy.value ∈ retryStrategies then { base with strategy := strategy.value } else base)

def deadLetterDirective (config : DeadLetterConfig) : DirectiveOrBlock → DeadLetterConfig
  | .directive directive =>
    match directive.key.value with
    | "enabled" =>
      ((firstArg host vars directive).bind parseBool).elim config fun flag =>
        { config with enabled := flag }
    | "retention" => { config with retention := durationArg host vars directive }
    | "operator_hint" => { config with operatorHint := firstArg host vars directive }
    | "replay_max_age" => { config with replayMaxAge := durationArg host vars directive }
    | _ => config
  | _ => config

def compileDeadLetterBlock (base : DeadLetterConfig) : DeadLetterConfig :=
  block.directives.foldl (deadLetterDirective host vars) base

/-- What a job inherits from the defaults written before it. -/
structure JobDefaults where
  timezone : Option String := none
  timeout : Option String := none
  retry : RetryConfig := {}
  deadLetter : DeadLetterConfig := {}
  executionMode : ExecutionMode := .queued
  catchUp : CatchUpPolicy := .all
  catchUpExplicit : Bool := false
  queueTtl : Option String := none
  maxQueueDepth : Option Nat := none
  keepLast : Option Nat := none
  priority : JobPriority := .normal

def defaultsDirective (defaults : JobDefaults) : DirectiveOrBlock → JobDefaults
  | .directive directive =>
    match directive.key.value with
    | "timezone" =>
      (firstArg host vars directive).elim defaults fun v => { defaults with timezone := some v }
    | "timeout" => { defaults with timeout := durationArg host vars directive }
    | "execution_mode" =>
      ((firstArg host vars directive).bind ExecutionMode.parse).elim defaults fun mode =>
        { defaults with executionMode := mode }
    | "catch_up" =>
      ((firstArg host vars directive).bind parseCatchUpPolicy).elim defaults fun policy =>
        { defaults with catchUp := policy, catchUpExplicit := true }
    | "queue_ttl" =>
      { defaults with queueTtl := (durationArg host vars directive).filter (· ≠ "none") }
    | "max_queue_depth" =>
      ((firstArg host vars directive).bind parseU32).elim defaults fun n =>
        { defaults with maxQueueDepth := some n }
    | "keep_last" =>
      ((firstArg host vars directive).bind parseU32).elim defaults fun n =>
        { defaults with keepLast := some n }
    | "priority" =>
      ((firstArg host vars directive).bind JobPriority.parse).elim defaults fun priority =>
        { defaults with priority := priority }
    | _ => defaults
  | .block name qualifier directives =>
    match name.value with
    | "retry" =>
      { defaults with
        retry := compileRetryBlock host vars ⟨name,qualifier,directives⟩ defaults.retry }
    | "dead_letter" =>
      { defaults with
        deadLetter :=
          compileDeadLetterBlock host vars ⟨name,qualifier,directives⟩
            defaults.deadLetter }
    | _ => defaults
  | .comment _ => defaults

/-- When a resolved placeholder is no argument of the rule, its text goes on in its place, so that
no error message prints its value. -/
def compileCalendarRule (rule : CalendarRule) : CalendarRuleConfig :=
  let args := rule.args.map (resolveStr host vars)
  { kind := match rule.kind with
      | .include => "include"
      | .exclude => "exclude"
    ruleType := rule.ruleType.value
    args :=
      if rule.args.any StringValue.isPlaceholder ∧
          ruleArgsValid host rule.ruleType.value args = false then
        rule.args.map fun arg =>
          if arg.isPlaceholder then "\x7b" ++ arg.value ++ "\x7d" else resolveStr host vars arg
      else args }

def calendarRule (config : CalendarConfig) (rule : CalendarRule) : CalendarConfig :=
  if rule.ruleType.value = "timezone" then
    { config with timezone := rule.args.head?.map (resolveStr host vars) }
  else { config with rules := config.rules ++ [compileCalendarRule host vars rule] }

def compileCalendar (block : CalendarBlock) (defaultTimezone : Option String) : CalendarConfig :=
  block.rules.foldl (calendarRule host vars)
    { name := block.name.value, timezone := defaultTimezone, rules := [] }

/-- The groups with a usable limit; of two with one name the first. -/
def concurrencyGroup (groups : List ConcurrencyGroupConfig) : Item → List ConcurrencyGroupConfig
  | .concurrencyGroup block =>
    let name := resolveStr host vars block.name
    if name = "" ∨ groups.any (·.name = name) then groups
    else
      let limit := (block.directives.find? (·.key.value = "max_concurrent")).bind fun directive =>
        ((firstArg host vars directive).bind parseU32).filter (0 < ·)
      limit.elim groups fun limit => groups ++ [⟨name,limit⟩]
  | _ => groups

def collectConcurrencyGroups (ast : Croniqfile) : List ConcurrencyGroupConfig :=
  ast.items.foldl (concurrencyGroup host vars) []

end Blocks

end Croniq.Config

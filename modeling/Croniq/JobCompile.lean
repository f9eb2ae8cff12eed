import Croniq.ConfigCompile

/-!
# Compiling a job and the whole file

A job starts from the defaults in force and is changed by each of its
directives.
-/

namespace Croniq.Config

open Function

structure JobDraft where
  description : Option String := none
  timezone : Option String
  calendar : Option String := none
  window : Option String := none
  notBefore : Option String := none
  notAfter : Option String := none
  runner : RunnerConfig := {}
  retry : RetryConfig
  timeout : Option String
  deadLetter : DeadLetterConfig
  metadata : String → Option String := fun _ => none
  executionMode : ExecutionMode
  catchUp : CatchUpPolicy
  catchUpExplicit : Bool
  queueTtl : Option String
  (maxQueueDepth keepLast : Option Nat)
  maxConcurrent : Option Nat := none
  concurrencyGroup : Option String := none
  coalesce : Bool := false
  coalesceSchedule : Bool := false
  priority : JobPriority
  tags : List String := []
  runOnRegister : Bool := false

/-- The defaults in force, and the mode of the schedule if any. -/
def JobDraft.start (defaults : JobDefaults) (mode : Option ScheduleMode) : JobDraft where
  timezone := defaults.timezone
  retry := defaults.retry
  timeout := defaults.timeout
  deadLetter := defaults.deadLetter
  executionMode := match mode with
    | some .ephemeral => .ephemeral
    | some .queued => .queued
    | none => defaults.executionMode
  catchUp := defaults.catchUp
  catchUpExplicit := defaults.catchUpExplicit
  queueTtl := defaults.queueTtl
  maxQueueDepth := defaults.maxQueueDepth
  keepLast := defaults.keepLast
  priority := defaults.priority

def isReservedMetadataKey (key : String) : Bool :=
  key.toList.take 2 == ['_','_']

section

variable (host : Host) (vars : Vars)

def pushTag (tags : List String) (arg : StringValue) : List String :=
  let tag := resolveStr host vars arg
  if tag = "" ∨ tag ∈ tags then tags else tags ++ [tag]

def jobDirective (groupLimits : String → Option Nat) (draft : JobDraft) (directive : Directive) :
    JobDraft :=
  match directive.key.value with
  | "description" => { draft with description := firstArg host vars directive }
  | "timezone" =>
    (firstArg host vars directive).elim draft fun v => { draft with timezone := some v }
  | "timeout" => { draft with timeout := durationArg host vars directive }
  | "window" => { draft with window := firstArg host vars directive }
  | "execution_mode" =>
    ((firstArg host vars directive).bind ExecutionMode.parse).elim draft fun mode =>
      { draft with executionMode := mode }
  | "catch_up" =>
    ((firstArg host vars directive).bind parseCatchUpPolicy).elim draft fun policy =>
      { draft with catchUp := policy, catchUpExplicit := true }
  | "queue_ttl" => { draft with queueTtl := (durationArg host vars directive).filter (· ≠ "none") }
  | "max_queue_depth" =>
    ((firstArg host vars directive).bind parseU32).elim draft fun n =>
      { draft with maxQueueDepth := some n }
  | "keep_last" =>
    ((firstArg host vars directive).bind parseU32).elim draft fun n =>
      { draft with keepLast := some n }
  | "concurrency_group" =>
    { draft with
      concurrencyGroup :=
        (firstArg host vars directive).filter fun name => (groupLimits name).isSome }
  | "singleton" => { draft with maxConcurrent := some 1 }
  | "coalesce" =>
    { draft with
      coalesce := true
      coalesceSchedule := firstArg host vars directive = some "schedule" }
  | "priority" =>
    ((firstArg host vars directive).bind JobPriority.parse).elim draft fun priority =>
      { draft with priority := priority }
  | "run_on_register" => { draft with runOnRegister := true }
  | "max_concurrent" =>
    { draft with
      maxConcurrent := ((firstArg host vars directive).bind parseU32).filter (0 < ·) }
  | "tags" => { draft with tags := directive.args.foldl (pushTag host vars) draft.tags }
  | _ => draft

def metadataEntry (metadata : String → Option String) : DirectiveOrBlock → String → Option String
  | .directive directive =>
    if isReservedMetadataKey directive.key.value then metadata
    else
      (firstArg host vars directive).elim metadata fun v =>
        update metadata directive.key.value (some v)
  | _ => metadata

variable (draft : JobDraft)

def jobRunner (block : NamedBlock) : JobDraft :=
  match block.qualifier.map StringValue.value with
  | none => { draft with runner := compileRunnerBlock host vars block }
  | some "shell" | some "exec" =>
    ((compileRunnerExecBlock host vars block).bind host.toJson).elim draft fun json =>
      { draft with metadata := update draft.metadata "__runner_exec" (some json) }
  | some _ => draft

def jobBlock (block : NamedBlock) : JobDraft :=
  match block.name.value with
  | "runner" => jobRunner host vars draft block
  | "retry" => { draft with retry := compileRetryBlock host vars block draft.retry }
  | "dead_letter" =>
    { draft with deadLetter := compileDeadLetterBlock host vars block draft.deadLetter }
  | "metadata" =>
    { draft with metadata := block.directives.foldl (metadataEntry host vars) draft.metadata }
  | _ => draft

def jobDirectiveOrBlock (groupLimits : String → Option Nat) (draft : JobDraft) :
    DirectiveOrBlock → JobDraft
  | .directive directive => jobDirective host vars groupLimits draft directive
  | .block name qualifier directives => jobBlock host vars draft ⟨name,qualifier,directives⟩
  | .comment _ => draft

def scheduleOption (directive : Directive) : JobDraft :=
  match directive.key.value with
  | "timezone" =>
    (firstArg host vars directive).elim draft fun v => { draft with timezone := some v }
  | "calendar" => { draft with calendar := firstArg host vars directive }
  | "not_before" => { draft with notBefore := firstArg host vars directive }
  | "not_after" => { draft with notAfter := firstArg host vars directive }
  | _ => draft

end

variable (draft : JobDraft)

/-- An ephemeral job has no queue, so its settings are dropped. -/
def JobDraft.withoutQueue : JobDraft :=
  if draft.executionMode = .ephemeral then
    { draft with
      catchUp := .none
      catchUpExplicit := false
      queueTtl := none
      maxQueueDepth := some 1
      keepLast := none
      maxConcurrent := none
      concurrencyGroup := none
      coalesce := false
      coalesceSchedule := false }
  else draft

/-- The metadata with the reserved keys of the claim path. -/
def JobDraft.stampedMetadata (groupLimits : String → Option Nat) : String → Option String :=
  let limited := draft.maxConcurrent.elim draft.metadata fun n =>
    update draft.metadata "__max_concurrent" (some (toString n))
  let grouped := (draft.concurrencyGroup.bind fun group =>
      (groupLimits group).map fun limit => (group, limit)).elim limited fun (group, limit) =>
    update (update limited "__concurrency_group" (some group))
      "__concurrency_group_max" (some (toString limit))
  let foldable := if draft.coalesce then
      update grouped "__coalesce"
        (some (if draft.coalesceSchedule then "schedule" else "1"))
    else grouped
  update foldable "__priority"
    (if draft.priority = .normal then none else some draft.priority.asStr)

def JobDraft.config (groupLimits : String → Option Nat) (key : JobKey)
    (schedule : CompiledSchedule) : JobConfig where
  key := key.raw
  nameSpace := key.nameSpace
  name := key.name
  variant := key.variant
  description := draft.description
  schedule := schedule
  scheduleSummary := schedule.summary
  timezone := draft.timezone
  calendar := draft.calendar
  window := draft.window
  notBefore := draft.notBefore
  notAfter := draft.notAfter
  runner := draft.runner
  retry := draft.retry
  timeout := draft.timeout
  deadLetter := draft.deadLetter
  metadata := draft.stampedMetadata groupLimits
  executionMode := draft.executionMode
  catchUp := draft.catchUp
  catchUpExplicit := draft.catchUpExplicit
  queueTtl := draft.queueTtl
  maxQueueDepth := draft.maxQueueDepth
  keepLast := draft.keepLast
  maxConcurrent := draft.maxConcurrent
  concurrencyGroup := draft.concurrencyGroup
  coalesce := draft.coalesce
  priority := draft.priority
  tags := draft.tags
  runOnRegister := draft.runOnRegister

def compileJob (host : Host) (vars : Vars) (groupLimits : String → Option Nat)
    (defaults : JobDefaults) (job : JobBlock) : JobConfig :=
  let schedule := (job.schedule.map fun node => CompiledSchedule.fromAst node.kind).getD .disabled
  let draft := job.directives.foldl (jobDirectiveOrBlock host vars groupLimits)
    (JobDraft.start defaults (job.schedule.bind ScheduleNode.mode))
  let options := (job.schedule.map ScheduleNode.options).getD []
  (options.foldl (scheduleOption host vars) draft).withoutQueue.config groupLimits job.key schedule

structure CompileState where
  server : ServerConfig := {}
  pullApi : Option PullApiConfig := none
  observability : Option ObservabilityConfig := none
  mcp : Option McpConfig := none
  oidc : Option OidcDslConfig := none
  smtp : Option SmtpDslConfig := none
  auth : AuthDslConfig := {}
  policy : PolicyConfig := {}
  alerts : AlertsConfig := {}
  defaults : JobDefaults := {}
  jobs : List JobConfig := []
  calendars : List CalendarConfig := []

def compileItem (host : Host) (vars : Vars) (groupLimits : String → Option Nat)
    (state : CompileState) : Item → CompileState
  | .server directives =>
    { state with server := directives.foldl (serverDirective host vars) state.server }
  | .pullApi directives =>
    { state with pullApi := some (directives.foldl (pullApiDirective host vars) {}) }
  | .defaults directives =>
    { state with defaults := directives.foldl (defaultsDirective host vars) state.defaults }
  | .calendar block =>
    { state with
      calendars := state.calendars ++
        [compileCalendar host vars block state.defaults.timezone] }
  | .job block =>
    { state with
      jobs := state.jobs ++ [compileJob host vars groupLimits state.defaults block] }
  | .observability subBlocks =>
    { state with
      observability := some (subBlocks.foldl (observabilityBlock host vars) {}) }
  | .mcp directives => { state with mcp := some (directives.foldl (mcpDirective host vars) {}) }
  | .policy directives => { state with policy := directives.foldl policyDirective state.policy }
  | .oidc directives => { state with oidc := some (directives.foldl (oidcDirective host vars) {}) }
  | .smtp directives => { state with smtp := some (directives.foldl (smtpDirective host vars) {}) }
  | .auth subBlocks => { state with auth := subBlocks.foldl (authBlock host vars) state.auth }
  | .alerts subBlocks => { state with alerts := compileAlerts host vars subBlocks }
  | .vars _ | .concurrencyGroup _ | .importFile _ | .comment _ => state

def groupLimits (groups : List ConcurrencyGroupConfig) : String → Option Nat :=
  groups.foldl (fun limits group => update limits group.name (some group.maxConcurrent))
    fun _ => none

def CompileState.config (state : CompileState) (groups : List ConcurrencyGroupConfig) :
    RuntimeConfig where
  server := state.server
  pullApi := state.pullApi
  observability := state.observability
  mcp := state.mcp
  oidc := state.oidc
  smtp := state.smtp
  auth := state.auth
  policy := state.policy
  alerts := state.alerts
  jobs := state.jobs
  calendars := state.calendars
  concurrencyGroups := groups

def compile (host : Host) (ast : Croniqfile) : RuntimeConfig :=
  let vars := collectVars host ast
  let groups := collectConcurrencyGroups host vars ast
  (ast.items.foldl (compileItem host vars (groupLimits groups)) {}).config groups

end Croniq.Config

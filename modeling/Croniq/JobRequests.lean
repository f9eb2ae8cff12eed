import Croniq.CallerScopes
import Croniq.RequestDebts
import Croniq.SchedulerMaps
import Croniq.WorkItems

/-!
# Requests that edit jobs and schedules

The API creates, changes, activates, deactivates and deletes jobs and their
schedules.
-/

namespace Croniq.Config

open CallPrograms KeyedTables TriggerDefinition

/-- The rows of jobs and triggers, and the commands sent so far. -/
structure LiveStore where
  jobs : Table JobDefinition.jobKey
  triggers : Table triggerId
  sent : List SchedulerCommand

/-- A handler reads for itself, or the sync at its end. -/
inductive Reader where
  | handler | sync
deriving DecidableEq

inductive JobCall where
  | getJobDefinition (reader : Reader) (jobKey : String)
  | createJobDefinition (job : JobDefinition)
  | deleteJobDefinition (jobKey : String)
  | getTrigger (triggerId : String)
  | listTriggers (jobKey : String)
  | createTrigger (row : TriggerDefinition)
  | updateTrigger (row : TriggerDefinition)
  | deleteTrigger (triggerId : String)
  | listCalendars
  | send (command : SchedulerCommand)

def JobCall.Answer : JobCall → Type
  | .getJobDefinition _ _ => Option JobDefinition
  | .getTrigger _ => Option TriggerDefinition
  | .listTriggers _ => List TriggerDefinition
  | .updateTrigger _ => Bool
  | .listCalendars => List CalendarDefinition
  | _ => Unit

namespace LiveStore

variable (store : LiveStore)

def rowsOf (key : String) : List TriggerDefinition :=
  store.triggers.rows.filter (·.jobKey = key)

/-- An insert that replaces the row of its key. -/
def createJobDefinition (job : JobDefinition) : Table JobDefinition.jobKey :=
  (store.jobs.insert job).getD
    (store.jobs.updateWhere (fun old => old.jobKey = job.jobKey)
      (fun old => { job with jobKey := old.jobKey }) fun _ => rfl)

variable (row : TriggerDefinition)

def createTrigger : Table triggerId :=
  (store.triggers.insert row).getD
    (store.triggers.updateWhere (fun old => old.triggerId = row.triggerId)
      (fun old => { row with triggerId := old.triggerId }) fun _ => rfl)

def editable (row old : TriggerDefinition) : Bool :=
  old.triggerId = row.triggerId && old.managedBy ≠ .dsl

def updateTrigger : Table triggerId :=
  store.triggers.updateWhere (editable row)
    (fun old =>
      { old with
        cronExpression := row.cronExpression
        timezone := row.timezone
        calendar := row.calendar
        window := row.window
        enabled := row.enabled })
    fun _ => rfl

/-- The calendars are none of what these requests change. -/
def perform (calendars : List CalendarDefinition) (store : LiveStore) :
    (what : JobCall) → what.Answer × LiveStore
  | .getJobDefinition _ jobKey => (store.jobs.find? jobKey, store)
  | .createJobDefinition job => ((), { store with jobs := store.createJobDefinition job })
  | .deleteJobDefinition jobKey =>
    ((), { store with
      jobs := store.jobs.delete jobKey
      triggers := store.triggers.deleteWhere (·.jobKey = jobKey) })
  | .getTrigger triggerId => (store.triggers.find? triggerId, store)
  | .listTriggers jobKey => (store.rowsOf jobKey, store)
  | .createTrigger row => ((), { store with triggers := store.createTrigger row })
  | .updateTrigger row =>
    (store.triggers.rows.any (editable row), { store with triggers := store.updateTrigger row })
  | .deleteTrigger triggerId => ((), { store with triggers := store.triggers.delete triggerId })
  | .listCalendars => (calendars, store)
  | .send command => ((), { store with sent := store.sent ++ [command] })

end LiveStore

inductive EditStatus where
  | badRequest | forbidden | notFound | conflict | internalServerError
deriving DecidableEq

inductive JobError where
  | status (status : EditStatus)
  | dslManaged (jobKey : String)
  | exists (jobKey : String)
  | invalidDuration (field : String)
  | invalidType (field expected : String)
deriving DecidableEq

open JobError

structure ValidationError where
  status : EditStatus
  (error message : String)
deriving DecidableEq

inductive EditAnswer where
  | job (definition : JobDefinition)
  | schedule (definition : TriggerDefinition)
  | noContent
  | jobError (error : JobError)
  | refused (error : ValidationError)

abbrev EditHandler := Program JobCall JobCall.Answer Empty EditAnswer

def JobError.answer (error : JobError) : EditHandler :=
  .done (.jobError error)

def ValidationError.answer (error : ValidationError) : EditHandler :=
  .done (.refused error)

section Handlers

variable (platform : Platform) (view : FileView)

/-- Send the command, if there is one, and go on. -/
def sendThen (command : Option SchedulerCommand) (rest : EditHandler) : EditHandler :=
  match command with
  | none => rest
  | some command => .call (.send command) fun _ _ => rest

/-- The calendars are compiled unless the caller has them. -/
def readCalendars (known : Known) (reads : SyncReads) (next : Int → SyncReads → EditHandler)
    (now : Int) : EditHandler :=
  match known.calendars with
  | some _ => next now reads
  | none => .call .listCalendars fun now stored => next now { reads with calendars := stored }

/-- Read the rows of the job back, as far as they matter, and send the command they call
for. -/
def syncThen (known : Known) (key : String) (rest : EditHandler) : EditHandler :=
  let conclude := fun now reads =>
    sendThen ((syncJobWith platform view now reads known key).command key) rest
  if view.isDslManaged key then rest
  else
    .call (.getJobDefinition .sync key) fun now job =>
      let reads : SyncReads := { jobDefinition := job, triggers := none, calendars := none }
      if markedInactive (job.getD none) then conclude now reads
      else
        match known.edited with
        | some edited =>
          if edited.usable then readCalendars known reads conclude now else conclude now reads
        | none =>
          .call (.listTriggers key) fun now rows =>
            if ((rows.getD []).find? usable).isSome then
              readCalendars known { reads with triggers := rows } conclude now
            else conclude now { reads with triggers := rows }

structure CreateJobRequest where
  jobKey : String
  description : Option String
  metadata : String → Option String
  timeout : Option String
  maxRetries : Option Nat
  deadLetterEnabled : Option Bool
  (deadLetterRetention deadLetterOperatorHint deadLetterReplayMaxAge : Option String)
  tags : List String

/-- Blank tags are dropped, repeated ones count once. -/
def normalizeTags (tags : List String) : List String :=
  tags.foldl (fun kept tag =>
    let trimmed := trim tag
    if trimmed ≠ "" ∧ trimmed ∉ kept then kept ++ [trimmed] else kept) []

/-- Keys with two leading underscores are the scheduler's. -/
def stripReservedMetadata (metadata : String → Option String) (key : String) : Option String :=
  if ['_','_'].isPrefixOf key.toList then none else metadata key

def validatedTimeout (value : Option String) : Except JobError (Option String) :=
  match validateOptionalDuration value with
  | some timeout => .ok timeout
  | none => .error (.invalidDuration "timeout")

variable (caller : Auth.CallerContext)

/-- `POST /v1/jobs` -/
def handleCreateJob (request : CreateJobRequest) : EditHandler :=
  if !caller.hasScope Auth.Scope.jobsWrite then (status .forbidden).answer
  else if view.isDslManaged request.jobKey then (dslManaged request.jobKey).answer
  else
    .call (.getJobDefinition .handler request.jobKey) fun _ found =>
      match found with
      | none => (status .internalServerError).answer
      | some (some _) => (JobError.exists request.jobKey).answer
      | some none =>
        match validatedTimeout request.timeout with
        | .error error => error.answer
        | .ok timeout =>
          let job : JobDefinition :=
            { jobKey := request.jobKey
              description := request.description
              isActive := true
              metadata := stripReservedMetadata request.metadata
              timeout
              maxRetries := request.maxRetries
              deadLetterEnabled := request.deadLetterEnabled
              deadLetterRetention := request.deadLetterRetention
              deadLetterOperatorHint := request.deadLetterOperatorHint
              deadLetterReplayMaxAge := request.deadLetterReplayMaxAge
              tags := normalizeTags request.tags }
          .call (.createJobDefinition job) fun _ written =>
            match written with
            | none => (status .internalServerError).answer
            | some _ => syncThen platform view {} request.jobKey (.done (.job job))

/-- A value of a patch, as far as handlers tell values apart. -/
inductive JsonValue where
  | null
  | bool (value : Bool)
  | number (asU64 : Option Nat)
  | string (value : String)
  | array (items : List JsonValue)
  | object

variable (value : JsonValue) (field : String)

def patchString : Except JobError (Option String) :=
  match value with
  | .null => .ok none
  | .string text => .ok (some text)
  | _ => .error (.invalidType field "a string")

def patchU32 : Except JobError (Option Nat) :=
  let expected := "an integer between 0 and 4294967295"
  match value with
  | .null => .ok none
  | .number (some number) =>
    if number < 2 ^ 32 then .ok (some number) else .error (.invalidType field expected)
  | _ => .error (.invalidType field expected)

def patchBool : Except JobError (Option Bool) :=
  match value with
  | .null => .ok none
  | .bool value => .ok (some value)
  | _ => .error (.invalidType field "a boolean")

def JsonValue.asStr : JsonValue → Option String
  | .string text => some text
  | _ => none

def patchTags : Except JobError (List String) :=
  match value with
  | .null => .ok []
  | .array items =>
    match items.mapM JsonValue.asStr with
    | some tags => .ok (normalizeTags tags)
    | none => .error (.invalidType field "an array of strings")
  | _ => .error (.invalidType field "an array of strings")

/-- A field that is not sent keeps its value. -/
def patchField {Value : Type} (fields : String → Option JsonValue) (field : String)
    (current : Value) (read : JsonValue → String → Except JobError Value) : Except JobError Value :=
  (fields field).elim (.ok current) fun value => read value field

def JobDefinition.patched (job : JobDefinition) (fields : String → Option JsonValue) :
    Except JobError JobDefinition := do
  let description ← patchField fields "description" job.description patchString
  let timeout ← patchField fields "timeout" job.timeout fun value field => do
    validatedTimeout (← patchString value field)
  let maxRetries ← patchField fields "max_retries" job.maxRetries patchU32
  let deadLetterEnabled ←
    patchField fields "dead_letter_enabled" job.deadLetterEnabled patchBool
  let deadLetterRetention ←
    patchField fields "dead_letter_retention" job.deadLetterRetention patchString
  let deadLetterOperatorHint ←
    patchField fields "dead_letter_operator_hint" job.deadLetterOperatorHint patchString
  let deadLetterReplayMaxAge ←
    patchField fields "dead_letter_replay_max_age" job.deadLetterReplayMaxAge patchString
  let tags ← patchField fields "tags" job.tags patchTags
  return { job with
    description, timeout, maxRetries, deadLetterEnabled, deadLetterRetention
    deadLetterOperatorHint, deadLetterReplayMaxAge, tags }

variable (key : String)

/-- What the updates of a job share: the row is read, changed and written back. -/
def changeJob (change : JobDefinition → Except JobError JobDefinition) : EditHandler :=
  if !caller.hasScope Auth.Scope.jobsWrite then (status .forbidden).answer
  else if view.isDslManaged key then (dslManaged key).answer
  else
    .call (.getJobDefinition .handler key) fun _ found =>
      match found with
      | none => (status .internalServerError).answer
      | some none => (status .notFound).answer
      | some (some job) =>
        match change job with
        | .error error => error.answer
        | .ok changed =>
          .call (.createJobDefinition changed) fun _ written =>
            match written with
            | none => (status .internalServerError).answer
            | some _ => syncThen platform view {} key (.done (.job changed))

/-- `PUT /v1/jobs/{job_key}`; the body is an object or not. -/
def handleUpdateJob (body : Option (String → Option JsonValue)) : EditHandler :=
  changeJob platform view caller key fun job => body.elim (.error (.status .badRequest)) job.patched

def handleActivate : EditHandler :=
  changeJob platform view caller key fun job => .ok { job with isActive := true }

def handleDeactivate : EditHandler :=
  changeJob platform view caller key fun job => .ok { job with isActive := false }

def handleDeleteJob : EditHandler :=
  if !caller.hasScope Auth.Scope.jobsWrite then (status .forbidden).answer
  else if view.isDslManaged key then (dslManaged key).answer
  else
    .call (.deleteJobDefinition key) fun _ deleted =>
      match deleted with
      | none => (status .internalServerError).answer
      | some _ => sendThen (some (.removeJob key)) (.done .noContent)

/-- An expression, if any, has to read, and an interval to be longer than zero. -/
def checkSchedule (expression : Option String) : Except ValidationError Unit :=
  match expression with
  | none => .ok ()
  | some expression =>
    match scheduleFromExpr platform.parsers expression with
    | some (.interval 0) =>
      .error ⟨.badRequest,"invalid_schedule",
        "an interval schedule must be longer than zero seconds"⟩
    | some _ => .ok ()
    | none =>
      .error ⟨.badRequest,"invalid_schedule",
        "schedule '" ++ expression ++ "' does not parse: use interval shorthand " ++
          "(\"30s\", \"5m\", \"1h\", \"*/5 * * * *\") or a Croniqfile schedule line " ++
          "(\"every day at 02:00\")"⟩

def checkWindow (window : Option String) : Except ValidationError Unit :=
  match window.filter (· ≠ "") with
  | none => .ok ()
  | some window =>
    if (TimeWindow.parse window).isSome then .ok ()
    else
      .error ⟨.badRequest,"invalid_window",
        "window '" ++ window ++
          "' does not parse: expected HH:MM..HH:MM, e.g. 02:00..06:00"⟩

def checkTimezone (timezone : Option String) : Except ValidationError Unit :=
  match timezone.filter (· ≠ "") with
  | none => .ok ()
  | some name =>
    match platform.parseZone name with
    | .ok _ => .ok ()
    | .error message => .error ⟨.badRequest,"unknown_timezone",message⟩

/-- A calendar that does not compile is known all the same. -/
def checkCalendarKnown (calendar : Option String) (resolved : ResolvedCalendars) :
    Except ValidationError Unit :=
  match calendar with
  | none => .ok ()
  | some name =>
    if name = "" || (resolved.calendars name).isSome || (resolved.errors name).isSome then
      .ok ()
    else
      .error ⟨.badRequest,"unknown_calendar","calendar '" ++ name ++ "' is not defined"⟩

def missingSchedulesWrite : ValidationError :=
  ⟨.forbidden,"forbidden","missing scope: " ++ Auth.Scope.schedulesWrite⟩

def notPersisted : ValidationError :=
  ⟨.internalServerError,"store_error","failed to persist schedule"⟩

def ownedByFile : ValidationError :=
  ⟨.conflict,"dsl_managed","DSL-managed schedules are owned by the Croniqfile"⟩

/-- The id is one that the server has just made up. -/
structure CreateTriggerRequest where
  (freshTriggerId jobKey : String)
  (cronExpression timezone calendar window : Option String)
  enabled : Bool

variable (request : CreateTriggerRequest)

def CreateTriggerRequest.row : TriggerDefinition where
  triggerId := request.freshTriggerId
  jobKey := request.jobKey
  cronExpression := request.cronExpression
  timezone := request.timezone
  calendar := request.calendar
  window := request.window
  notBefore := none
  notAfter := none
  enabled := request.enabled
  managedBy := .api

/-- `POST /v1/schedules` -/
def handleCreateSchedule : EditHandler :=
  if !caller.hasScope Auth.Scope.schedulesWrite then missingSchedulesWrite.answer
  else if view.isDslManaged request.jobKey then
    ValidationError.answer ⟨.conflict,"dsl_managed",
      "job '" ++ request.jobKey ++ "' is scheduled by the Croniqfile"⟩
  else
    match checkSchedule platform request.cronExpression >>= fun _ => checkWindow request.window with
    | .error error => error.answer
    | .ok _ =>
      .call .listCalendars fun _ stored =>
        let resolved := resolvedCalendars platform view (stored.getD [])
        match checkCalendarKnown request.calendar resolved >>= fun _ =>
            checkTimezone platform request.timezone with
        | .error error => error.answer
        | .ok _ =>
          .call (.createTrigger request.row) fun _ written =>
            match written with
            | none => notPersisted.answer
            | some _ =>
              syncThen platform view { edited := request.row, calendars := resolved }
                request.jobKey (.done (.schedule request.row))

/-- A field that is not sent stays; an empty text clears one that may be unset. -/
structure UpdateTriggerRequest where
  (cronExpression timezone : Option String)
  enabled : Option Bool
  (calendar window : Option String)

def UpdateTriggerRequest.applyTo (request : UpdateTriggerRequest) (row : TriggerDefinition) :
    TriggerDefinition :=
  let cleared := fun (sent current : Option String) =>
    sent.elim current fun text => if text = "" then none else some text
  { row with
    cronExpression := request.cronExpression.or row.cronExpression
    timezone := cleared request.timezone row.timezone
    calendar := cleared request.calendar row.calendar
    window := cleared request.window row.window
    enabled := request.enabled.getD row.enabled }

variable (triggerId : String)

def isDslTriggerId : Bool :=
  ['d','s','l',':'].isPrefixOf triggerId.toList

/-- `PUT /v1/schedules/{trigger_id}` -/
def handleUpdateSchedule (request : UpdateTriggerRequest) : EditHandler :=
  let notFound : ValidationError :=
    ⟨.notFound,"not_found","no schedule with id '" ++ triggerId ++ "'"⟩
  if !caller.hasScope Auth.Scope.schedulesWrite then missingSchedulesWrite.answer
  else if isDslTriggerId triggerId then ownedByFile.answer
  else
    .call (.getTrigger triggerId) fun _ found =>
      match found with
      | none =>
        ValidationError.answer
          ⟨.internalServerError,"store_error","failed to load schedule"⟩
      | some none => notFound.answer
      | some (some existing) =>
        if existing.managedBy = .dsl || view.isDslManaged existing.jobKey then
          ownedByFile.answer
        else
          match checkSchedule platform request.cronExpression >>= fun _ =>
              checkWindow request.window with
          | .error error => error.answer
          | .ok _ =>
            let edited := request.applyTo existing
            .call .listCalendars fun _ stored =>
              let resolved := resolvedCalendars platform view (stored.getD [])
              match checkCalendarKnown edited.calendar resolved >>= fun _ =>
                  checkTimezone platform edited.timezone with
              | .error error => error.answer
              | .ok _ =>
                .call (.updateTrigger edited) fun _ updated =>
                  match updated with
                  | none => notPersisted.answer
                  | some false => notFound.answer
                  | some true =>
                    syncThen platform view { edited := edited, calendars := resolved }
                      edited.jobKey (.done (.schedule edited))

/-- A lookup that fails reads as no row, and nothing is sent. -/
def handleDeleteSchedule : EditHandler :=
  if !caller.hasScope Auth.Scope.schedulesWrite then (status .forbidden).answer
  else if isDslTriggerId triggerId then (status .conflict).answer
  else
    .call (.getTrigger triggerId) fun _ found =>
      let jobKey := (found.getD none).map jobKey
      if jobKey.any view.isDslManaged then (status .conflict).answer
      else
        .call (.deleteTrigger triggerId) fun _ deleted =>
          match deleted with
          | none => (status .internalServerError).answer
          | some _ => sendThen (jobKey.map .removeJob) (.done .noContent)

inductive EditRequest where
  | createJob (request : CreateJobRequest)
  | updateJob (key : String) (body : Option (String → Option JsonValue))
  | activate (key : String)
  | deactivate (key : String)
  | deleteJob (key : String)
  | createSchedule (request : CreateTriggerRequest)
  | updateSchedule (triggerId : String) (request : UpdateTriggerRequest)
  | deleteSchedule (triggerId : String)

def handleEdit : EditRequest → EditHandler
  | .createJob request => handleCreateJob platform view caller request
  | .updateJob key body => handleUpdateJob platform view caller key body
  | .activate key => handleActivate platform view caller key
  | .deactivate key => handleDeactivate platform view caller key
  | .deleteJob key => handleDeleteJob view caller key
  | .createSchedule request => handleCreateSchedule platform view caller request
  | .updateSchedule triggerId request => handleUpdateSchedule platform view caller triggerId request
  | .deleteSchedule triggerId => handleDeleteSchedule view caller triggerId

def editService (calendars : List CalendarDefinition) :
    Service LiveStore (Auth.CallerContext × EditRequest) JobCall JobCall.Answer Empty
      EditAnswer where
  handle := fun (caller, request) => handleEdit platform view caller request
  perform := LiveStore.perform calendars

end Handlers

end Croniq.Config

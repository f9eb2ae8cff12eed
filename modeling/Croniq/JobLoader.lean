import Croniq.JobTimes
import Croniq.RuntimeConfig
import Croniq.TriggerRestore

/-!
# Loading the jobs of a configuration file

The loader builds one trigger for each job of a validated file.
-/

namespace Croniq

open CivilCalendar Config Function List

/-- The faults of one directive with a single time. -/
def directiveTimeErrors {Value : Type} (parse : String → Except String Value)
    (directive : Directive) : List String :=
  match directive.args with
  | [arg] =>
    if arg.isPlaceholder then []
    else
      match parse arg.value with
      | .ok _ => []
      | .error message => [message]
  | args =>
    ["`" ++ directive.key.value ++ "` takes exactly one value, got " ++ toString args.length]

def windowErrors (job : JobBlock) : List String :=
  job.directives.flatMap fun
    | .directive directive =>
      if directive.key.value = "window" then directiveTimeErrors parseJobWindow directive else []
    | .block _ _ _ => []
    | .comment _ => []

def scheduleTimeErrors (parsers : DateParsers) (schedule : ScheduleNode) : List String :=
  (schedule.options.flatMap fun option =>
    if option.key.value = "not_before" ∨ option.key.value = "not_after" then
      directiveTimeErrors (parseBound parsers) option
    else []) ++
  match schedule.kind with
  | .once instant =>
    if instant.isPlaceholder then []
    else
      match parseOnceAt parsers instant.value with
      | .ok _ => []
      | .error message => [message]
  | _ => []

/-- The times of a job that do not parse; placeholders are left out. -/
def jobTimeErrors (parsers : DateParsers) (job : JobBlock) : List String :=
  windowErrors job ++
    match job.schedule with
    | some schedule => scheduleTimeErrors parsers schedule
    | none => []

def Config.IntervalUnit.toSeconds : IntervalUnit → Nat → Nat
  | .seconds, count => count
  | .minutes, count => count * 60
  | .hours, count => count * 3600

def scheduleTime (time : TimeValue) : Except String NaiveTime :=
  match NaiveTime.fromHmsOpt time.hour time.minute with
  | some time => .ok time
  | none => .error ("invalid time: " ++ toString time.hour ++ ":" ++ toString time.minute)

def parseDatetime (parsers : DateParsers) (text : String) : Except String Int :=
  match parsers.rfc3339 text with
  | some instant => .ok instant
  | none =>
    match parsers.naiveDateTime text with
    | some instant => .ok instant
    | none => .error ("invalid datetime: " ++ text)

def Schedule.fromAst (parsers : DateParsers) : ScheduleKind → Except String Schedule
  | .interval count unit =>
    if unit.toSeconds count = 0 then .error "invalid interval: interval must be > 0"
    else .ok (.interval (unit.toSeconds count))
  | .daily time => (scheduleTime time).map .daily
  | .weekdays days time => (scheduleTime time).map (.weekdays days)
  | .monthly ordinals time => (scheduleTime time).map (.monthly ordinals)
  | .once instant => (parseDatetime parsers instant.value).map .once
  | .disabled => .ok .disabled

/-- The compiled calendars by name, and why the others did not compile. -/
structure ResolvedCalendars where
  calendars : String → Option Calendar
  errors : String → Option String
  strict : Bool

/-- The gate of a job and its fault; an empty name clears the gate. -/
def ResolvedCalendars.resolve (resolved : ResolvedCalendars) (name : Option String) :
    Option Calendar × Option String :=
  match name with
  | none => (none, none)
  | some name =>
    if name = "" then (none, none)
    else
      match resolved.calendars name with
      | some calendar => (some calendar, none)
      | none =>
        let reason :=
          match resolved.errors name with
          | some error => "calendar '" ++ name ++ "' failed to compile: " ++ error
          | none => "calendar '" ++ name ++ "' is not defined"
        (none, if resolved.strict then some reason else none)

def missedFiresFor (job : JobConfig) : MissedFires :=
  if job.catchUpExplicit then
    match job.catchUp with
    | .all => .all (job.maxQueueDepth.getD 10)
    | .latest => .once
    | .none => .skip
  else .once

/-- Read a compiled value; a new fault is added once. -/
def readTime {Value : Type} (parse : String → Except String Value) (value : Option String)
    (faults : List String) : Option Value × List String :=
  match value with
  | none => (none, faults)
  | some text =>
    match parse text with
    | .ok value => (some value, faults)
    | .error message => (none, if faults.contains message then faults else faults ++ [message])

/-- A schedule that cannot be built disables the job, and names its fault only if no time of the job
did. -/
def readSchedule (parsers : DateParsers) (schedule : Option ScheduleNode)
    (faults : List String) : Schedule × List String :=
  match schedule with
  | none => (.disabled, faults)
  | some node =>
    match Schedule.fromAst parsers node.kind with
    | .ok schedule => (schedule, faults)
    | .error message => (.disabled, if faults.isEmpty then [message] else faults)

inductive LoadError where
  | validate (messages : List String)
  | timezone (job reason : String)
  | missingAstJob (job : String)
deriving DecidableEq

def readTimezone (parseZone : ZoneParser) (job : JobConfig) : Except LoadError Tz :=
  match job.timezone with
  | none => .ok .utc
  | some name => (parseZone name).mapError (.timezone job.key)

/-- The definition of one job and the reasons it is faulted. -/
def loadJob (parsers : DateParsers) (parseZone : ZoneParser)
    (calendars : ResolvedCalendars) (astJob : JobBlock) (job : JobConfig) :
    Except LoadError (TriggerSpec × List String) := do
  let (schedule, faults) := readSchedule parsers astJob.schedule (jobTimeErrors parsers astJob)
  let timezone ← readTimezone parseZone job
  let (calendar, calendarFault) := calendars.resolve job.calendar
  let (notBefore, faults) := readTime (parseBound parsers) job.notBefore faults
  let (notAfter, faults) := readTime (parseBound parsers) job.notAfter faults
  let (accepted, faults) := readTime parseJobWindow job.window faults
  let window := accepted.bind fun _ => job.window.bind TimeWindow.parse
  let reasons := calendarFault.toList ++ faults
  return ({ schedule, timezone, calendar, window, jobKey := job.key, notBefore, notAfter
            missedFires := missedFiresFor job, faulted := !reasons.isEmpty }, reasons)

structure LoadedConfig where
  triggers : String → Option Trigger
  calendarFaults : String → Option String

def LoadedConfig.empty : LoadedConfig where
  triggers := fun _ => none
  calendarFaults := fun _ => none

variable (loaded : LoadedConfig)

def LoadedConfig.insertJob (spec : TriggerSpec) (reasons : List String)
    (now : Int) : LoadedConfig where
  triggers := update loaded.triggers spec.jobKey (some (spec.build now))
  calendarFaults :=
    if reasons.isEmpty then loaded.calendarFaults
    else update loaded.calendarFaults spec.jobKey (some ("; ".intercalate reasons))

/-- A parsed file and what it compiles to: one compiled job for each of its jobs, under the same
key. -/
structure CompiledFile where
  astJobs : List JobBlock
  jobs : List JobConfig
  calendars : ResolvedCalendars
  otherErrors : List String
  sameKeys : jobs.map JobConfig.key = astJobs.map (·.key.raw)

def duplicateKeyErrors : List String → List String → List String
  | _, [] => []
  | seen, key :: keys =>
    (if key ∈ seen then ["duplicate job key '" ++ key ++ "'"] else []) ++
      duplicateKeyErrors (key :: seen) keys

/-- The errors that reject a file: repeated keys, and the other ones. -/
def CompiledFile.validate (file : CompiledFile) : List String :=
  duplicateKeyErrors [] (file.astJobs.map (·.key.raw)) ++ file.otherErrors

def loadJobs (parsers : DateParsers) (parseZone : ZoneParser) (file : CompiledFile) (now : Int) :
    List JobConfig → LoadedConfig → Except LoadError LoadedConfig
  | [], loaded => .ok loaded
  | job :: jobs, loaded =>
    match file.astJobs.find? (·.key.raw = job.key) with
    | none => .error (.missingAstJob job.key)
    | some astJob => do
        let (spec, reasons) ← loadJob parsers parseZone file.calendars astJob job
        loadJobs parsers parseZone file now jobs (loaded.insertJob spec reasons now)

def loadFromCompiled (parsers : DateParsers) (parseZone : ZoneParser)
    (file : CompiledFile) (now : Int) : Except LoadError LoadedConfig :=
  if file.validate.isEmpty then loadJobs parsers parseZone file now file.jobs .empty
  else .error (.validate file.validate)

theorem duplicateKeyErrors_eq_nil_iff (seen keys : List String) :
    duplicateKeyErrors seen keys = [] ↔ keys.Nodup ∧ ∀ key ∈ keys, key ∉ seen := by
  induction keys generalizing seen with
  | nil => simp [duplicateKeyErrors]
  | cons key keys ih =>
    rw [duplicateKeyErrors,append_eq_nil_iff,ih,nodup_cons]
    by_cases known : key ∈ seen
    · simp [known]
    simp only [known,if_false,mem_cons,not_or,true_and,forall_eq_or_imp,not_false_eq_true]
    constructor
    · rintro ⟨keysUnique,fresh⟩
      exact ⟨⟨fun repeated => (fresh key repeated).1 rfl,keysUnique⟩,
        fun other member => (fresh other member).2⟩
    · rintro ⟨⟨notRepeated,keysUnique⟩,fresh⟩
      refine ⟨keysUnique,fun other member => ⟨?_,fresh other member⟩⟩
      rintro rfl
      exact notRepeated member

variable {file : CompiledFile} {parsers : DateParsers} {parseZone : ZoneParser}
  {spec : TriggerSpec} {now : Int} {jobs : List JobConfig} {before after : LoadedConfig}

theorem CompiledFile.keys_nodup (valid : file.validate.isEmpty = true) :
    (file.jobs.map JobConfig.key).Nodup := by
  rw [file.sameKeys]
  have noErrors := append_eq_nil_iff.mp (isEmpty_iff.mp valid)
  exact ((duplicateKeyErrors_eq_nil_iff _ _).mp noErrors.1).1

/-- The faults of the times of a job, in order. -/
def timeFaults (parsers : DateParsers) (astJob : JobBlock) (job : JobConfig) : List String :=
  let faults := (readSchedule parsers astJob.schedule (jobTimeErrors parsers astJob)).2
  let faults := (readTime (parseBound parsers) job.notBefore faults).2
  let faults := (readTime (parseBound parsers) job.notAfter faults).2
  (readTime parseJobWindow job.window faults).2

theorem loadJob_spec {calendars : ResolvedCalendars} {astJob : JobBlock} {job : JobConfig}
    {reasons : List String}
    (loads : loadJob parsers parseZone calendars astJob job = .ok (spec, reasons)) :
    spec.jobKey = job.key ∧ spec.faulted = !reasons.isEmpty ∧
      spec.calendar = (calendars.resolve job.calendar).1 ∧
      reasons = (calendars.resolve job.calendar).2.toList ++ timeFaults parsers astJob job := by
  unfold loadJob at loads
  cases zone : readTimezone parseZone job with
  | error => simp [zone,bind,Except.bind] at loads
  | ok =>
    simp only [zone,bind,Except.bind,pure,Except.pure,Except.ok.injEq,Prod.mk.injEq] at loads
    obtain ⟨rfl,rfl⟩ := loads
    exact ⟨rfl,rfl,rfl,rfl⟩

/-- What is on record for a job with these reasons. -/
def faultOnRecord (reasons : List String) : Option String :=
  if reasons.isEmpty then none else some ("; ".intercalate reasons)

/-- Every job of a list has its own trigger and its reasons on record, since no key is loaded twice.
-/
theorem loadJobs_entry (keysUnique : (jobs.map JobConfig.key).Nodup)
    (fresh : ∀ job ∈ jobs, before.calendarFaults job.key = none)
    (loads : loadJobs parsers parseZone file now jobs before = .ok after) :
    (∀ key, key ∉ jobs.map JobConfig.key →
        after.triggers key = before.triggers key ∧
          after.calendarFaults key = before.calendarFaults key) ∧
      ∀ job ∈ jobs, ∃ astJob spec reasons,
        file.astJobs.find? (·.key.raw = job.key) = some astJob ∧
          loadJob parsers parseZone file.calendars astJob job = .ok (spec, reasons) ∧
          after.triggers job.key = some (spec.build now) ∧
          after.calendarFaults job.key = faultOnRecord reasons := by
  induction jobs generalizing before with
  | nil =>
    cases loads
    simp
  | cons job jobs ih =>
    obtain ⟨notRepeated,restUnique⟩ := nodup_cons.mp keysUnique
    rw [loadJobs] at loads
    split at loads
    · cases loads
    rename_i astJob found
    cases loaded : loadJob parsers parseZone file.calendars astJob job with
    | error => simp [loaded,bind,Except.bind] at loads
    | ok result =>
      obtain ⟨spec,reasons⟩ := result
      simp only [loaded,bind,Except.bind] at loads
      obtain ⟨sameKey,-⟩ := loadJob_spec loaded
      have otherKept : ∀ key, key ≠ job.key →
          (before.insertJob spec reasons now).triggers key = before.triggers key ∧
            (before.insertJob spec reasons now).calendarFaults key = before.calendarFaults key := by
        intro key differs
        rw [← sameKey] at differs
        refine ⟨update_of_ne differs _ _,?_⟩
        simp only [LoadedConfig.insertJob]
        split
        · rfl
        · exact update_of_ne differs _ _
      have restFresh : ∀ other ∈ jobs,
          (before.insertJob spec reasons now).calendarFaults other.key = none := by
        intro other member
        rw [(otherKept other.key fun same => notRepeated (same ▸ mem_map_of_mem member)).2]
        exact fresh other (mem_cons_of_mem _ member)
      have inserted : (before.insertJob spec reasons now).triggers job.key =
          some (spec.build now) ∧
            (before.insertJob spec reasons now).calendarFaults job.key = faultOnRecord reasons := by
        have noFault := fresh job mem_cons_self
        rw [← sameKey] at noFault ⊢
        refine ⟨update_self _ _ _,?_⟩
        unfold LoadedConfig.insertJob faultOnRecord
        split <;> simp [*]
      obtain ⟨kept,rest⟩ := ih restUnique restFresh loads
      refine ⟨?_,?_⟩
      · intro key notLoaded
        rw [map_cons,mem_cons,not_or] at notLoaded
        obtain ⟨sameTrigger,sameFault⟩ := kept key notLoaded.2
        obtain ⟨keptTrigger,keptFault⟩ := otherKept key notLoaded.1
        exact ⟨sameTrigger.trans keptTrigger,sameFault.trans keptFault⟩
      · intro other member
        obtain rfl | member := mem_cons.mp member
        · obtain ⟨sameTrigger,sameFault⟩ := kept _ notRepeated
          exact ⟨astJob,spec,reasons,found,loaded,sameTrigger.trans inserted.1,
            sameFault.trans inserted.2⟩
        · exact rest other member

/-- Every fault on record is of a trigger built from a faulted definition. -/
def LoadedConfig.FaultsPaused (now : Int) : Prop :=
  ∀ key reason, loaded.calendarFaults key = some reason →
    ∃ spec : TriggerSpec, spec.faulted = true ∧ loaded.triggers key = some (spec.build now)

theorem loadJobs_faultsPaused (keysUnique : (jobs.map JobConfig.key).Nodup)
    (fresh : ∀ job ∈ jobs, before.calendarFaults job.key = none)
    (faultsPaused : before.FaultsPaused now)
    (loads : loadJobs parsers parseZone file now jobs before = .ok after) :
    after.FaultsPaused now := by
  obtain ⟨kept,loaded⟩ := loadJobs_entry keysUnique fresh loads
  intro key reason onRecord
  by_cases isLoaded : key ∈ jobs.map JobConfig.key
  · obtain ⟨job,member,rfl⟩ := mem_map.mp isLoaded
    obtain ⟨astJob,spec,reasons,-,loads,built,recorded⟩ := loaded job member
    refine ⟨spec,?_,built⟩
    rw [(loadJob_spec loads).2.1]
    rw [recorded,faultOnRecord] at onRecord
    cases noReasons : reasons.isEmpty with
    | true => simp [noReasons] at onRecord
    | false => rfl
  · obtain ⟨sameTrigger,sameFault⟩ := kept key isLoaded
    obtain ⟨spec,faulted,built⟩ := faultsPaused key reason (sameFault ▸ onRecord)
    exact ⟨spec,faulted,sameTrigger.trans built⟩

theorem loadFromCompiled_faultsPaused {loaded : LoadedConfig}
    (loads : loadFromCompiled parsers parseZone file now = .ok loaded) :
    loaded.FaultsPaused now := by
  unfold loadFromCompiled at loads
  split at loads
  · rename_i valid
    refine loadJobs_faultsPaused (file.keys_nodup valid) (fun _ _ => rfl) ?_ loads
    intro key reason onRecord
    cases onRecord
  · cases loads

theorem readTime_faults_eq_nil_iff {Value : Type} (parse : String → Except String Value)
    (value : Option String) (faults : List String) : (readTime parse value faults).2 = [] ↔
      faults = [] ∧ ∀ text, value = some text → (parse text).isOk = true := by
  cases value with
  | none => simp [readTime]
  | some text =>
    cases parsed : parse text with
    | ok => simp [readTime,parsed,Except.isOk,Except.toBool]
    | error message =>
      simp only [readTime,parsed,Option.some.injEq,forall_eq',Except.isOk,Except.toBool,
        Bool.false_eq_true,and_false,iff_false]
      split
      · rintro rfl
        simp_all
      · simp

theorem readSchedule_faults_eq_nil_iff (parsers : DateParsers) (schedule : Option ScheduleNode)
    (faults : List String) : (readSchedule parsers schedule faults).2 = [] ↔
      faults = [] ∧ ∀ node, schedule = some node →
        (Schedule.fromAst parsers node.kind).isOk = true := by
  cases schedule with
  | none => simp [readSchedule]
  | some node =>
    cases built : Schedule.fromAst parsers node.kind with
    | ok => simp [readSchedule,built,Except.isOk,Except.toBool]
    | error => cases faults <;> simp [readSchedule,built,Except.isOk,Except.toBool]

theorem loadJobs_faultOnRecord (keysUnique : (jobs.map JobConfig.key).Nodup)
    (fresh : ∀ job ∈ jobs, before.calendarFaults job.key = none)
    (loads : loadJobs parsers parseZone file now jobs before = .ok after) {job : JobConfig}
    (member : job ∈ jobs) :
    ∃ astJob, file.astJobs.find? (·.key.raw = job.key) = some astJob ∧
      after.calendarFaults job.key = faultOnRecord
        ((file.calendars.resolve job.calendar).2.toList ++ timeFaults parsers astJob job) := by
  obtain ⟨astJob,spec,reasons,found,loaded,-,recorded⟩ :=
    (loadJobs_entry keysUnique fresh loads).2 job member
  exact ⟨astJob,found,by rw [recorded,(loadJob_spec loaded).2.2.2]⟩

end Croniq

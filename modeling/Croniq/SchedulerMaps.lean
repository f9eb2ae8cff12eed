import Croniq.FireHistory
import Croniq.KeyedFolds
import Croniq.LoadAgreement
import Croniq.StoredTriggers

/-!
# The maps the scheduler runs on

Three loops put the jobs of the store beside those of the Croniqfile: one when
the server starts, one when it reloads the file, and one that mirrors a single
job after the API has changed its rows.
-/

namespace Croniq.Config

open Function KeyedFolds List TriggerDefinition

/-- The rows of the store, the triggers by creation. -/
structure StoredRows where
  triggers : List TriggerDefinition
  jobs : String → Option JobDefinition
  calendars : List CalendarDefinition
  (adoptedJobs adoptedCalendars : List String)

open StoredRows

/-- The Croniqfile as shared: without what the API has adopted. -/
structure FileView where
  jobs : List JobConfig
  calendars : List CalendarConfig
  strictCalendars : Bool

def Croniqfile.view (host : Host) (ast : Croniqfile) (rows : StoredRows) : FileView where
  jobs := (compile host ast).jobs.filter fun job => !rows.adoptedJobs.contains job.key
  calendars := (compile host ast).calendars.filter fun calendar =>
    !rows.adoptedCalendars.contains calendar.name
  strictCalendars := (compile host ast).policy.strictCalendars

def FileView.isDslManaged (view : FileView) (key : String) : Bool :=
  view.jobs.any (·.key = key)

def TriggerDefinition.usable (row : TriggerDefinition) : Bool :=
  row.managedBy ≠ .dsl && row.enabled

/-- A job without a row of its own is active. -/
def markedInactive (job : Option JobDefinition) : Bool :=
  job.any fun job => !job.isActive

/-! ### Starting and reloading -/

structure SchedulerMaps where
  triggers : String → Option Trigger
  jobs : List JobConfig
  faults : String → Option String

def SchedulerMaps.insert (maps : SchedulerMaps) (config : JobConfig) (built : BuiltTrigger) :
    SchedulerMaps where
  triggers := update maps.triggers config.key (some built.trigger)
  jobs := maps.jobs ++ [config]
  faults :=
    match built.configFault with
    | some reason => update maps.faults config.key (some reason)
    | none => maps.faults

section

variable (platform : Platform) (view : FileView) (rows : StoredRows) (now : Int)

def resolvedCalendars (stored : List CalendarDefinition) : ResolvedCalendars :=
  resolveAllCalendars platform view.calendars stored view.strictCalendars

/-- One row of the loop of a start and a reload, which differ in the rows they pass over. -/
def restoreRow (passesOver : SchedulerMaps → String → Bool) (maps : SchedulerMaps)
    (row : TriggerDefinition) : SchedulerMaps :=
  if !row.usable || passesOver maps row.jobKey || markedInactive (rows.jobs row.jobKey) then maps
  else
    match triggerFromDefinition platform (resolvedCalendars platform view rows.calendars) row
        now with
    | some built => maps.insert (jobConfigFromDefinition platform row (rows.jobs row.jobKey)) built
    | none => maps

variable (loaded : LoadedConfig)

/-- The jobs of the file, without those adopted. -/
def fileTriggers (key : String) : Option Trigger :=
  if rows.adoptedJobs.contains key then none else loaded.triggers key

/-- A start passes over the rows of a job that has a trigger. -/
def bootMaps : SchedulerMaps :=
  rows.triggers.foldl
    (restoreRow platform view rows now fun maps key => (maps.triggers key).isSome)
    { triggers := fileTriggers rows loaded, jobs := view.jobs, faults := loaded.calendarFaults }

/-- A reload passes over the rows of a job of the file. -/
def buildPlan : SchedulerMaps :=
  let merged := rows.triggers.foldl
    (restoreRow platform view rows now fun _ key => view.isDslManaged key)
    { triggers := fileTriggers rows loaded, jobs := view.jobs, faults := fun _ => none }
  { merged with
    faults := fun key => (merged.faults key).or
      (if (merged.triggers key).isSome then loaded.calendarFaults key else none) }

end

/-! ### Mirroring one job -/

/-- What the reads of a sync answer; one that fails answers nothing. -/
structure SyncReads where
  jobDefinition : Option (Option JobDefinition)
  triggers : Option (List TriggerDefinition)
  calendars : Option (List CalendarDefinition)

structure Known where
  edited : Option TriggerDefinition := none
  calendars : Option ResolvedCalendars := none

inductive SyncOutcome where
  | leaveAlone
  | removeJob
  | addJob (job : JobConfig) (built : BuiltTrigger)

section

variable (platform : Platform) (view : FileView) (now : Int)

/-- The row to mirror: the one written, or the first usable one. -/
def Known.triggerDefinition (known : Known) (reads : SyncReads) : Option TriggerDefinition :=
  match known.edited with
  | some edited => if edited.usable then some edited else none
  | none => (reads.triggers.getD []).find? usable

/-- What a job should be, from its rows.  A read that fails reads as no rows. -/
def syncJobWith (reads : SyncReads) (known : Known) (key : String) : SyncOutcome :=
  if view.isDslManaged key then .leaveAlone
  else
    let jobDefinition := reads.jobDefinition.getD none
    if markedInactive jobDefinition then .removeJob
    else
      match known.triggerDefinition reads with
      | none => .removeJob
      | some row =>
        let calendars := known.calendars.getD
          (resolvedCalendars platform view (reads.calendars.getD []))
        match triggerFromDefinition platform calendars row now with
        | none => .removeJob
        | some built => .addJob (jobConfigFromDefinition platform row jobDefinition) built

end

inductive SchedulerCommand where
  | addJob (job : JobConfig) (trigger : Trigger)
  | removeJob (jobKey : String)

def SchedulerCommand.jobKey : SchedulerCommand → String
  | .addJob job _ => job.key
  | .removeJob jobKey => jobKey

def SyncOutcome.command (key : String) : SyncOutcome → Option SchedulerCommand
  | .leaveAlone => none
  | .removeJob => some (.removeJob key)
  | .addJob job built => some (.addJob job built.trigger)

structure RunningScheduler where
  triggers : String → Option Trigger
  jobs : String → Option JobConfig

open RunningScheduler

namespace RunningScheduler

/-- A later configuration of a key replaces an earlier one. -/
def new (triggers : String → Option Trigger) (jobs : List JobConfig) : RunningScheduler where
  triggers := triggers
  jobs := fun key => (jobs.filter (·.key = key)).getLast?

/-- A job that is there already is rebuilt. -/
def applyCommand (running : RunningScheduler) (now : Int) : SchedulerCommand → RunningScheduler
  | .addJob job trigger =>
    { triggers := update running.triggers job.key
        (some (rebuiltTrigger (running.triggers job.key) trigger now))
      jobs := update running.jobs job.key (some job) }
  | .removeJob jobKey =>
    { triggers := update running.triggers jobKey none
      jobs := update running.jobs jobKey none }

end RunningScheduler

def StoredRows.reads (rows : StoredRows) (key : String) : SyncReads where
  jobDefinition := some (rows.jobs key)
  triggers := some (rows.triggers.filter (·.jobKey = key))
  calendars := some rows.calendars

def syncJob (platform : Platform) (view : FileView) (rows : StoredRows) (now : Int)
    (running : RunningScheduler) (key : String) : RunningScheduler :=
  ((syncJobWith platform view now (rows.reads key) {} key).command key).elim running
    (running.applyCommand now)

/-- Mirror job after job over the jobs of the file. -/
def mirrored (platform : Platform) (view : FileView) (rows : StoredRows) (now : Int)
    (loaded : LoadedConfig) (keys : List String) : RunningScheduler :=
  keys.foldl (syncJob platform view rows now)
    (.new (fileTriggers rows loaded) view.jobs)

/-! ### What the maps hold at a key -/

def SchedulerMaps.entry (maps : SchedulerMaps) (key : String) : Option Trigger × List JobConfig :=
  (maps.triggers key, maps.jobs.filter (·.key = key))

def RunningScheduler.entry (running : RunningScheduler) (key : String) :
    Option Trigger × List JobConfig :=
  (running.triggers key, (running.jobs key).toList)

theorem RunningScheduler.configured_of_entry {running : RunningScheduler} {key : String}
    {made : Option (Trigger × JobConfig)}
    (isEntry : running.entry key = (made.map Prod.fst, (made.map Prod.snd).toList)) :
    (running.jobs key).isSome = (running.triggers key).isSome := by
  obtain ⟨triggers,jobs⟩ := Prod.mk.inj isEntry
  rw [triggers]
  cases made <;> cases found : running.jobs key <;> simp [found] at jobs ⊢

/-- The usable rows of a job, by creation. -/
def StoredRows.usableRows (rows : StoredRows) (key : String) : List TriggerDefinition :=
  (rows.triggers.filter (·.jobKey = key)).filter usable

theorem StoredRows.mem_usableRows {rows : StoredRows} {key : String} {row : TriggerDefinition} :
    row ∈ rows.usableRows key ↔ row ∈ rows.triggers ∧ row.jobKey = key ∧ row.usable = true := by
  simp [usableRows,and_comm]

section Entries

variable (platform : Platform) (view : FileView) (rows : StoredRows) (now : Int)

/-- The trigger and the configuration of a usable row. -/
def madeFrom (row : TriggerDefinition) : Option (Trigger × JobConfig) :=
  if markedInactive (rows.jobs row.jobKey) then none
  else
    (triggerFromDefinition platform (resolvedCalendars platform view rows.calendars) row now).map
      fun built => (built.trigger, jobConfigFromDefinition platform row (rows.jobs row.jobKey))

section

variable (passesOver : SchedulerMaps → String → Bool)

theorem entry_restoreRow_self (maps : SchedulerMaps) (row : TriggerDefinition) :
    (restoreRow platform view rows now passesOver maps row).entry row.jobKey =
      if row.usable && !passesOver maps row.jobKey then
        keepLast (madeFrom platform view rows now) (maps.entry row.jobKey) row
      else maps.entry row.jobKey := by
  unfold restoreRow keepLast madeFrom
  cases row.usable with
  | false => rfl
  | true =>
    cases passesOver maps row.jobKey with
    | true => rfl
    | false =>
      cases markedInactive (rows.jobs row.jobKey) with
      | true => rfl
      | false =>
        cases triggerFromDefinition platform
          (resolvedCalendars platform view rows.calendars) row now with
        | none => rfl
        | some => simp [SchedulerMaps.insert,SchedulerMaps.entry,jobConfigFromDefinition]

theorem entry_restoreRow_of_ne
    (maps : SchedulerMaps) (row : TriggerDefinition) (key : String) (isOther : key ≠ row.jobKey) :
    (restoreRow platform view rows now passesOver maps row).entry key = maps.entry key := by
  unfold restoreRow
  split
  · rfl
  · split
    · simp [SchedulerMaps.insert,SchedulerMaps.entry,jobConfigFromDefinition,isOther,isOther.symm]
    · rfl

end

variable (loaded : LoadedConfig)

theorem entry_bootMaps (key : String) :
    (bootMaps platform view rows now loaded).entry key =
      (rows.usableRows key).foldl (keepFirst (madeFrom platform view rows now))
        (fileTriggers rows loaded key, view.jobs.filter (·.key = key)) := by
  unfold bootMaps usableRows
  rw [foldl_filter]
  refine entry_foldl ?_ (entry_restoreRow_of_ne platform view rows now _) _ _ key
  intro maps row
  rw [entry_restoreRow_self]
  unfold keepFirst keepLast SchedulerMaps.entry
  cases row.usable <;> cases maps.triggers row.jobKey <;>
    cases madeFrom platform view rows now row <;> rfl

/-- A reload leaves the jobs of the file; of another job it keeps the last row, and a configuration
for each. -/
theorem entry_buildPlan (key : String) :
    (buildPlan platform view rows now loaded).entry key =
      if view.isDslManaged key then
        (fileTriggers rows loaded key, view.jobs.filter (·.key = key))
      else
        (rows.usableRows key).foldl (keepLast (madeFrom platform view rows now))
          (fileTriggers rows loaded key, view.jobs.filter (·.key = key)) := by
  have keyByKey : (buildPlan platform view rows now loaded).entry key =
      (rows.triggers.filter (·.jobKey = key)).foldl
        (fun entry row => if row.usable && !view.isDslManaged row.jobKey then
          keepLast (madeFrom platform view rows now) entry row else entry)
        (fileTriggers rows loaded key, view.jobs.filter (·.key = key)) :=
    entry_foldl (fun maps row => entry_restoreRow_self platform view rows now _ maps row)
      (entry_restoreRow_of_ne platform view rows now _) _ _ key
  have sameKey : ∀ row ∈ rows.triggers.filter (·.jobKey = key), row.jobKey = key := by simp
  rw [keyByKey]
  split
  next inFile =>
    rw [foldl_ext _ (fun entry _ => entry) _ fun entry row member => by
      simp [sameKey row member,inFile]]
    exact foldl_fixed _
  next notInFile =>
    rw [usableRows,foldl_filter (p := usable)]
    refine foldl_ext _ _ _ fun entry row member => ?_
    simp [sameKey row member,notInFile]

theorem syncJobWith_reads (key : String) :
    syncJobWith platform view now (rows.reads key) {} key =
      if view.isDslManaged key then .leaveAlone
      else if markedInactive (rows.jobs key) then .removeJob
      else
        match (rows.usableRows key).head? with
        | none => .removeJob
        | some row =>
          match triggerFromDefinition platform (resolvedCalendars platform view rows.calendars)
              row now with
          | none => .removeJob
          | some built => .addJob (jobConfigFromDefinition platform row (rows.jobs key)) built := by
  rw [usableRows,head?_filter]
  rfl

/-- A sync leaves the jobs of the file, and mirrors the first usable row of another job. -/
def syncEntry (entry : Option Trigger × List JobConfig) (key : String) :
    Option Trigger × List JobConfig :=
  if view.isDslManaged key then entry
  else
    match (rows.usableRows key).head?.bind (madeFrom platform view rows now) with
    | none => (none, [])
    | some (trigger, config) => (some (rebuiltTrigger entry.1 trigger now), [config])

theorem entry_syncJob_self (running : RunningScheduler) (key : String) :
    (syncJob platform view rows now running key).entry key =
      syncEntry platform view rows now (running.entry key) key := by
  have removed : (running.applyCommand now (.removeJob key)).entry key = (none, []) := by
    simp [applyCommand,entry]
  rw [syncJob,syncJobWith_reads,syncEntry]
  split
  · rfl
  cases first : (rows.usableRows key).head? with
  | none => split <;> exact removed
  | some row =>
    have sameKey : row.jobKey = key := (mem_usableRows.mp (mem_of_mem_head? first)).2.1
    subst sameKey
    rw [Option.bind_some,madeFrom]
    split
    · exact removed
    dsimp only
    cases triggerFromDefinition platform
      (resolvedCalendars platform view rows.calendars) row now with
    | none => exact removed
    | some built => simp [SyncOutcome.command,applyCommand,entry]

variable {command : SchedulerCommand} {key : String}

theorem RunningScheduler.entry_applyCommand_of_ne (running : RunningScheduler)
    (isOther : key ≠ command.jobKey) :
    (running.applyCommand now command).entry key = running.entry key := by
  cases command with
  | addJob job trigger | removeJob =>
    simp only [SchedulerCommand.jobKey] at isOther
    simp [applyCommand,entry,isOther]

theorem jobKey_of_syncJobWith_reads
    (sent : (syncJobWith platform view now (rows.reads key) {} key).command key = some command) :
    command.jobKey = key := by
  rw [syncJobWith_reads] at sent
  split at sent
  · cases sent
  split at sent
  · cases sent
    rfl
  split at sent
  · cases sent
    rfl
  next row first =>
    split at sent
    · cases sent
      rfl
    · cases sent
      exact (mem_usableRows.mp (mem_of_mem_head? first)).2.1

theorem entry_syncJob_of_ne (running : RunningScheduler) (visited key : String)
    (isOther : key ≠ visited) :
    (syncJob platform view rows now running visited).entry key = running.entry key := by
  unfold syncJob
  cases sent : (syncJobWith platform view now (rows.reads visited) {} visited).command visited with
  | none => rfl
  | some =>
    refine running.entry_applyCommand_of_ne now ?_
    rwa [jobKey_of_syncJobWith_reads platform view rows now sent]

variable {platform view rows now}

theorem entry_mirrored {keys : List String} (distinct : keys.Nodup)
    (key : String) : (mirrored platform view rows now loaded keys).entry key =
      let start := (fileTriggers rows loaded key,
        (view.jobs.filter (·.key = key)).getLast?.toList)
      if key ∈ keys then syncEntry platform view rows now start key else start :=
  entry_foldl_of_nodup (entry_syncJob_self platform view rows now)
    (entry_syncJob_of_ne platform view rows now) distinct _ key

end Entries

/-! ### The part of the file -/

section

variable {platform : Platform} {ast : Croniqfile} {rows : StoredRows} {now : Int}
  {loaded : LoadedConfig} {key : String}

theorem Croniqfile.isDslManaged_view : (ast.view platform.host rows).isDslManaged key = true ↔
      key ∉ rows.adoptedJobs ∧ key ∈ (compile platform.host ast).jobs.map JobConfig.key := by
  simp only [FileView.isDslManaged,Croniqfile.view,any_eq_true,mem_filter,
    mem_map,decide_eq_true_eq,Bool.not_eq_true',contains_eq_mem,decide_eq_false_iff_not]
  constructor
  · rintro ⟨config,⟨member,own⟩,rfl⟩
    exact ⟨own,config,member,rfl⟩
  · rintro ⟨own,config,member,rfl⟩
    exact ⟨config,⟨member,own⟩,rfl⟩

variable (loads : ast.load platform.host platform.dayNumber platform.parsers platform.parseZone
  now = .ok loaded)
include loads

theorem file_entry_of_managed (inFile : (ast.view platform.host rows).isDslManaged key = true) :
    ∃ spec config, fileTriggers rows loaded key = some (spec.build now) ∧
      (ast.view platform.host rows).jobs.filter (·.key = key) = [config] ∧
      ∃ astJob reasons, loadJob platform.parsers platform.parseZone
        (ast.compiledFile platform.host platform.dayNumber platform.parsers
          platform.parseZone).calendars astJob config = .ok (spec, reasons) := by
  obtain ⟨own,isKey⟩ := Croniqfile.isDslManaged_view.mp inFile
  obtain ⟨config,member,rfl⟩ := mem_map.mp isKey
  have unique := keys_nodup_of_load loads
  obtain ⟨astJob,spec,reasons,-,loadsJob,built,-⟩ :=
    (loadJobs_entry unique (fun _ _ => rfl) (loadJobs_of_load loads)).2 config
      member
  refine ⟨spec,config,?_,?_,astJob,reasons,loadsJob⟩
  · rw [fileTriggers,if_neg (by simpa using own)]
    exact built
  · refine filter_eq_singleton ?_ (mem_filter.mpr ⟨member,by simpa using own⟩)
    exact unique.sublist (filter_sublist.map _)

theorem file_entry_of_not_managed
    (notInFile : (ast.view platform.host rows).isDslManaged key = false) :
    fileTriggers rows loaded key = none ∧
      (ast.view platform.host rows).jobs.filter (·.key = key) = [] := by
  constructor
  · unfold fileTriggers
    split
    · rfl
    next own =>
      have notCompiled : key ∉
          (ast.compiledFile platform.host platform.dayNumber platform.parsers
            platform.parseZone).jobs.map JobConfig.key := by
        intro compiled
        apply Bool.eq_false_iff.mp notInFile
        refine Croniqfile.isDslManaged_view.mpr ⟨by simpa using own,?_⟩
        exact compiled
      exact ((loadJobs_entry (keys_nodup_of_load loads) (fun _ _ => rfl)
        (loadJobs_of_load loads)).1 key notCompiled).1
  · rw [filter_eq_nil_iff]
    intro config member isKey
    apply Bool.eq_false_iff.mp notInFile
    exact any_eq_true.mpr ⟨config,member,isKey⟩

end

/-! ### Agreement -/

/-- The three ways in give one map: the same trigger at every key, and for a key that
has one the same single configuration. -/
structure OneSchedule (boot plan : SchedulerMaps) (mirror : RunningScheduler) : Prop where
  booted : ∀ key, boot.entry key = mirror.entry key
  planned : ∀ key, plan.entry key = mirror.entry key
  configured : ∀ key, (mirror.jobs key).isSome = (mirror.triggers key).isSome

/-- Of the usable rows of an active job that is not the file's, only the first may
read. -/
def StoredRows.OnlyFirstReads (rows : StoredRows) (parsers : DateParsers) (view : FileView) :
    Prop :=
  ∀ key, view.isDslManaged key = false → markedInactive (rows.jobs key) = false →
    ∀ row ∈ (rows.usableRows key).tail, row.schedule? parsers = none

theorem madeFrom_eq_none_iff {platform : Platform} {view : FileView} {rows : StoredRows}
    {now : Int} {row : TriggerDefinition} :
    madeFrom platform view rows now row = none ↔
      (markedInactive (rows.jobs row.jobKey) = false → row.schedule? platform.parsers = none) := by
  unfold madeFrom triggerFromDefinition
  cases markedInactive (rows.jobs row.jobKey) <;> simp

section

variable {platform : Platform} {ast : Croniqfile} {rows : StoredRows} {now : Int}
  {loaded : LoadedConfig} {keys : List String}
  (loads : ast.load platform.host platform.dayNumber platform.parsers platform.parseZone
    now = .ok loaded)
  (distinct : keys.Nodup)
include loads distinct

theorem entries_of_managed {key : String}
    (inFile : (ast.view platform.host rows).isDslManaged key = true) :
    ∃ trigger config,
      (bootMaps platform (ast.view platform.host rows) rows now loaded).entry key =
          (some trigger, [config]) ∧
        (buildPlan platform (ast.view platform.host rows) rows now loaded).entry key =
          (some trigger, [config]) ∧
        (mirrored platform (ast.view platform.host rows) rows now loaded keys).entry key =
          (some trigger, [config]) := by
  obtain ⟨spec,config,isTrigger,isConfig,-⟩ := file_entry_of_managed loads inFile
  refine ⟨spec.build now,config,?_,?_,?_⟩
  · rw [entry_bootMaps,isTrigger,isConfig]
    exact foldl_keepFirst_of_some _ _ _
  · rw [entry_buildPlan,if_pos inFile,isTrigger,isConfig]
  · rw [entry_mirrored loaded distinct]
    simp [syncEntry,inFile,isTrigger,isConfig]

section

variable (every : ∀ row ∈ rows.triggers, row.managedBy ≠ .dsl → row.jobKey ∈ keys)
include every

/-- For another job each map follows its own rule over the usable rows. -/
theorem entries_of_not_managed {key : String}
    (notInFile : (ast.view platform.host rows).isDslManaged key = false) :
    let made := madeFrom platform (ast.view platform.host rows) rows now
    (bootMaps platform (ast.view platform.host rows) rows now loaded).entry key =
        (rows.usableRows key).foldl (keepFirst made) (none, []) ∧
      (buildPlan platform (ast.view platform.host rows) rows now loaded).entry key =
        (rows.usableRows key).foldl (keepLast made) (none, []) ∧
      (mirrored platform (ast.view platform.host rows) rows now loaded keys).entry key =
        (((rows.usableRows key).head?.bind made).map Prod.fst,
          (((rows.usableRows key).head?.bind made).map Prod.snd).toList) := by
  obtain ⟨noTrigger,noConfig⟩ := file_entry_of_not_managed loads notInFile
  refine ⟨?_,?_,?_⟩
  · rw [entry_bootMaps,noTrigger,noConfig]
  · rw [entry_buildPlan,notInFile,noTrigger,noConfig]
    rfl
  · rw [entry_mirrored loaded distinct]
    simp only [noTrigger,noConfig,syncEntry,notInFile]
    split
    · cases (rows.usableRows key).head?.bind _ <;> rfl
    next notMirrored =>
      have noRows : rows.usableRows key = [] := by
        rw [eq_nil_iff_forall_not_mem]
        intro row member
        obtain ⟨stored,rfl,usable⟩ := mem_usableRows.mp member
        refine notMirrored (every row stored ?_)
        simp only [TriggerDefinition.usable,Bool.and_eq_true,decide_eq_true_eq] at usable
        exact usable.1
      rw [noRows]
      rfl

theorem onlyFirstReads_of_oneSchedule
    (one : OneSchedule (bootMaps platform (ast.view platform.host rows) rows now loaded)
      (buildPlan platform (ast.view platform.host rows) rows now loaded)
      (mirrored platform (ast.view platform.host rows) rows now loaded keys)) :
    rows.OnlyFirstReads platform.parsers (ast.view platform.host rows) := by
  intro key notInFile active row member
  obtain ⟨boots,plans,mirrors⟩ := entries_of_not_managed loads distinct every notInFile
  have booted := one.booted key
  have planned := one.planned key
  rw [boots,mirrors] at booted
  rw [plans,mirrors] at planned
  have silent := (kept_agree_iff _).mp ⟨booted,planned⟩ row member
  have sameKey := (mem_usableRows.mp (mem_of_mem_tail member)).2.1
  exact madeFrom_eq_none_iff.mp silent (sameKey ▸ active)

/-- The maps of a start, of a reload and of a mirroring server are one map, with one configuration
for each job, just when no row of a job but the first usable one reads. -/
theorem one_schedule_iff :
    OneSchedule (bootMaps platform (ast.view platform.host rows) rows now loaded)
        (buildPlan platform (ast.view platform.host rows) rows now loaded)
        (mirrored platform (ast.view platform.host rows) rows now loaded keys) ↔
      rows.OnlyFirstReads platform.parsers (ast.view platform.host rows) := by
  constructor
  · exact onlyFirstReads_of_oneSchedule loads distinct every
  · intro only
    have agree : ∀ key,
        (bootMaps platform (ast.view platform.host rows) rows now loaded).entry key =
            (mirrored platform (ast.view platform.host rows) rows now loaded keys).entry key ∧
          (buildPlan platform (ast.view platform.host rows) rows now loaded).entry key =
            (mirrored platform (ast.view platform.host rows) rows now loaded keys).entry key := by
      intro key
      cases inFile : (ast.view platform.host rows).isDslManaged key with
      | true =>
        obtain ⟨trigger,config,boots,plans,mirrors⟩ := entries_of_managed loads distinct inFile
        exact ⟨boots.trans mirrors.symm,plans.trans mirrors.symm⟩
      | false =>
        obtain ⟨boots,plans,mirrors⟩ := entries_of_not_managed loads distinct every inFile
        rw [boots,plans,mirrors]
        refine (kept_agree_iff _).mpr fun row member => madeFrom_eq_none_iff.mpr fun active => ?_
        have sameKey := (mem_usableRows.mp (mem_of_mem_tail member)).2.1
        exact only key inFile (sameKey ▸ active) row member
    refine ⟨fun key => (agree key).1,fun key => (agree key).2,fun key => ?_⟩
    cases inFile : (ast.view platform.host rows).isDslManaged key with
    | true =>
      obtain ⟨trigger,config,-,-,mirrors⟩ := entries_of_managed loads distinct inFile
      have made : (mirrored platform (ast.view platform.host rows) rows now loaded keys).entry
          key = ((some (trigger, config)).map Prod.fst,
            ((some (trigger, config)).map Prod.snd).toList) := mirrors
      exact configured_of_entry made
    | false =>
      obtain ⟨-,-,mirrors⟩ := entries_of_not_managed loads distinct every inFile
      exact configured_of_entry mirrors

end

end

/-- A platform without variables, files, dates or zones. -/
def quietPlatform : Platform where
  host := quietHost
  dayNumber := fun _ => 0
  parsers := undated
  parseZone := noZone
  rfc3339 := fun _ => ""

def hourlyFile : Croniqfile where
  items := [.job (exampleJob (.interval 1 .hours) [])]

def apiRow (triggerId expression : String) (enabled : Bool) : TriggerDefinition where
  triggerId := triggerId
  jobKey := "reports:sync"
  cronExpression := some expression
  timezone := none
  calendar := none
  window := none
  notBefore := none
  notAfter := none
  enabled := enabled
  managedBy := .api

def rowsOf (triggers : List TriggerDefinition) : StoredRows where
  triggers := triggers
  jobs := fun _ => none
  calendars := []
  adoptedJobs := []
  adoptedCalendars := []

/-- A job of the file, and one of the API with a second, disabled row. -/
theorem one_schedule_iff_enabledOnce :
    let rows := rowsOf [apiRow "first" "5m" true,apiRow "second" "10m" false]
    let view := hourlyFile.view quietHost rows
    ∃ loaded, hourlyFile.load quietHost (fun _ => 0) undated noZone 0 = .ok loaded ∧
      OneSchedule (bootMaps quietPlatform view rows 0 loaded)
        (buildPlan quietPlatform view rows 0 loaded)
        (mirrored quietPlatform view rows 0 loaded ["reports:sync"]) := by
  refine ⟨_,rfl,(one_schedule_iff rfl (by decide) (by decide)).mpr ?_⟩
  intro key notInFile active row member
  by_cases sameKey : "reports:sync" = key
  · subst sameKey
    exact absurd member (by simp [usableRows,usable,rowsOf,apiRow])
  · exact absurd member (by simp [usableRows,rowsOf,apiRow,sameKey])

/-- With two enabled rows a start runs the first schedule, a reload the second. -/
theorem two_schedules :
    let rows := rowsOf [apiRow "first" "5m" true,apiRow "second" "10m" true]
    let view := hourlyFile.view quietHost rows
    ∃ loaded, hourlyFile.load quietHost (fun _ => 0) undated noZone 0 = .ok loaded ∧
      ["reports:sync"].Nodup ∧
      (∀ row ∈ rows.triggers, row.managedBy ≠ .dsl → row.jobKey ∈ ["reports:sync"]) ∧
      ¬ OneSchedule (bootMaps quietPlatform view rows 0 loaded)
        (buildPlan quietPlatform view rows 0 loaded)
        (mirrored quietPlatform view rows 0 loaded ["reports:sync"]) := by
  refine ⟨_,rfl,by decide,by decide,?_⟩
  intro one
  have only := onlyFirstReads_of_oneSchedule rfl (by decide) (by decide) one
  have silent := only "reports:sync" (by decide) rfl (apiRow "second" "10m" true) (by decide)
  exact absurd silent (by decide)

end Croniq.Config

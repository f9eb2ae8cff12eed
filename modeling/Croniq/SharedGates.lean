import Croniq.ConfigFaults
import Croniq.LiveMirror

/-!
# One gate for the jobs that name a calendar

The jobs of the file find their calendar among the calendars of the file, the
jobs of the API among those of the file that were not adopted and those of the
store.
-/

namespace Croniq

open Function List

theorem definition_restoreTriggerStates (triggers : String → Option Trigger)
    (states : Option JobStates) (now : Int) (key : String) :
    (restoreTriggerStates triggers states now key).map Trigger.definition =
      (triggers key).map Trigger.definition := by
  cases states with
  | none => rfl
  | some states =>
    change (states.rows.foldl (restoreFromRow now) triggers key).map Trigger.definition = _
    induction states.rows generalizing triggers with
    | nil => rfl
    | cons row rows ih =>
      rw [foldl_cons,ih,restoreFromRow]
      split
      · simp [comp_def,Trigger.definition_restoreTriggerState]
      · rfl

/-- What new triggers take over from: the rows of a start, or the triggers in memory. -/
inductive Takeover where
  | restart (states : Option JobStates)
  | reload (current : String → Option Trigger)

namespace Takeover

def apply (now : Int) (fresh : String → Option Trigger) : Takeover → String → Option Trigger
  | .restart states, key => restoreTriggerStates fresh states now key
  | .reload current, key => (fresh key).map fun new => rebuiltTrigger (current key) new now

/-- The takeover resumes a trigger that was built paused. -/
def LiftsPause (key : String) (fresh : Trigger) (now : Int) : Takeover → Prop
  | .restart states => ∃ held ∈ states, ∃ jobState ∈ held.rows, jobState.jobKey = key ∧
      RowLiftsPause fresh jobState now ∧ fresh.CanFireFrom now
  | .reload current => ∃ old ∈ current key,
      TakeoverLiftsPause old fresh ∧ fresh.CanFireFrom now

theorem definition_apply (takeover : Takeover) (now : Int) (fresh : String → Option Trigger)
    (key : String) : (takeover.apply now fresh key).map Trigger.definition =
      (fresh key).map Trigger.definition := by
  cases takeover with
  | restart states => exact definition_restoreTriggerStates fresh states now key
  | reload => simp [apply,comp_def,definition_rebuiltTrigger]

theorem silent_iff {takeover : Takeover} {now : Int} {triggers : String → Option Trigger}
    {key : String} {fresh running : Trigger} (isFresh : triggers key = some fresh)
    (paused : fresh.state = .paused) (isRunning : takeover.apply now triggers key = some running) :
    running.Silent ↔ ¬ takeover.LiftsPause key fresh now := by
  cases takeover with
  | restart states =>
    cases states with
    | none =>
      obtain rfl : fresh = running := Option.some.inj (isFresh.symm.trans isRunning)
      simp [LiftsPause,silent_of_paused paused]
    | some states =>
      obtain ⟨restored,isRestored,silent⟩ :=
        restoreTriggerStates_silent_iff isFresh paused states now
      obtain rfl : restored = running := Option.some.inj (isRestored.symm.trans isRunning)
      simpa [LiftsPause] using silent
  | reload current =>
    simp only [apply,isFresh,Option.map_some,Option.some.injEq] at isRunning
    subst isRunning
    cases isOld : current key with
    | none => simp [LiftsPause,isOld,rebuiltTrigger,silent_of_paused paused]
    | some old => simpa [LiftsPause,isOld,rebuiltTrigger] using
        carryOverState_silent_iff paused old now

end Takeover

namespace Config

open KeyedFolds

section

variable (platform : Platform)

def compiledGate (config : CalendarConfig) : Option Calendar :=
  (Calendar.fromConfig platform.host platform.dayNumber platform.parseZone config).toOption

variable (configs : List CalendarConfig)

/-- A calendar of the file takes the place of what had its name, and is missing if it does not
compile. -/
theorem calendars_foldl_resolveCalendar (start : ResolvedCalendars) (name : String) :
    (configs.foldl (resolveCalendar platform.host platform.dayNumber platform.parseZone)
        start).calendars name =
      (configs.filter (·.name = name)).foldl (fun _ config => compiledGate platform config)
        (start.calendars name) := by
  have own : ∀ (resolved : ResolvedCalendars) (config : CalendarConfig),
      (resolveCalendar platform.host platform.dayNumber platform.parseZone resolved
        config).calendars config.name = compiledGate platform config := by
    intro resolved config
    unfold resolveCalendar compiledGate
    split <;> simp [*,Except.toOption]
  have others : ∀ (resolved : ResolvedCalendars) (config : CalendarConfig) (other : String),
      other ≠ config.name →
      (resolveCalendar platform.host platform.dayNumber platform.parseZone resolved
        config).calendars other = resolved.calendars other := by
    intro resolved config other isOther
    unfold resolveCalendar
    split <;> exact update_of_ne isOther _ _
  exact entry_foldl own others configs start name

theorem strict_resolveAllCalendars (stored : List CalendarDefinition) (strict : Bool) :
    (resolveAllCalendars platform configs stored strict).strict = strict := by
  refine foldlRecOn (motive := fun resolved : ResolvedCalendars => resolved.strict = strict)
    configs _ ?_ ?_
  · refine foldlRecOn
      (motive := fun resolved : ResolvedCalendars => resolved.strict = strict) stored _ rfl ?_
    intro resolved isStrict definition _
    unfold resolveStoredCalendar
    split
    · exact isStrict
    · split <;> exact isStrict
  · intro resolved isStrict config _
    unfold resolveCalendar
    split <;> exact isStrict

variable (ast : Croniqfile) (rows : StoredRows)

/-- The calendars as the jobs of the file find them. -/
def fileCalendars : ResolvedCalendars :=
  resolveAllCalendars platform (compile platform.host ast).calendars []
    (compile platform.host ast).policy.strictCalendars

def storeCalendars : ResolvedCalendars :=
  resolveAllCalendars platform [] rows.calendars (compile platform.host ast).policy.strictCalendars

/-- The copy that counts: an adopted calendar belongs to the store. -/
def ownersCopy (name : String) : Option Calendar :=
  if rows.adoptedCalendars.contains name then (storeCalendars platform ast rows).calendars name
  else (fileCalendars platform ast).calendars name

def Declared (name : String) : Prop :=
  name ∈ (compile platform.host ast).calendars.map CalendarConfig.name

variable {platform ast rows}

theorem calendars_resolvedCalendars {name : String} (declared : Declared platform ast name) :
    (resolvedCalendars platform (ast.view platform.host rows) rows.calendars).calendars name =
      ownersCopy platform ast rows name := by
  unfold resolvedCalendars ownersCopy fileCalendars storeCalendars resolveAllCalendars
  rw [calendars_foldl_resolveCalendar]
  have ofView : (ast.view platform.host rows).calendars.filter (·.name = name) =
      if rows.adoptedCalendars.contains name then []
      else (compile platform.host ast).calendars.filter (·.name = name) := by
    unfold Croniqfile.view
    rw [filter_filter]
    split
    next isAdopted =>
      rw [filter_eq_nil_iff]
      rintro config - selected
      simp only [Bool.and_eq_true,decide_eq_true_eq] at selected
      rw [selected.1,isAdopted] at selected
      simp at selected
    next notAdopted =>
      refine filter_congr fun config _ => ?_
      by_cases sameName : config.name = name <;> simp_all
  rw [ofView]
  split
  · rfl
  rw [calendars_foldl_resolveCalendar]
  obtain ⟨config,member,rfl⟩ := mem_map.mp declared
  cases named : (compile platform.host ast).calendars.filter (·.name = config.name) with
  | nil =>
    have absent := filter_eq_nil_iff.mp named config member
    simp at absent
  | cons => rfl

theorem resolve_some (resolved : ResolvedCalendars) {name : String} (isName : name ≠ "") :
    (resolved.resolve (some name)).1 = resolved.calendars name ∧
      (resolved.strict = true → resolved.calendars name = none →
        (resolved.resolve (some name)).2.isSome) := by
  unfold ResolvedCalendars.resolve
  simp only [isName,if_false]
  cases resolved.calendars name with
  | some => simp
  | none => simp +contextual

end

/-- The job names a calendar that the file declares. -/
structure JobConfig.Names (platform : Platform) (ast : Croniqfile) (config : JobConfig)
    (name : String) : Prop where
  named : config.calendar = some name
  isName : name ≠ ""
  declared : Declared platform ast name

/-- The gate is the given one; a job without it is paused under the strict policy. -/
def GatedBy (strict : Bool) (gate : Option Calendar) (trigger : Trigger) : Prop :=
  trigger.calendar = gate ∧ (strict = true → gate = none → trigger.state = .paused)

theorem gatedBy_build {resolved : ResolvedCalendars} {spec : TriggerSpec} {name : String}
    (isName : name ≠ "") (calendar : spec.calendar = (resolved.resolve (some name)).1)
    (faulted : (resolved.resolve (some name)).2.isSome → spec.faulted = true) (now : Int) :
    GatedBy resolved.strict (resolved.calendars name) (spec.build now) := by
  obtain ⟨gate,fault⟩ := resolve_some resolved isName
  refine ⟨?_,fun isStrict noGate => ?_⟩
  · rw [← gate,← calendar]
    unfold TriggerSpec.build
    split <;> rfl
  · exact TriggerSpec.build_paused (faulted (fault isStrict noGate)) now

section

variable (platform : Platform) (ast : Croniqfile) (rows : StoredRows) (now : Int)
  (loaded : LoadedConfig)

def freshMaps : Takeover → SchedulerMaps
  | .restart _ => bootMaps platform (ast.view platform.host rows) rows now loaded
  | .reload _ => buildPlan platform (ast.view platform.host rows) rows now loaded

variable {platform ast rows now loaded} {takeover : Takeover} {key : String}
  (loads : ast.load platform.host platform.dayNumber platform.parsers platform.parseZone
    now = .ok loaded)
include loads

theorem entry_freshMaps_of_managed
    (inFile : (ast.view platform.host rows).isDslManaged key = true) :
    (freshMaps platform ast rows now loaded takeover).entry key =
      (fileTriggers rows loaded key,
        (ast.view platform.host rows).jobs.filter (·.key = key)) := by
  obtain ⟨spec,config,isTrigger,isConfig,-⟩ := file_entry_of_managed loads inFile
  cases takeover with
  | restart =>
    rw [freshMaps,entry_bootMaps,isTrigger,isConfig]
    exact foldl_keepFirst_of_some _ _ _
  | reload => rw [freshMaps,entry_buildPlan,if_pos inFile]

variable {fresh : Trigger} {config : JobConfig} {name : String}

theorem file_gatedBy (inFile : (ast.view platform.host rows).isDslManaged key = true) :
    ∃ fresh config, fileTriggers rows loaded key = some fresh ∧
      (ast.view platform.host rows).jobs.filter (·.key = key) = [config] ∧
      ∀ name, config.Names platform ast name →
        GatedBy (compile platform.host ast).policy.strictCalendars
          ((fileCalendars platform ast).calendars name) fresh := by
  obtain ⟨spec,config,isTrigger,isConfig,astJob,reasons,loadsJob⟩ :=
    file_entry_of_managed loads inFile
  refine ⟨spec.build now,config,isTrigger,isConfig,fun name names => ?_⟩
  obtain ⟨-,faulted,calendar,rfl⟩ := loadJob_spec loadsJob
  have isNamed : config.calendar = some name := names.named
  rw [isNamed] at calendar faulted
  have isStrict : (fileCalendars platform ast).strict = _ :=
    strict_resolveAllCalendars platform _ _ _
  rw [← isStrict]
  refine gatedBy_build names.isName calendar (fun isFault => ?_) now
  obtain ⟨reason,isReason⟩ := Option.isSome_iff_exists.mp isFault
  exact faulted.trans (by rw [show _ = some reason from isReason]; rfl)

omit loads in
theorem api_gatedBy {row : TriggerDefinition} (names : config.Names platform ast name)
    (made : madeFrom platform (ast.view platform.host rows) rows now row = some (fresh, config)) :
    GatedBy (compile platform.host ast).policy.strictCalendars
      (ownersCopy platform ast rows name) fresh := by
  unfold madeFrom at made
  split at made
  · cases made
  obtain ⟨built,builds,isMade⟩ := Option.map_eq_some_iff.mp made
  obtain ⟨schedule,-,rfl⟩ := Option.map_eq_some_iff.mp builds
  obtain ⟨rfl,rfl⟩ := Prod.mk.inj isMade
  have isNamed : row.calendar = some name := names.named
  have isStrict : (resolvedCalendars platform (ast.view platform.host rows)
      rows.calendars).strict = (compile platform.host ast).policy.strictCalendars :=
    strict_resolveAllCalendars platform _ _ _
  rw [← isStrict,← calendars_resolvedCalendars names.declared]
  refine gatedBy_build names.isName ?_ (fun isFault => ?_) now
  · rw [← isNamed]
    rfl
  · obtain ⟨reason,isReason⟩ := Option.isSome_iff_exists.mp isFault
    simp [specFromDefinition,isNamed,isReason]

/-- A job of the file is gated by the copy of the file, a job of the API by the copy that
counts. -/
theorem fresh_gatedBy
    (isFresh : (freshMaps platform ast rows now loaded takeover).triggers key = some fresh)
    (isConfig : ((freshMaps platform ast rows now loaded takeover).entry key).2.getLast? =
      some config) (names : config.Names platform ast name) :
    ∃ gate, GatedBy (compile platform.host ast).policy.strictCalendars gate fresh ∧
      (gate = ownersCopy platform ast rows name ∨
        config ∈ (ast.view platform.host rows).jobs ∧
          gate = (fileCalendars platform ast).calendars name) := by
  cases inFile : (ast.view platform.host rows).isDslManaged key with
  | true =>
    obtain ⟨own,ownConfig,isTrigger,isOwn,gated⟩ := file_gatedBy loads inFile
    have entry : (freshMaps platform ast rows now loaded takeover).entry key =
        (some own, [ownConfig]) := by
      rw [entry_freshMaps_of_managed loads inFile,isTrigger,isOwn]
    obtain rfl : own = fresh := Option.some.inj ((congrArg Prod.fst entry).symm.trans isFresh)
    obtain rfl : ownConfig = config := by
      rw [entry] at isConfig
      exact Option.some.inj isConfig
    have member : ownConfig ∈ (ast.view platform.host rows).jobs :=
      mem_of_mem_filter (isOwn ▸ mem_singleton_self ownConfig)
    exact ⟨_,gated name names,.inr ⟨member,rfl⟩⟩
  | false =>
    obtain ⟨noTrigger,noConfig⟩ := file_entry_of_not_managed loads inFile
    change ((freshMaps platform ast rows now loaded takeover).entry key).1 = some fresh at isFresh
    cases takeover with
    | restart =>
      rw [freshMaps,entry_bootMaps,noTrigger,noConfig] at isFresh isConfig
      obtain ⟨row,-,made⟩ := exists_made_of_keepFirst isFresh isConfig
      exact ⟨_,api_gatedBy names made,.inl rfl⟩
    | reload =>
      rw [freshMaps,entry_buildPlan,inFile,noTrigger,noConfig] at isFresh isConfig
      obtain ⟨row,-,made⟩ := exists_made_of_keepLast isFresh isConfig
      exact ⟨_,api_gatedBy names made,.inl rfl⟩

end

section

variable (platform : Platform) (ast : Croniqfile) (rows : StoredRows)

/-- Triggers whose jobs name a calendar of the file are gated by the copy that counts, or silent
under the strict policy. -/
def SharesGates (running : String → Option Trigger) (maps : SchedulerMaps) : Prop :=
  ∀ key trigger config name, running key = some trigger →
    (maps.entry key).2.getLast? = some config → config.Names platform ast name →
    trigger.calendar = ownersCopy platform ast rows name ∧
      ((compile platform.host ast).policy.strictCalendars = true →
        ownersCopy platform ast rows name = none → trigger.Silent)

/-- For the adopted calendars that jobs of the file name, the copies of the file and of the store
agree. -/
def CopiesAgree : Prop :=
  ∀ config ∈ (ast.view platform.host rows).jobs, ∀ name, config.Names platform ast name →
    rows.adoptedCalendars.contains name = true →
    (fileCalendars platform ast).calendars name = (storeCalendars platform ast rows).calendars name

/-- The takeover resumes no job whose calendar does not compile. -/
def PausesHold (takeover : Takeover) (maps : SchedulerMaps) (now : Int) : Prop :=
  (compile platform.host ast).policy.strictCalendars = true →
    ∀ key fresh config name, maps.triggers key = some fresh →
      (maps.entry key).2.getLast? = some config → config.Names platform ast name →
      ownersCopy platform ast rows name = none → ¬ takeover.LiftsPause key fresh now

variable {platform ast rows} {now : Int} {loaded : LoadedConfig} {takeover : Takeover}
  (loads : ast.load platform.host platform.dayNumber platform.parsers platform.parseZone
    now = .ok loaded) {triggers : String → Option Trigger}

theorem calendar_of_apply {key : String}
    {running : Trigger} (isRunning : takeover.apply now triggers key = some running) :
    ∃ fresh, triggers key = some fresh ∧ running.calendar = fresh.calendar := by
  have same := takeover.definition_apply now triggers key
  rw [isRunning] at same
  obtain ⟨fresh,isFresh,sameDefinition⟩ := Option.map_eq_some_iff.mp same.symm
  exact ⟨fresh,isFresh,congrArg (·.2.1.calendar) sameDefinition.symm⟩

theorem exists_running (takeover : Takeover) (now : Int)
    {key : String} {fresh : Trigger} (isFresh : triggers key = some fresh) :
    ∃ running, takeover.apply now triggers key = some running := by
  have same := takeover.definition_apply now triggers key
  rw [isFresh] at same
  obtain ⟨running,isRunning,-⟩ := Option.map_eq_some_iff.mp same
  exact ⟨running,isRunning⟩

include loads

theorem copiesAgree_of_sharesGates (shares : SharesGates platform ast rows
      (takeover.apply now (freshMaps platform ast rows now loaded takeover).triggers)
      (freshMaps platform ast rows now loaded takeover)) : CopiesAgree platform ast rows := by
  intro config member name names isAdopted
  have inFile : (ast.view platform.host rows).isDslManaged config.key = true :=
    any_eq_true.mpr ⟨config,member,by simp⟩
  obtain ⟨fresh,own,isTrigger,isOwn,gated⟩ := file_gatedBy loads inFile
  obtain rfl : config = own := by
    have isMember : config ∈ (ast.view platform.host rows).jobs.filter (·.key = config.key) :=
      mem_filter.mpr ⟨member,by simp⟩
    rw [isOwn] at isMember
    exact mem_singleton.mp isMember
  have entry : (freshMaps platform ast rows now loaded takeover).entry config.key =
      (some fresh, [config]) := by
    rw [entry_freshMaps_of_managed loads inFile,isTrigger,isOwn]
  obtain ⟨running,isRunning⟩ := exists_running takeover now (congrArg Prod.fst entry)
  obtain ⟨before,isBefore,sameGate⟩ := calendar_of_apply isRunning
  obtain rfl : before = fresh := Option.some.inj (isBefore.symm.trans (congrArg Prod.fst entry))
  have isOwners := (shares config.key running config name isRunning (by rw [entry]; rfl) names).1
  rw [sameGate,(gated name names).1,ownersCopy,if_pos isAdopted] at isOwners
  exact isOwners

/-- After a start and after a reload the triggers share their gates just when the copies
agree and the pauses hold. -/
theorem shares_gates_iff :
    SharesGates platform ast rows
        (takeover.apply now (freshMaps platform ast rows now loaded takeover).triggers)
        (freshMaps platform ast rows now loaded takeover) ↔
      CopiesAgree platform ast rows ∧
        PausesHold platform ast rows takeover (freshMaps platform ast rows now loaded takeover)
          now := by
  constructor
  · intro shares
    refine ⟨copiesAgree_of_sharesGates loads shares,?_⟩
    intro isStrict key fresh config name isFresh isConfig names noGate
    obtain ⟨running,isRunning⟩ := exists_running takeover now isFresh
    obtain ⟨before,isBefore,sameGate⟩ := calendar_of_apply isRunning
    obtain rfl : before = fresh := Option.some.inj (isBefore.symm.trans isFresh)
    obtain ⟨isGate,silent⟩ := shares key running config name isRunning isConfig names
    obtain ⟨gate,⟨hasGate,paused⟩,-⟩ := fresh_gatedBy loads isFresh isConfig names
    have isPaused := paused isStrict (by rw [← hasGate,← sameGate,isGate,noGate])
    exact (takeover.silent_iff isFresh isPaused isRunning).mp (silent isStrict noGate)
  · rintro ⟨agree,hold⟩ key running config name isRunning isConfig names
    obtain ⟨fresh,isFresh,sameGate⟩ := calendar_of_apply isRunning
    obtain ⟨gate,⟨hasGate,paused⟩,fromCopy⟩ := fresh_gatedBy loads isFresh isConfig names
    obtain rfl : gate = ownersCopy platform ast rows name := by
      obtain isOwners | ⟨member,rfl⟩ := fromCopy
      · exact isOwners
      · unfold ownersCopy
        split
        next isAdopted => exact agree config member name names isAdopted
        next => rfl
    refine ⟨sameGate.trans hasGate,fun isStrict noGate => ?_⟩
    exact (takeover.silent_iff isFresh (paused isStrict noGate) isRunning).mpr
      (hold isStrict key fresh config name isFresh isConfig names noGate)

end

/-- A calendar of Mondays, and an hourly job that names it. -/
def mondayFile : Croniqfile where
  items :=
    [.calendar ⟨wordOf "weekstart",[⟨.include,wordOf "weekly",[wordOf "mon"]⟩]⟩,
     .job
      { exampleJob (.interval 1 .hours) [] with
        schedule := some ⟨.interval 1 .hours,none,[⟨wordOf "calendar",[wordOf "weekstart"]⟩]⟩ }]

/-- A stored copy of the calendar, and a job of the API that names it. -/
def weekstartRows (rules : String) (adopted : List String) : StoredRows where
  triggers := [{ apiRow "first" "5m" true with calendar := some "weekstart" }]
  jobs := fun _ => none
  calendars := [{ name := "weekstart", timezone := none, rules, managedBy := .api }]
  adoptedJobs := []
  adoptedCalendars := adopted

theorem mondayFile_loads :
    ∃ loaded, mondayFile.load quietPlatform.host quietPlatform.dayNumber quietPlatform.parsers
      quietPlatform.parseZone 0 = .ok loaded :=
  ⟨_,rfl⟩

/-- While the calendar is not adopted, the copy of the file gates both jobs. -/
theorem shares_gates_iff_notAdopted :
    let rows := weekstartRows "include weekly tue" []
    ∃ loaded, mondayFile.load quietPlatform.host quietPlatform.dayNumber quietPlatform.parsers
        quietPlatform.parseZone 0 = .ok loaded ∧
      SharesGates quietPlatform mondayFile rows
        ((Takeover.restart none).apply 0
          (freshMaps quietPlatform mondayFile rows 0 loaded (.restart none)).triggers)
        (freshMaps quietPlatform mondayFile rows 0 loaded (.restart none)) := by
  obtain ⟨loaded,loads⟩ := mondayFile_loads
  refine ⟨loaded,loads,(shares_gates_iff loads).mpr ⟨?_,?_⟩⟩
  · rintro config - name - ⟨⟩
  · rintro - key fresh config name - - - - ⟨held,⟨⟩,-⟩

/-- The adopted calendar now admits Tuesdays; the job of the file still runs on Mondays. -/
theorem gates_diverge :
    let rows := weekstartRows "include weekly tue" ["weekstart"]
    ∃ loaded, mondayFile.load quietPlatform.host quietPlatform.dayNumber quietPlatform.parsers
        quietPlatform.parseZone 0 = .ok loaded ∧
      ∀ takeover : Takeover, ¬ SharesGates quietPlatform mondayFile rows
        (takeover.apply 0 (freshMaps quietPlatform mondayFile rows 0 loaded takeover).triggers)
        (freshMaps quietPlatform mondayFile rows 0 loaded takeover) := by
  obtain ⟨loaded,loads⟩ := mondayFile_loads
  refine ⟨loaded,loads,fun takeover shares => ?_⟩
  have agree := copiesAgree_of_sharesGates loads shares
  have same := agree _ mem_cons_self "weekstart"
    ⟨rfl,by decide,mem_singleton_self _⟩ rfl
  exact absurd same (by decide +kernel)

end Config

end Croniq

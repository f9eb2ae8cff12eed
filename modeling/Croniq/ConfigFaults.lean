import Croniq.JobCompile
import Croniq.JobLoader
import Mathlib.Data.List.Nodup

/-!
# Faulted jobs and the pause that holds them

A trigger whose definition is faulted is loaded paused.
-/

namespace Croniq

open Config Trigger

namespace Trigger

/-- The trigger never fires while it is left as it is. -/
def Silent (trigger : Trigger) : Prop :=
  ∀ time, trigger.evaluate time = none

variable {trigger : Trigger} {stored : Int}

theorem silent_of_state_ne_armed (notArmed : trigger.state ≠ .armed) : trigger.Silent := by
  intro time
  simp [evaluate,notArmed]

section

variable (trigger : Trigger)

/-- The next fire from `now` on can be made within the bounds. -/
def CanFireFrom (now : Int) : Prop :=
  ∃ fire, trigger.computeNextFire now = some fire ∧
    ∀ last, trigger.notAfter = some last →
      fire ≤ last ∧ ∀ first, trigger.notBefore = some first → first ≤ last

theorem silent_resume_iff (now : Int) :
    (trigger.resume now).Silent ↔ ¬ trigger.CanFireFrom now := by
  constructor
  · rintro silent ⟨fire,next,inBounds⟩
    have fires : ∃ time, (trigger.resume now).evaluate time = some fire := by
      simp only [evaluate_eq_some,resume,next,Option.isSome_some,if_true,true_and]
      cases upper : trigger.notAfter with
      | some last =>
        obtain ⟨beforeLast,afterFirst⟩ := inBounds last upper
        refine ⟨last,?_,by simp,beforeLast⟩
        cases lower : trigger.notBefore with
        | some first => simpa using afterFirst first lower
        | none => rfl
      | none =>
        cases trigger.notBefore with
        | some first => exact ⟨max fire first,by simp,rfl,by simp⟩
        | none => exact ⟨fire,rfl,rfl,le_rfl⟩
    obtain ⟨time,fires⟩ := fires
    rw [silent time] at fires
    cases fires
  · intro noFire time
    by_contra firesOnce
    obtain ⟨fire,fires⟩ := Option.ne_none_iff_exists'.mp firesOnce
    obtain ⟨-,afterFirst,beforeLast,next,come⟩ := evaluate_eq_some.mp fires
    simp only [resume] at afterFirst beforeLast
    apply noFire
    refine ⟨fire,next,?_⟩
    intro last isLast
    have timeBefore : time ≤ last := by simpa [isLast] using beforeLast
    refine ⟨by omega,?_⟩
    intro first isFirst
    have timeAfter : first ≤ time := by simpa [isFirst] using afterFirst
    omega

/-- A fire is pending that the gates do not admit. -/
def BlocksPending (pending : Option Int) : Prop :=
  trigger.schedule ≠ .disabled ∧ ∃ stored, pending = some stored ∧ trigger.gateAllows stored = false

theorem carryOverPendingFire_state_of_allowed (paused : trigger.state = .paused) (now : Int)
    (admitted : ¬ trigger.BlocksPending (some stored)) :
    (trigger.carryOverPendingFire stored now).1.state = .paused := by
  unfold carryOverPendingFire
  split
  · rfl
  rename_i enabled
  split
  · rename_i closed
    exact absurd ⟨enabled,stored,rfl,by simpa using closed⟩ admitted
  · split <;> exact paused

theorem carryOverPendingFire_of_blocked (now : Int)
    (blocked : trigger.BlocksPending (some stored)) :
    trigger.carryOverPendingFire stored now = (trigger.resume now, .healedGateClosed) := by
  obtain ⟨enabled,gated,isStored,closed⟩ := blocked
  cases isStored
  simp [carryOverPendingFire,enabled,closed]

end

theorem planMissedFires_of_paused (paused : trigger.state = .paused)
    (now : Int) : (trigger.planMissedFires now).1 = trigger := by
  unfold planMissedFires
  split
  · rfl
  · rw [if_pos (by rw [paused]; decide)]

end Trigger

/-- The row of a job makes the restore resume its trigger. -/
def RowLiftsPause (trigger : Trigger) (jobState : JobState) (now : Int) : Prop :=
  trigger.notAfter.any (· < now) = false ∧
    (jobState.status = .exhausted ∧ trigger.schedule.isRecurring = true ∨
      jobState.status = .active ∧ trigger.BlocksPending jobState.nextFireAt)

/-- The trigger in memory makes the takeover resume the new one. -/
def TakeoverLiftsPause (old new : Trigger) : Prop :=
  old.state ≠ .exhausted ∧ new.BlocksPending old.nextFireAt

variable {trigger old new : Trigger} {jobState : JobState} {now : Int}

theorem restoreTriggerState_of_paused (paused : trigger.state = .paused)
    (kept : ¬ RowLiftsPause trigger jobState now) :
    (restoreTriggerState trigger jobState now).1.state = .paused ∨
      (restoreTriggerState trigger jobState now).1.state = .exhausted := by
  unfold restoreTriggerState
  cases status : jobState.status with
  | exhausted =>
    right
    dsimp only
    split
    · rename_i resumes
      rw [Bool.and_eq_true] at resumes
      exact absurd ⟨by simpa using resumes.2,.inl ⟨status,resumes.1⟩⟩ kept
    · rfl
  | active =>
    dsimp only
    split
    · exact .inr rfl
    rename_i notPast
    left
    split
    · exact paused
    rename_i stored pending
    have admitted : ¬ { trigger with fireCount := jobState.fireCount }.BlocksPending
        (some stored) := by
      intro blocked
      exact kept ⟨by simpa using notPast,.inr ⟨status,pending ▸ blocked⟩⟩
    have carriedPaused := carryOverPendingFire_state_of_allowed
      { trigger with fireCount := jobState.fireCount } paused now admitted
    split
    · rw [planMissedFires_of_paused carriedPaused]
      exact carriedPaused
    · exact carriedPaused
  | paused | disabled => exact .inl paused

theorem restoreTriggerState_of_lifted
    (lifted : RowLiftsPause trigger jobState now) : (restoreTriggerState trigger jobState now).1 =
      { trigger with fireCount := jobState.fireCount }.resume now := by
  obtain ⟨notPast,⟨status,recurring⟩ | ⟨status,blocked⟩⟩ := lifted
  · simp [restoreTriggerState,status,recurring,notPast]
  · obtain ⟨stored,pending,-⟩ := blocked.2
    have carried := carryOverPendingFire_of_blocked
      { trigger with fireCount := jobState.fireCount } now (pending ▸ blocked)
    simp [restoreTriggerState,status,notPast,pending,carried]

theorem carryOverState_of_paused (paused : new.state = .paused)
    (kept : ¬ TakeoverLiftsPause old new) (now : Int) :
    (carryOverState old new now).state = .paused ∨
      (carryOverState old new now).state = .exhausted := by
  unfold carryOverState
  dsimp only
  split
  · split
    · exact .inl paused
    · exact .inr rfl
  rename_i running
  left
  split
  · exact paused
  rename_i pending isPending
  have admitted : ¬ { new with fireCount := old.fireCount, lastFiredAt := old.lastFiredAt
      }.BlocksPending (some pending) := by
    intro blocked
    exact kept ⟨running,isPending ▸ blocked⟩
  have carriedPaused := carryOverPendingFire_state_of_allowed
    { new with fireCount := old.fireCount, lastFiredAt := old.lastFiredAt }
    paused now admitted
  split <;> exact carriedPaused

theorem carryOverState_of_lifted (lifted : TakeoverLiftsPause old new) :
    carryOverState old new now =
      { new with fireCount := old.fireCount, lastFiredAt := old.lastFiredAt }.resume now := by
  obtain ⟨running,blocked⟩ := lifted
  obtain ⟨pending,isPending,-⟩ := blocked.2
  have carried := carryOverPendingFire_of_blocked
    { new with fireCount := old.fireCount, lastFiredAt := old.lastFiredAt }
    now (isPending ▸ blocked)
  simp [carryOverState,running,isPending,carried]

theorem TriggerSpec.build_paused {spec : TriggerSpec} (faulted : spec.faulted = true)
    (built : Int) : (spec.build built).state = .paused := by
  simp [build,faulted,pause]

/-- A restored row leaves a paused trigger silent unless it lifts the pause and
a fire lies ahead. -/
theorem restoreTriggerState_silent_iff (paused : trigger.state = .paused)
    (jobState : JobState) (now : Int) : (restoreTriggerState trigger jobState now).1.Silent ↔
      ¬ (RowLiftsPause trigger jobState now ∧ trigger.CanFireFrom now) := by
  by_cases lifted : RowLiftsPause trigger jobState now
  · rw [restoreTriggerState_of_lifted lifted,silent_resume_iff]
    simp only [lifted,true_and]
    rfl
  · simp only [lifted,false_and,not_false_eq_true,iff_true]
    apply silent_of_state_ne_armed
    rcases restoreTriggerState_of_paused paused lifted with state | state <;> rw [state] <;> decide

theorem carryOverState_silent_iff (paused : new.state = .paused)
    (old : Trigger) (now : Int) : (carryOverState old new now).Silent ↔
      ¬ (TakeoverLiftsPause old new ∧ new.CanFireFrom now) := by
  by_cases lifted : TakeoverLiftsPause old new
  · rw [carryOverState_of_lifted lifted,silent_resume_iff]
    simp only [lifted,true_and]
    rfl
  · simp only [lifted,false_and,not_false_eq_true,iff_true]
    apply silent_of_state_ne_armed
    rcases carryOverState_of_paused paused lifted now with state | state <;> rw [state] <;> decide

theorem silent_of_paused (paused : trigger.state = .paused) : trigger.Silent := by
  apply silent_of_state_ne_armed
  rw [paused]
  decide

theorem restoreTriggerStates_silent_iff {triggers : String → Option Trigger} {key : String}
    (isLoaded : triggers key = some trigger)
    (paused : trigger.state = .paused) (states : JobStates) (now : Int) :
    ∃ restored, restoreTriggerStates triggers (some states) now key = some restored ∧
      (restored.Silent ↔ ¬ ∃ jobState ∈ states.rows, jobState.jobKey = key ∧
        RowLiftsPause trigger jobState now ∧ trigger.CanFireFrom now) := by
  by_cases hasRow : ∃ jobState ∈ states.rows, jobState.jobKey = key
  · obtain ⟨jobState,isRow,rfl⟩ := hasRow
    refine ⟨_,restoreTriggerStates_of_mem states now isRow isLoaded,?_⟩
    rw [restoreTriggerState_silent_iff paused]
    refine not_congr ⟨fun lifted => ⟨jobState,isRow,rfl,lifted⟩,?_⟩
    rintro ⟨other,isOther,sameKey,lifted⟩
    rwa [← List.inj_on_of_nodup_map states.keysUnique isOther isRow sameKey]
  · have notMem : key ∉ states.rows.map JobState.jobKey := by simpa using hasRow
    refine ⟨trigger,(foldl_restoreFromRow_of_notMem notMem).trans isLoaded,?_⟩
    refine ⟨?_,fun _ => silent_of_paused paused⟩
    rintro - ⟨jobState,isRow,sameKey,-⟩
    exact hasRow ⟨jobState,isRow,sameKey⟩

/-- A faulted job is loaded paused and stays silent, unless a restore or a takeover lifts the
pause and the bounds admit a fire ahead. -/
theorem faultedTrigger_silent_iff (parsers : DateParsers)
    (parseZone : String → Except String Tz) (file : CompiledFile) (built : Int)
    (loaded : LoadedConfig) (key reason : String)
    (loads : loadFromCompiled parsers parseZone file built = .ok loaded)
    (faulted : loaded.calendarFaults key = some reason) :
    ∃ trigger, loaded.triggers key = some trigger ∧ trigger.state = .paused ∧
      (∀ now, restoreTriggerStates loaded.triggers none now key = some trigger) ∧
      (∀ (states : JobStates) (now : Int), ∃ restored,
        restoreTriggerStates loaded.triggers (some states) now key = some restored ∧
        (restored.Silent ↔ ¬ ∃ jobState ∈ states.rows, jobState.jobKey = key ∧
          RowLiftsPause trigger jobState now ∧ trigger.CanFireFrom now)) ∧
      ∀ (old : Trigger) (now : Int),
        (carryOverState old trigger now).Silent ↔
          ¬ (TakeoverLiftsPause old trigger ∧ trigger.CanFireFrom now) := by
  obtain ⟨spec,specFaulted,isLoaded⟩ := loadFromCompiled_faultsPaused loads key reason faulted
  have paused := TriggerSpec.build_paused specFaulted built
  exact ⟨spec.build built,isLoaded,paused,fun _ => isLoaded,
    restoreTriggerStates_silent_iff isLoaded paused,carryOverState_silent_iff paused⟩

/-- A job every minute, with these options. -/
def reportsBlock (options : List (String × String)) : JobBlock where
  key := ⟨"reports:sync","reports","sync",none⟩
  schedule := some ⟨.interval 1 .minutes,none,options.map fun (key, value) =>
    ⟨wordOf key,[wordOf value]⟩⟩
  directives := []

/-- The job compiled, next to these calendars. -/
def reportsFile (options : List (String × String)) (calendars : ResolvedCalendars) :
    CompiledFile where
  astJobs := [reportsBlock options]
  jobs := [compileJob quietHost (fun _ => none) (fun _ => none) {} (reportsBlock options)]
  calendars
  otherErrors := []
  sameKeys := rfl

/-- One job whose calendar is defined nowhere. -/
def ghostCalendarFile : CompiledFile :=
  reportsFile [("calendar", "ghost")] ⟨fun _ => none,fun _ => none,true⟩

def exhaustedRow : JobState where
  jobKey := "reports:sync"
  nextFireAt := none
  lastFiredAt := some 40
  fireCount := 1
  status := .exhausted
  updatedAt := 40

def ghostCalendarSpec : TriggerSpec :=
  { plainSpec (.interval 60) with faulted := true }

theorem ghostCalendarFile_loads :
    loadFromCompiled undated noZone ghostCalendarFile 100 =
      .ok (LoadedConfig.empty.insertJob ghostCalendarSpec
        ["calendar '" ++ "ghost" ++ "' is not defined"] 100) := by
  rfl

theorem faultedTrigger_silent_iff_ghostCalendar :
    ∃ trigger, trigger.state = .paused ∧
      ∀ (old : Trigger) (now : Int),
        (carryOverState old trigger now).Silent ↔
          ¬ (TakeoverLiftsPause old trigger ∧ trigger.CanFireFrom now) := by
  obtain ⟨trigger,-,paused,-,-,takeover⟩ := faultedTrigger_silent_iff undated noZone
    ghostCalendarFile 100 _ "reports:sync" _ ghostCalendarFile_loads rfl
  exact ⟨trigger,paused,takeover⟩

def mondays : Calendar where
  name := "mondays"
  tz := .utc
  includes := [.weekly [.mon]]
  excludes := []

/-- One job, every minute on Mondays, whose bound has no time of day. -/
def unreadableBoundFile : CompiledFile :=
  reportsFile [("calendar", "mondays"),("not_after", "2026-12-31")]
    ⟨fun name => if name = "mondays" then some mondays else none,fun _ => none,true⟩

def unreadableBoundSpec : TriggerSpec :=
  { plainSpec (.interval 60) with calendar := some mondays, faulted := true }

/-- The pause is lifted by an exhausted row, and by a fire pending on a Thursday under a calendar
of Mondays. -/
theorem faultedTrigger_fires :
    (∃ loaded, loadFromCompiled undated noZone ghostCalendarFile 100 = .ok loaded ∧
      loaded.calendarFaults "reports:sync" = some "calendar 'ghost' is not defined" ∧
      (restoreTriggerStates loaded.triggers (some ⟨[exhaustedRow],by simp⟩) 100
        "reports:sync").map (·.evaluate 60000000100) = some (some 60000000100)) ∧
    ∃ loaded trigger, loadFromCompiled undated noZone unreadableBoundFile 100 = .ok loaded ∧
      loaded.calendarFaults "reports:sync" ≠ none ∧
      loaded.triggers "reports:sync" = some trigger ∧
      (carryOverState ((plainSpec (.interval 60)).build 0) trigger 100).evaluate
        345600000000000 = some 345600000000000 := by
  constructor
  · exact ⟨_,ghostCalendarFile_loads,by decide,by decide⟩
  · obtain ⟨reasons,loads,faulted⟩ : ∃ reasons,
        loadFromCompiled undated noZone unreadableBoundFile 100 =
          .ok (LoadedConfig.empty.insertJob unreadableBoundSpec reasons 100) ∧ reasons ≠ [] :=
      ⟨_,rfl,by decide⟩
    refine ⟨_,unreadableBoundSpec.build 100,loads,?_,rfl,by decide⟩
    simp [LoadedConfig.insertJob,faulted,unreadableBoundSpec,plainSpec]

end Croniq

import Croniq.CalendarOpenings
import Croniq.StoreOutage
import Mathlib.Data.List.Sort

/-!
# Adoption fires

A job that runs on register owes one fire for each version of its definition.
The store remembers the version of each job that was adopted last.
-/

namespace Croniq

open CivilCalendar KeyedTables LabelledRuns List OpeningSearch PiecewiseClock

/-! ### The next opening of the gates -/

section

namespace FireRule

/-- The transitions of a rule's clocks are further apart than their offsets. -/
structure Settles (rule : FireRule) : Prop where
  job : rule.timezone.Settles
  calendar : ∀ calendar, rule.calendar = some calendar → calendar.tz.Settles

variable {rule : FireRule} (settles : rule.Settles)
include settles
variable {instant opening : Int}

theorem gateAllows_of_nextGateOpen (found : rule.nextGateOpen instant = some opening) :
    rule.gateAllows opening = true := by
  have ⟨calendar,window⟩ := both_gates (fun openFrom isOpen =>
      (∃ later, openFrom opening = some later ∧ later ≤ opening) → isOpen opening)
    settles.job settles.calendar (fun _ => trivial)
    fun tz intervalsOn settles ok ⟨_,found,fixed⟩ => openIn_of_scan_fixed settles ok found fixed
  exact gateAllows_iff.mpr ((last_of_alternate found).2.2.imp calendar window)

end FireRule

end

/-! ### Planning -/

inductive Adoption where
  | firstRegistration
  | configChanged
deriving DecidableEq

structure PendingRegisterFire where
  (jobKey configHash : String)
  dueAt : Int
  reason : Adoption
deriving DecidableEq

open PendingRegisterFire

/-- A row of the store: the version of a job adopted last. -/
structure JobRegisterFire where
  (jobKey configHash : String)
  firedAt : Int
deriving DecidableEq

/-- What adoption reads of a job; the hash is that of its definition. -/
structure AdoptionJob where
  key : String
  runOnRegister : Bool
  configHash : String
  isEphemeral : Bool
  maxQueueDepth : Option Nat
deriving DecidableEq

abbrev AdoptionRecords := Table JobRegisterFire.jobKey

abbrev AdoptionJobs := Table AdoptionJob.key

variable (records : AdoptionRecords)

def recordedHashes (key : String) : Option String :=
  (records.find? key).map JobRegisterFire.configHash

/-- The earliest instant from `now` on that the bounds and the gates permit. -/
def Trigger.dueAt (trigger : Trigger) (now : Int) : Option Int :=
  let start :=
    match trigger.notBefore with
    | some notBefore => if now < notBefore then notBefore else now
    | none => now
  (trigger.nextGateOpen start).filter fun opening => !trigger.notAfter.any (· < opening)

def adoptionReason (recorded : Option String) (configHash : String) : Option Adoption :=
  match recorded with
  | none => some .firstRegistration
  | some recordedHash => if recordedHash ≠ configHash then some .configChanged else none

def planJob (triggers : String → Option Trigger) (recorded : String → Option String) (now : Int)
    (job : AdoptionJob) : Option PendingRegisterFire :=
  if job.runOnRegister then
    (adoptionReason (recorded job.key) job.configHash).bind fun reason =>
      (triggers job.key).bind fun trigger =>
        if trigger.state = .paused then none
        else
          (trigger.dueAt now).map fun due =>
            { jobKey := job.key, configHash := job.configHash, dueAt := due, reason }
  else none

def plan (jobs : List AdoptionJob) (triggers : String → Option Trigger)
    (recorded : String → Option String) (now : Int) : List PendingRegisterFire :=
  (jobs.filterMap (planJob triggers recorded now)).insertionSort fun first second =>
    first.jobKey ≤ second.jobKey

/-- The recorded keys whose job no longer runs on register. -/
def staleRecords (jobs : List AdoptionJob) (records : AdoptionRecords) : List String :=
  ((records.rows.map JobRegisterFire.jobKey).filter fun key =>
    jobs.any (·.key = key) &&
      !(jobs.filter AdoptionJob.runOnRegister).any (·.key = key)).insertionSort (· ≤ ·)

/-! ### The scheduler -/

/-- `loadedAt` is the load that planned the pending fires. -/
structure AdoptionLoop where
  jobs : AdoptionJobs
  triggers : String → Option Trigger
  pending : List PendingRegisterFire
  loadedAt : Int

open AdoptionLoop

/-- What a tick finds; the outcomes are those of its scheduled fires. -/
structure AdoptionTick where
  now : Int
  maintenanceActive : Bool
  queue : List WorkItem
  outcomes : String → Option TickOutcome

inductive AdoptionEvent where
  | boot (jobs : AdoptionJobs) (triggers : String → Option Trigger) (now : Int)
  | reload (jobs : AdoptionJobs) (triggers : String → Option Trigger) (now : Int)
  | tick (tick : AdoptionTick)
  | crash

/-- The server may be down. `fired` are the fires made, newest first. -/
structure AdoptionState where
  records : AdoptionRecords
  running : Option AdoptionLoop
  fired : List JobRegisterFire

open AdoptionState

def AdoptionJob.queueFull (job : AdoptionJob) (queue : List WorkItem) : Bool :=
  !job.isEphemeral && decide (job.maxQueueDepth.getD 10 ≤ countForJob queue job.key)

inductive AdoptionVerdict where
  | vanished
  | held
  | dispatched
deriving DecidableEq

namespace AdoptionLoop

variable (running : AdoptionLoop)

def verdict (queue : List WorkItem) (pending : PendingRegisterFire) : AdoptionVerdict :=
  match running.jobs.find? pending.jobKey with
  | none => .vanished
  | some job => if job.queueFull queue then .held else .dispatched

variable (tick : AdoptionTick)

def dispatchDue : List PendingRegisterFire :=
  if tick.maintenanceActive then []
  else
    (running.pending.filter (·.dueAt ≤ tick.now)).filter
      (running.verdict tick.queue · = .dispatched)

def keptPending : List PendingRegisterFire :=
  if tick.maintenanceActive then running.pending
  else
    running.pending.filter (tick.now < ·.dueAt) ++
      (running.pending.filter (·.dueAt ≤ tick.now)).filter
        (running.verdict tick.queue · = .held)

def advanceTrigger (trigger : Trigger) : Trigger :=
  match trigger.evaluate tick.now, tick.outcomes trigger.jobKey with
  | some fireAt, some outcome => OutageState.advance trigger fireAt tick.now outcome
  | _, _ => trigger

def afterTick : AdoptionLoop :=
  { running with
    pending := running.keptPending tick
    triggers := fun key => (running.triggers key).map (advanceTrigger tick) }

/-- The triggers after a reload: each takes over from that of its job. -/
def mergedTriggers (triggers : String → Option Trigger) (now : Int)
    (key : String) : Option Trigger :=
  (triggers key).map fun new => rebuiltTrigger (running.triggers key) new now

end AdoptionLoop

def upsertRegisterFire (row : JobRegisterFire) : AdoptionRecords :=
  (records.insert row).getD
    (records.updateWhere (fun old => old.jobKey = row.jobKey)
      (fun old => { old with configHash := row.configHash, firedAt := row.firedAt })
      fun _ => rfl)

namespace AdoptionState

def initial : AdoptionState where
  records := records
  running := none
  fired := []

variable (state : AdoptionState)

/-- Every load forgets the stale records and plans anew. -/
def armRegisterFires (jobs : AdoptionJobs)
    (triggers : String → Option Trigger) (now : Int) : AdoptionState :=
  { state with
    records := (staleRecords jobs.rows state.records).foldl Table.delete state.records
    running := some
      { jobs, triggers, loadedAt := now
        pending := plan jobs.rows triggers (recordedHashes state.records) now } }

def dispatched : AdoptionEvent → List JobRegisterFire
  | .tick tick =>
    ((state.running.map (dispatchDue · tick)).getD []).map fun pending =>
      { jobKey := pending.jobKey, configHash := pending.configHash, firedAt := tick.now }
  | _ => []

/-- A server starts only when it is down; all else needs a running one. A fire is recorded after it
was made. -/
def step (event : AdoptionEvent) : Option AdoptionState :=
  match event, state.running with
  | .boot jobs triggers now, none => some (state.armRegisterFires jobs triggers now)
  | .reload jobs triggers now, some running =>
    some (state.armRegisterFires jobs (running.mergedTriggers triggers now) now)
  | .tick tick, some running =>
    some
      { records := (state.dispatched event).foldl upsertRegisterFire state.records
        running := some (running.afterTick tick)
        fired := (state.dispatched event).reverse ++ state.fired }
  | .crash, some _ => some { state with running := none }
  | _, _ => none

end AdoptionState

/-! ### What a plan holds -/

theorem adoptionReason_eq_some_iff {recorded : Option String} {configHash : String}
    {reason : Adoption} :
    adoptionReason recorded configHash = some reason ↔
      recorded ≠ some configHash ∧
        reason = if recorded = none then .firstRegistration else .configChanged := by
  cases recorded with
  | none => simp [adoptionReason,eq_comm (a := reason)]
  | some recordedHash =>
    by_cases same : recordedHash = configHash
    · simp [adoptionReason,same]
    · simp [adoptionReason,same,eq_comm (a := reason)]

variable {recorded : String → Option String} {triggers : String → Option Trigger} {now : Int}
  {job : AdoptionJob} {pending : PendingRegisterFire}

theorem planJob_eq_some_iff :
    planJob triggers recorded now job = some pending ↔
      job.runOnRegister = true ∧ recorded job.key ≠ some job.configHash ∧
        (∃ trigger, triggers job.key = some trigger ∧ trigger.state ≠ .paused ∧
          trigger.dueAt now = some pending.dueAt) ∧
        pending.jobKey = job.key ∧ pending.configHash = job.configHash ∧
        pending.reason =
          if recorded job.key = none then .firstRegistration else .configChanged := by
  unfold planJob
  split
  · rename_i registers
    simp only [registers,true_and,Option.bind_eq_some_iff,adoptionReason_eq_some_iff]
    constructor
    · rintro ⟨reason,⟨differs,rfl⟩,trigger,present,planned⟩
      split at planned
      · cases planned
      · rename_i notPaused
        obtain ⟨due,isDue,rfl⟩ := Option.map_eq_some_iff.mp planned
        exact ⟨differs,⟨trigger,present,notPaused,isDue⟩,rfl,rfl,rfl⟩
    · rintro ⟨differs,⟨trigger,present,notPaused,isDue⟩,sameKey,sameHash,sameReason⟩
      refine ⟨_,⟨differs,rfl⟩,trigger,present,?_⟩
      cases pending
      simp_all
  · rename_i notRegisters
    simp [notRegisters]

theorem jobKey_of_planJob (planned : planJob triggers recorded now job = some pending) :
    pending.jobKey = job.key :=
  (planJob_eq_some_iff.mp planned).2.2.2.1

theorem planJob_congr_recorded {other : String → Option String}
    (same : job.runOnRegister = true → recorded job.key = other job.key) :
    planJob triggers recorded now job = planJob triggers other now job := by
  unfold planJob
  split
  · rename_i registers
    rw [same registers]
  · rfl

/-- A change of the triggers that keeps paused ones paused and the permitted instants keeps the
plan. -/
theorem planJob_congr_triggers {change : Trigger → Trigger}
    (samePaused : ∀ trigger, (change trigger).state = .paused ↔ trigger.state = .paused)
    (sameDue : ∀ trigger, (change trigger).dueAt now = trigger.dueAt now) :
    planJob (fun key => (triggers key).map change) recorded now job =
      planJob triggers recorded now job := by
  simp only [planJob]
  cases triggers job.key with
  | none => rfl
  | some => simp only [Option.map_some,Option.bind_some,samePaused,sameDue]

variable (jobs : AdoptionJobs)

theorem nodup_plan (triggers : String → Option Trigger)
    (recorded : String → Option String) (now : Int) :
    ((plan jobs.rows triggers recorded now).map jobKey).Nodup := by
  have planned : ∀ rows : List AdoptionJob,
      ((rows.filterMap (planJob triggers recorded now)).map jobKey).Sublist
        (rows.map AdoptionJob.key) := by
    intro rows
    induction rows with
    | nil => exact .slnil
    | cons job rows ih =>
      cases owed : planJob triggers recorded now job with
      | none =>
        rw [filterMap_cons_none owed]
        exact ih.cons _
      | some =>
        rw [filterMap_cons_some owed,map_cons,map_cons,jobKey_of_planJob owed]
        exact ih.cons_cons _
  have sorted := (perm_insertionSort (fun first second : PendingRegisterFire =>
    first.jobKey ≤ second.jobKey) (jobs.rows.filterMap (planJob triggers recorded now))).map
      jobKey
  exact sorted.nodup_iff.mpr (jobs.keysUnique.sublist (planned jobs.rows))

/-! ### The records -/

theorem recordedHashes_upsert (row : JobRegisterFire) (key : String) :
    recordedHashes (upsertRegisterFire records row) key =
      if row.jobKey = key then some row.configHash else recordedHashes records key :=
  records.find?_upsert JobRegisterFire.configHash row
    (fun old => { old with configHash := row.configHash, firedAt := row.firedAt })
    (fun _ => rfl) (fun _ _ => rfl) key

theorem recordedHashes_foldl_upsert {rows : List JobRegisterFire}
    (once : (rows.map JobRegisterFire.jobKey).Nodup) (key : String) :
    (∀ row ∈ rows, row.jobKey = key →
      recordedHashes (rows.foldl upsertRegisterFire records) key = some row.configHash) ∧
    ((∀ row ∈ rows, row.jobKey ≠ key) →
      recordedHashes (rows.foldl upsertRegisterFire records) key = recordedHashes records key) := by
  induction rows generalizing records with
  | nil => exact ⟨by simp,fun _ => rfl⟩
  | cons first rest ih =>
    obtain ⟨fresh,restOnce⟩ := nodup_cons.mp once
    obtain ⟨adopted,kept⟩ := ih (upsertRegisterFire records first) restOnce
    rw [foldl_cons]
    constructor
    · intro row isRow sameKey
      rcases mem_cons.mp isRow with rfl | isLater
      · rw [kept,recordedHashes_upsert,if_pos sameKey]
        intro other isOther otherKey
        apply fresh
        rw [sameKey,← otherKey]
        exact mem_map_of_mem isOther
      · exact adopted row isLater sameKey
    · intro noRow
      rw [kept fun row isRow => noRow row (mem_cons_of_mem _ isRow),recordedHashes_upsert,
        if_neg (noRow first mem_cons_self)]

theorem mem_staleRecords {jobs : AdoptionJobs} {records : AdoptionRecords} {key : String} :
    key ∈ staleRecords jobs.rows records ↔
      (recordedHashes records key).isSome = true ∧
        ∃ job, jobs.find? key = some job ∧ job.runOnRegister = false := by
  have isRecorded : (recordedHashes records key).isSome = true ↔
      key ∈ records.rows.map JobRegisterFire.jobKey := by
    rw [recordedHashes,Option.isSome_map,Option.isSome_iff_ne_none,Ne,
      records.find?_eq_none_iff,not_not]
  simp only [staleRecords,mem_insertionSort,mem_filter,isRecorded,
    Bool.and_eq_true,Bool.not_eq_true',any_eq_true,any_eq_false,
    decide_eq_true_eq,jobs.find?_eq_some_iff,and_imp]
  refine and_congr_right fun _ => ?_
  constructor
  · rintro ⟨⟨job,isJob,rfl⟩,notDeclared⟩
    refine ⟨job,⟨isJob,rfl⟩,?_⟩
    by_contra registers
    exact notDeclared job isJob (by simpa using registers) rfl
  · rintro ⟨job,⟨isJob,rfl⟩,notRegisters⟩
    refine ⟨⟨job,isJob,rfl⟩,?_⟩
    intro other isOther registers sameKey
    rw [jobs.eq_of_mem isOther isJob sameKey,notRegisters] at registers
    cases registers

/-! ### One step -/

def AdoptionEvent.loads : AdoptionEvent → Option AdoptionJobs
  | .boot jobs _ _ => some jobs
  | .reload jobs _ _ => some jobs
  | _ => none

/-- The event loads a configuration in which the job does not run on register. -/
def AdoptionEvent.drops (event : AdoptionEvent) (key : String) : Prop :=
  ∃ jobs job, event.loads = some jobs ∧ jobs.find? key = some job ∧ job.runOnRegister = false

namespace AdoptionState

variable {state next : AdoptionState} {event : AdoptionEvent}

theorem step_cases (stepTo : state.step event = some next) :
    (∃ jobs triggers now, event.loads = some jobs ∧ state.dispatched event = [] ∧
      next = state.armRegisterFires jobs triggers now) ∨
    (∃ tick running, event = .tick tick ∧ state.running = some running ∧
      next.records = (state.dispatched event).foldl upsertRegisterFire state.records ∧
      next.running = some (running.afterTick tick)) ∨
    (event.loads = none ∧ state.dispatched event = [] ∧
      next.records = state.records ∧ next.running = none) := by
  unfold step at stepTo
  split at stepTo
  · cases stepTo
    exact .inl ⟨_,_,_,rfl,rfl,rfl⟩
  · cases stepTo
    exact .inl ⟨_,_,_,rfl,rfl,rfl⟩
  · rename_i isRunning
    cases stepTo
    exact .inr (.inl ⟨_,_,rfl,isRunning,rfl,rfl⟩)
  · cases stepTo
    exact .inr (.inr ⟨rfl,rfl,rfl,rfl⟩)
  · cases stepTo

theorem recordedHashes_arm (triggers : String → Option Trigger) (now : Int) (key : String) :
    recordedHashes (state.armRegisterFires jobs triggers now).records key =
      if ∃ job, jobs.find? key = some job ∧ job.runOnRegister = false then none
      else recordedHashes state.records key := by
  simp only [armRegisterFires,recordedHashes,Table.find?_foldl_delete]
  by_cases dropped : ∃ job, jobs.find? key = some job ∧ job.runOnRegister = false
  · rw [if_pos dropped]
    by_cases isStale : key ∈ staleRecords jobs.rows state.records
    · rw [if_pos isStale,Option.map_none]
    · rw [if_neg isStale,← Option.not_isSome_iff_eq_none]
      exact fun isRecorded => isStale (mem_staleRecords.mpr ⟨isRecorded,dropped⟩)
  · rw [if_neg dropped,if_neg]
    exact fun isStale => dropped (mem_staleRecords.mp isStale).2

/-- The pending fires are those a plan at the last load holds with the records of now. -/
structure Invariant (state : AdoptionState) : Prop where
  owed : ∀ running, state.running = some running → ∀ pending,
    pending ∈ running.pending ↔ ∃ job ∈ running.jobs.rows,
      planJob running.triggers (recordedHashes state.records) running.loadedAt job = some pending
  once : ∀ running, state.running = some running → (running.pending.map jobKey).Nodup

theorem invariant_initial : (initial records).Invariant :=
  ⟨nofun,nofun⟩

theorem invariant_arm (triggers : String → Option Trigger) (now : Int) :
    (state.armRegisterFires jobs triggers now).Invariant where
  owed := by
    rintro running isRunning pending
    cases isRunning
    simp only [plan,mem_insertionSort,mem_filterMap]
    refine exists_congr fun job => and_congr_right fun isJob => ?_
    rw [planJob_congr_recorded]
    intro registers
    rw [recordedHashes_arm,if_neg]
    rintro ⟨other,found,notRegisters⟩
    obtain ⟨isOther,sameKey⟩ := jobs.find?_eq_some_iff.mp found
    rw [jobs.eq_of_mem isOther isJob sameKey,registers] at notRegisters
    cases notRegisters
  once := by
    rintro running isRunning
    cases isRunning
    exact nodup_plan jobs triggers _ now

end AdoptionState

namespace AdoptionLoop

variable {running : AdoptionLoop} {tick : AdoptionTick}

theorem advanceTrigger_paused_iff (trigger : Trigger) :
    (advanceTrigger tick trigger).state = .paused ↔ trigger.state = .paused := by
  unfold advanceTrigger
  split
  · rename_i fireAt outcome isDue _
    have armed : trigger.state = .armed := (Trigger.evaluate_eq_some.mp isDue).1
    have ended : ∀ next : Option Int,
        (if next.isSome then TriggerState.armed else .exhausted) ≠ .paused := by
      intro next
      split <;> simp
    have marked : (trigger.markFired fireAt tick.now).state ≠ .paused := ended _
    cases outcome with
    | dispatched | folded => simp [OutageState.advance,marked,armed]
    | skipped => simp [OutageState.advance,skipFire,marked,armed]
    | rolledBack => simp [OutageState.advance,rollBack]
  · rfl

theorem advanceTrigger_dueAt (trigger : Trigger) (now : Int) :
    (advanceTrigger tick trigger).dueAt now = trigger.dueAt now := by
  unfold advanceTrigger
  split
  · rename_i outcome _ _
    cases outcome <;> rfl
  · rfl

theorem mem_dispatchDue {pending : PendingRegisterFire} :
    pending ∈ running.dispatchDue tick ↔
      pending ∈ running.pending ∧ pending.dueAt ≤ tick.now ∧ tick.maintenanceActive = false ∧
        running.verdict tick.queue pending = .dispatched := by
  unfold dispatchDue
  split
  · rename_i frozen
    simp [frozen]
  · rename_i notFrozen
    simp only [mem_filter,decide_eq_true_eq,Bool.not_eq_true] at notFrozen ⊢
    tauto

theorem mem_keptPending {pending : PendingRegisterFire} :
    pending ∈ running.keptPending tick ↔
      pending ∈ running.pending ∧ (tick.maintenanceActive = true ∨ tick.now < pending.dueAt ∨
        running.verdict tick.queue pending = .held) := by
  unfold keptPending
  split
  · rename_i frozen
    simp [frozen]
  rename_i notFrozen
  simp only [mem_append,mem_filter,decide_eq_true_eq,notFrozen,Bool.false_eq_true,false_or]
  by_cases later : tick.now < pending.dueAt
  · simp [later,not_le.mpr later]
  · simp [later,not_lt.mp later]

theorem nodup_keptPending (once : (running.pending.map jobKey).Nodup) :
    ((running.keptPending tick).map jobKey).Nodup := by
  unfold keptPending
  split
  · exact once
  rw [map_append,nodup_append]
  refine ⟨once.sublist (filter_sublist.map _),
    once.sublist ((filter_sublist.trans filter_sublist).map _),?_⟩
  intro laterKey isLater heldKey isHeld sameKey
  obtain ⟨later,laterMem,rfl⟩ := mem_map.mp isLater
  obtain ⟨held,heldMem,rfl⟩ := mem_map.mp isHeld
  simp only [mem_filter,decide_eq_true_eq] at laterMem heldMem
  have same : later = held := inj_on_of_nodup_map once laterMem.1 heldMem.1.1 sameKey
  rw [same] at laterMem
  omega

end AdoptionLoop

namespace AdoptionState

variable {state next : AdoptionState} {event : AdoptionEvent} {running : AdoptionLoop}
  {pending : PendingRegisterFire} {tick : AdoptionTick}

theorem dispatched_tick (isRunning : state.running = some running) (tick : AdoptionTick) :
    state.dispatched (.tick tick) =
      (running.dispatchDue tick).map fun pending =>
        { jobKey := pending.jobKey, configHash := pending.configHash, firedAt := tick.now } := by
  simp [dispatched,isRunning]

theorem Invariant.nodup_dispatched (invariant : state.Invariant) (event : AdoptionEvent) :
    ((state.dispatched event).map JobRegisterFire.jobKey).Nodup := by
  cases event with
  | tick =>
    cases isRunning : state.running with
    | none => simp [dispatched,isRunning]
    | some running =>
      rw [dispatched_tick isRunning,map_map,dispatchDue]
      split
      · exact nodup_nil
      · exact (invariant.once running isRunning).sublist
          ((filter_sublist.trans filter_sublist).map _)
  | boot jobs triggers now | reload | crash => exact nodup_nil

/-- The record of a job changes when a version is adopted, or a load finds it not run on register.
-/
theorem Invariant.recordedHashes_step (invariant : state.Invariant)
    (stepTo : state.step event = some next) (key : String) :
    (∀ row ∈ state.dispatched event, row.jobKey = key →
      recordedHashes next.records key = some row.configHash) ∧
    (event.drops key → recordedHashes next.records key = none) ∧
    ((∀ row ∈ state.dispatched event, row.jobKey ≠ key) → ¬event.drops key →
      recordedHashes next.records key = recordedHashes state.records key) := by
  rcases step_cases stepTo with ⟨jobs,triggers,now,loads,noFires,rfl⟩ |
    ⟨tick,running,rfl,isRunning,records,-⟩ | ⟨noLoad,noFires,records,-⟩
  · have dropsIff : event.drops key ↔
        ∃ job, jobs.find? key = some job ∧ job.runOnRegister = false := by
      simp [AdoptionEvent.drops,loads]
    rw [noFires,recordedHashes_arm,dropsIff]
    refine ⟨by simp,fun dropped => if_pos dropped,fun _ notDropped => if_neg notDropped⟩
  · have notDropped : ¬AdoptionEvent.drops (.tick tick) key := by
      rintro ⟨_,_,loads,-⟩
      cases loads
    obtain ⟨adopted,kept⟩ :=
      recordedHashes_foldl_upsert state.records (invariant.nodup_dispatched (.tick tick)) key
    rw [records]
    exact ⟨adopted,fun dropped => absurd dropped notDropped,fun noneMade _ => kept noneMade⟩
  · rw [noFires,records]
    refine ⟨by simp,?_,fun _ _ => rfl⟩
    rintro ⟨_,_,loads,-⟩
    rw [noLoad] at loads
    cases loads

/-- The job owes a fire for its version since the instant `due`. -/
structure Owes (state : AdoptionState) (running : AdoptionLoop) (job : AdoptionJob)
    (trigger : Trigger) (due : Int) : Prop where
  isJob : job ∈ running.jobs.rows
  registers : job.runOnRegister = true
  differs : recordedHashes state.records job.key ≠ some job.configHash
  present : running.triggers job.key = some trigger
  notPaused : trigger.state ≠ .paused
  isDue : trigger.dueAt running.loadedAt = some due

theorem Invariant.mem_pending_iff (invariant : state.Invariant)
    (isRunning : state.running = some running) :
    pending ∈ running.pending ↔
      ∃ job trigger, state.Owes running job trigger pending.dueAt ∧
        pending.jobKey = job.key ∧ pending.configHash = job.configHash ∧
        pending.reason = if recordedHashes state.records job.key = none then .firstRegistration
          else .configChanged := by
  simp only [invariant.owed running isRunning,planJob_eq_some_iff]
  constructor
  · rintro ⟨job,isJob,registers,differs,⟨trigger,present,notPaused,isDue⟩,sameKey,
      sameHash,sameReason⟩
    exact ⟨job,trigger,⟨isJob,registers,differs,present,notPaused,isDue⟩,sameKey,
      sameHash,sameReason⟩
  · rintro ⟨job,trigger,owes,sameKey,sameHash,sameReason⟩
    exact ⟨job,owes.isJob,owes.registers,owes.differs,
      ⟨trigger,owes.present,owes.notPaused,owes.isDue⟩,sameKey,sameHash,sameReason⟩

theorem verdict_of_mem {job : AdoptionJob} (isJob : job ∈ running.jobs.rows)
    (sameKey : pending.jobKey = job.key) (queue : List WorkItem) :
    running.verdict queue pending = if job.queueFull queue then .held else .dispatched := by
  have found : running.jobs.find? pending.jobKey = some job :=
    running.jobs.find?_eq_some_iff.mpr ⟨isJob,sameKey.symm⟩
  simp only [verdict,found]

section

variable (invariant : state.Invariant) (isRunning : state.running = some running)
include invariant isRunning

theorem Invariant.mem_dispatched_iff {row : JobRegisterFire} :
    row ∈ state.dispatched (.tick tick) ↔
      ∃ job trigger due, state.Owes running job trigger due ∧ due ≤ tick.now ∧
        tick.maintenanceActive = false ∧ job.queueFull tick.queue = false ∧
        row = { jobKey := job.key, configHash := job.configHash, firedAt := tick.now } := by
  simp only [dispatched_tick isRunning,mem_map,mem_dispatchDue,invariant.mem_pending_iff isRunning]
  constructor
  · rintro ⟨pending,⟨⟨job,trigger,owes,sameKey,sameHash,-⟩,isDue,notFrozen,verdict⟩,rfl⟩
    refine ⟨job,trigger,pending.dueAt,owes,isDue,notFrozen,?_,by rw [sameKey,sameHash]⟩
    rw [verdict_of_mem owes.isJob sameKey] at verdict
    split at verdict
    · cases verdict
    · rename_i notFull
      exact Bool.eq_false_of_not_eq_true notFull
  · rintro ⟨job,trigger,due,owes,isDue,notFrozen,notFull,rfl⟩
    refine ⟨⟨job.key,job.configHash,due,_⟩,⟨⟨job,trigger,owes,rfl,rfl,rfl⟩,isDue,
      notFrozen,?_⟩,rfl⟩
    rw [verdict_of_mem owes.isJob rfl,notFull]
    rfl

theorem Invariant.fired_iff_not_kept (isPending : pending ∈ running.pending) :
    (∃ row ∈ state.dispatched (.tick tick), row.jobKey = pending.jobKey) ↔
      pending ∉ running.keptPending tick := by
  obtain ⟨job,trigger,owes,sameKey,sameHash,-⟩ := (invariant.mem_pending_iff isRunning).mp isPending
  have verdict := verdict_of_mem owes.isJob sameKey tick.queue
  rw [mem_keptPending,verdict]
  constructor
  · rintro ⟨row,isRow,rowKey⟩ ⟨-,kept⟩
    obtain ⟨other,otherTrigger,due,otherOwes,isDue,notFrozen,notFull,rfl⟩ :=
      (invariant.mem_dispatched_iff isRunning).mp isRow
    have sameJob : other = job :=
      running.jobs.eq_of_mem otherOwes.isJob owes.isJob (rowKey.trans sameKey)
    subst sameJob
    have sameTrigger : otherTrigger = trigger :=
      Option.some.inj (otherOwes.present.symm.trans owes.present)
    subst sameTrigger
    have sameDue : due = pending.dueAt := Option.some.inj (otherOwes.isDue.symm.trans owes.isDue)
    rcases kept with frozen | later | held
    · rw [notFrozen] at frozen
      cases frozen
    · omega
    · rw [notFull] at held
      cases held
  · intro notKept
    obtain ⟨notFrozen,isDue,notFull⟩ : tick.maintenanceActive = false ∧
        pending.dueAt ≤ tick.now ∧ job.queueFull tick.queue = false := by
      simpa [isPending] using notKept
    exact ⟨_,(invariant.mem_dispatched_iff isRunning).mpr
      ⟨job,trigger,pending.dueAt,owes,isDue,notFrozen,notFull,rfl⟩,sameKey.symm⟩

theorem Invariant.owed_afterTick (stepTo : state.step (.tick tick) = some next)
    (pending : PendingRegisterFire) :
    pending ∈ running.keptPending tick ↔ ∃ job ∈ running.jobs.rows,
      planJob running.triggers (recordedHashes next.records) running.loadedAt job =
        some pending := by
  have notDropped : ∀ key, ¬AdoptionEvent.drops (.tick tick) key := by
    rintro key ⟨_,_,loads,-⟩
    cases loads
  -- the record of a job stays unless its fire was made
  have kept : ∀ job, (∀ row ∈ state.dispatched (.tick tick), row.jobKey ≠ job.key) →
      planJob running.triggers (recordedHashes next.records) running.loadedAt job =
        planJob running.triggers (recordedHashes state.records) running.loadedAt job := by
    intro job noneMade
    apply planJob_congr_recorded
    exact fun _ => (invariant.recordedHashes_step stepTo job.key).2.2 noneMade (notDropped _)
  constructor
  · intro isKept
    have isPending := (mem_keptPending.mp isKept).1
    obtain ⟨job,isJob,planned⟩ := (invariant.owed running isRunning pending).mp isPending
    refine ⟨job,isJob,?_⟩
    rw [kept job,planned]
    intro row isRow sameKey
    apply (invariant.fired_iff_not_kept isRunning isPending).mp _ isKept
    exact ⟨row,isRow,sameKey.trans (jobKey_of_planJob planned).symm⟩
  · rintro ⟨job,isJob,planned⟩
    have noneMade : ∀ row ∈ state.dispatched (.tick tick), row.jobKey ≠ job.key := by
      intro row isRow sameKey
      have adopted := (invariant.recordedHashes_step stepTo job.key).1 row isRow sameKey
      obtain ⟨other,_,_,owes,-,-,-,rfl⟩ := (invariant.mem_dispatched_iff isRunning).mp isRow
      rw [running.jobs.eq_of_mem owes.isJob isJob sameKey] at adopted
      exact (planJob_eq_some_iff.mp planned).2.1 adopted
    have isPending : pending ∈ running.pending := by
      rw [kept job noneMade] at planned
      exact (invariant.owed running isRunning pending).mpr ⟨job,isJob,planned⟩
    by_contra notKept
    obtain ⟨row,isRow,sameKey⟩ := (invariant.fired_iff_not_kept isRunning isPending).mpr notKept
    exact noneMade row isRow (sameKey.trans (jobKey_of_planJob planned))

end

theorem Invariant.step (invariant : state.Invariant) (stepTo : state.step event = some next) :
    next.Invariant := by
  rcases step_cases stepTo with ⟨jobs,triggers,now,-,-,rfl⟩ |
    ⟨tick,running,rfl,isRunning,-,nextRunning⟩ | ⟨-,-,-,nextRunning⟩
  · exact invariant_arm jobs triggers now
  · refine ⟨?_,?_⟩
    · rintro loaded isLoaded pending
      rw [nextRunning] at isLoaded
      cases isLoaded
      simp only [afterTick]
      rw [invariant.owed_afterTick isRunning stepTo]
      refine exists_congr fun job => and_congr_right fun _ => ?_
      rw [planJob_congr_triggers advanceTrigger_paused_iff
        fun trigger => advanceTrigger_dueAt trigger running.loadedAt]
    · rintro loaded isLoaded
      rw [nextRunning] at isLoaded
      cases isLoaded
      exact nodup_keptPending (invariant.once running isRunning)
  · exact ⟨by simp [nextRunning],by simp [nextRunning]⟩

theorem invariant_of_reached {records : AdoptionRecords} {events : List AdoptionEvent}
    (reaches : run step (initial records) events = some state) : state.Invariant :=
  invariant_of_run Invariant (fun _ _ _ invariant stepTo => invariant.step stepTo)
    (invariant_initial records) reaches

end AdoptionState

/-! ### Permitted instants -/

/-- The gates are open, and the instant is within the bounds. -/
structure Trigger.Permits (trigger : Trigger) (instant : Int) : Prop where
  gate : trigger.gateAllows instant = true
  notEarly : ∀ notBefore, trigger.notBefore = some notBefore → notBefore ≤ instant
  notLate : ∀ notAfter, trigger.notAfter = some notAfter → instant ≤ notAfter

theorem Trigger.dueAt_bounds {trigger : Trigger} {due : Int}
    (isDue : trigger.dueAt now = some due) :
    now ≤ due ∧ (∀ notBefore, trigger.notBefore = some notBefore → notBefore ≤ due) ∧
      ∀ notAfter, trigger.notAfter = some notAfter → due ≤ notAfter := by
  obtain ⟨opened,inTime⟩ := Option.filter_eq_some_iff.mp isDue
  have notBack := (last_of_alternate opened).1
  refine ⟨?_,?_,?_⟩
  · split at notBack
    · split at notBack <;> omega
    · exact notBack
  · intro notBefore isSet
    simp only [isSet] at notBack
    split at notBack <;> omega
  · intro notAfter isSet
    simpa [isSet] using inTime

theorem Trigger.permits_dueAt {trigger : Trigger} (settles : trigger.toFireRule.Settles)
    {due : Int} (isDue : trigger.dueAt now = some due) : trigger.Permits due := by
  obtain ⟨-,notEarly,notLate⟩ := Trigger.dueAt_bounds isDue
  obtain ⟨opened,-⟩ := Option.filter_eq_some_iff.mp isDue
  exact ⟨FireRule.gateAllows_of_nextGateOpen settles opened,notEarly,notLate⟩

/-- From `due` to `now` the gates do not close and the upper bound is not passed. -/
structure Trigger.Stays (trigger : Trigger) (due now : Int) : Prop where
  gate : ∀ instant, due ≤ instant → instant < now → trigger.gateAllows instant = true →
    trigger.gateAllows (instant + 1) = true
  notLate : ∀ notAfter, trigger.notAfter = some notAfter → now ≤ notAfter

theorem Trigger.Permits.of_stays {trigger : Trigger} {due : Int} (permits : trigger.Permits due)
    (isDue : due ≤ now) (stays : trigger.Stays due now) : trigger.Permits now where
  gate := by
    have isOpen : ∀ instant, due ≤ instant → instant ≤ now → trigger.gateAllows instant = true := by
      intro instant notBefore
      induction instant, notBefore using Int.leInduction with
      | base => exact fun _ => permits.gate
      | succ instant notBefore ih =>
        intro inTime
        exact stays.gate instant notBefore (by omega) (ih (by omega))
    exact isOpen now isDue le_rfl
  notEarly notBefore isSet := le_trans (permits.notEarly notBefore isSet) isDue
  notLate := stays.notLate

namespace AdoptionState

variable {state next : AdoptionState} {event : AdoptionEvent}

/-- The event neither forgets the record of the job nor adopts another version. -/
def Remembers (key hash : String) (state : AdoptionState) (event : AdoptionEvent) : Prop :=
  ¬event.drops key ∧ ∀ row ∈ state.dispatched event, row.jobKey = key → row.configHash = hash

theorem Invariant.recorded_of_remembers (invariant : state.Invariant) {key hash : String}
    (recorded : recordedHashes state.records key = some hash)
    (remembers : Remembers key hash state event) (stepTo : state.step event = some next) :
    recordedHashes next.records key = some hash := by
  obtain ⟨adopted,-,kept⟩ := invariant.recordedHashes_step stepTo key
  by_cases made : ∃ row ∈ state.dispatched event, row.jobKey = key
  · obtain ⟨row,isRow,sameKey⟩ := made
    rw [adopted row isRow sameKey,remembers.2 row isRow sameKey]
  · rw [kept _ remembers.1,recorded]
    exact fun row isRow sameKey => made ⟨row,isRow,sameKey⟩

theorem Invariant.not_adopted_of_recorded (invariant : state.Invariant) {key hash : String}
    (recorded : recordedHashes state.records key = some hash) :
    ∀ row ∈ state.dispatched event, row.jobKey = key → row.configHash ≠ hash := by
  intro row isRow sameKey sameHash
  cases event with
  | tick =>
    cases isRunning : state.running with
    | none => simp [dispatched,isRunning] at isRow
    | some =>
      obtain ⟨job,_,_,owes,-,-,-,rfl⟩ := (invariant.mem_dispatched_iff isRunning).mp isRow
      apply owes.differs
      rw [← sameHash,← sameKey] at recorded
      exact recorded
  | boot jobs triggers now | reload | crash => cases isRow

theorem Invariant.adopted_once (invariant : state.Invariant)
    (stepTo : state.step event = some next) {row : JobRegisterFire}
    (isRow : row ∈ state.dispatched event) {events : List AdoptionEvent} {final : AdoptionState}
    (reaches : run AdoptionState.step next events = some final)
    (along : Along AdoptionState.step (Remembers row.jobKey row.configHash) next events)
    (last : AdoptionEvent) :
    ∀ again ∈ final.dispatched last, again.jobKey = row.jobKey →
      again.configHash ≠ row.configHash := by
  have recorded := (invariant.recordedHashes_step stepTo row.jobKey).1 row isRow rfl
  have preserved : ∀ (state : AdoptionState) (event : AdoptionEvent) (next : AdoptionState),
      (state.Invariant ∧ recordedHashes state.records row.jobKey = some row.configHash) →
      Remembers row.jobKey row.configHash state event → state.step event = some next →
      next.Invariant ∧ recordedHashes next.records row.jobKey = some row.configHash := by
    rintro state event next ⟨invariant,recorded⟩ remembers stepTo
    exact ⟨invariant.step stepTo,invariant.recorded_of_remembers recorded remembers stepTo⟩
  obtain ⟨finalInvariant,finalRecorded⟩ :=
    invariant_of_along preserved ⟨invariant.step stepTo,recorded⟩ along reaches
  exact finalInvariant.not_adopted_of_recorded finalRecorded

end AdoptionState

/-- From any records and after any events, a tick makes exactly the fires that are owed, due and not
held; the record of a job follows the versions adopted, and none is adopted twice while on record. A
fire is planned for a permitted instant, and made at one if the gates do not close in between. -/
theorem adoption_fires_made_once {records : AdoptionRecords} {events : List AdoptionEvent}
    {state : AdoptionState} (reaches : run step (.initial records) events = some state) :
    (∀ running tick, state.running = some running →
      ((state.dispatched (.tick tick)).map JobRegisterFire.jobKey).Nodup ∧
      ∀ row, row ∈ state.dispatched (.tick tick) ↔
        ∃ job trigger due, state.Owes running job trigger due ∧ due ≤ tick.now ∧
          tick.maintenanceActive = false ∧ job.queueFull tick.queue = false ∧
          row = { jobKey := job.key, configHash := job.configHash, firedAt := tick.now }) ∧
    (∀ event next key, state.step event = some next →
      (∀ row ∈ state.dispatched event, row.jobKey = key →
        recordedHashes next.records key = some row.configHash) ∧
      (event.drops key → recordedHashes next.records key = none) ∧
      ((∀ row ∈ state.dispatched event, row.jobKey ≠ key) → ¬event.drops key →
        recordedHashes next.records key = recordedHashes state.records key)) ∧
    (∀ event next row, state.step event = some next → row ∈ state.dispatched event →
      ∀ later final last, run step next later = some final →
        Along step (AdoptionState.Remembers row.jobKey row.configHash) next later →
        ∀ again ∈ final.dispatched last, again.jobKey = row.jobKey →
          again.configHash ≠ row.configHash) ∧
    (∀ running job trigger due, state.running = some running →
      state.Owes running job trigger due →
      running.loadedAt ≤ due ∧ (trigger.toFireRule.Settles → trigger.Permits due)) ∧
    ∀ running tick, state.running = some running →
      (∀ job trigger due, state.Owes running job trigger due → due ≤ tick.now →
        job.queueFull tick.queue = false →
        trigger.toFireRule.Settles ∧ trigger.Stays due tick.now) →
      ∀ row ∈ state.dispatched (.tick tick), ∀ trigger,
        running.triggers row.jobKey = some trigger → trigger.Permits tick.now := by
  have invariant := invariant_of_reached reaches
  refine ⟨?_,?_,?_,?_,?_⟩
  · intro running tick isRunning
    exact ⟨invariant.nodup_dispatched _,fun row => invariant.mem_dispatched_iff isRunning⟩
  · intro event next key stepTo
    exact invariant.recordedHashes_step stepTo key
  · intro event next row stepTo isRow later final last laterReaches along
    exact invariant.adopted_once stepTo isRow laterReaches along last
  · intro running job trigger due _ owes
    refine ⟨(Trigger.dueAt_bounds owes.isDue).1,fun settles => ?_⟩
    exact trigger.permits_dueAt settles owes.isDue
  · intro running tick isRunning meets row isRow trigger present
    obtain ⟨job,other,due,owes,isDue,-,notFull,rfl⟩ :=
      (invariant.mem_dispatched_iff isRunning).mp isRow
    rw [show trigger = other from Option.some.inj (present.symm.trans owes.present)]
    obtain ⟨settles,stays⟩ := meets job other due owes isDue notFull
    exact (other.permits_dueAt settles owes.isDue).of_stays isDue stays

def officeHours : TimeWindow where
  start := .fromHm 9 0
  stop := .fromHm 17 0

def officeTrigger : Trigger :=
  { Trigger.withBounds "catalog:sync" (.interval 3600) .utc none (some officeHours) none none 0 with
    state := .armed
    nextFireAt := none }

def officeJob : AdoptionJob where
  key := "catalog:sync"
  runOnRegister := true
  configHash := "a1"
  isEphemeral := false
  maxQueueDepth := none

def officeJobs : AdoptionJobs where
  rows := [officeJob]
  keysUnique := by decide

def officeTriggers (key : String) : Option Trigger :=
  if key = "catalog:sync" then some officeTrigger else none

def oneHour : Int := 3600 * oneSecond

def quietTick (now : Int) (maintenanceActive : Bool) : AdoptionTick where
  now := now
  maintenanceActive := maintenanceActive
  queue := []
  outcomes := fun _ => none

theorem officeTrigger_dueAt_noon : officeTrigger.dueAt (12 * oneHour) = some (12 * oneHour) :=
  rfl

theorem officeTrigger_stays : officeTrigger.Stays (12 * oneHour) (13 * oneHour) where
  gate instant notBefore inTime _ := by
    have shown : Tz.utc.toLocal (instant + 1) = instant + 1 := Int.add_zero _
    simp only [officeTrigger,Trigger.withBounds,FireRule.gateAllows,FireRule.calendarAllows,
      FireRule.windowAllows,shown,Bool.true_and,TimeWindow.contains,windowContains_iff]
    rw [if_pos (by decide)]
    simp only [officeHours,NaiveTime.fromHm,NaiveTime.secondsFromMidnight,timeOfDay,oneHour,
      oneDay,oneSecond] at *
    omega
  notLate := by rintro _ ⟨⟩

def officeFire (hour : Int) : JobRegisterFire where
  jobKey := "catalog:sync"
  configHash := "a1"
  firedAt := hour * oneHour

theorem adoption_fires_made_once_office :
    ∃ state running, run step (.initial (Table.empty _))
        [.boot officeJobs officeTriggers (12 * oneHour)] = some state ∧
      state.running = some running ∧
      officeFire 13 ∈
        state.dispatched (.tick (quietTick (13 * oneHour) false)) ∧
      officeTrigger.Permits (13 * oneHour) := by
  have ⟨state,running,reaches,isRunning,owes,only⟩ : ∃ state running,
      run step (.initial (Table.empty _))
        [.boot officeJobs officeTriggers (12 * oneHour)] = some state ∧
      state.running = some running ∧
      state.Owes running officeJob officeTrigger (12 * oneHour) ∧
      ∀ job trigger due, state.Owes running job trigger due →
        trigger = officeTrigger ∧ due = 12 * oneHour := by
    refine ⟨_,_,rfl,rfl,⟨mem_cons_self,rfl,by decide,rfl,by decide,
      officeTrigger_dueAt_noon⟩,?_⟩
    rintro job trigger due ⟨isJob,-,-,present,-,isDue⟩
    cases mem_singleton.mp isJob
    cases present
    exact ⟨rfl,Option.some.inj (isDue.symm.trans officeTrigger_dueAt_noon)⟩
  have made : officeFire 13 ∈
      state.dispatched (.tick (quietTick (13 * oneHour) false)) := by
    rw [((adoption_fires_made_once reaches).1 running _ isRunning).2]
    exact ⟨officeJob,officeTrigger,_,owes,by decide,rfl,by decide,rfl⟩
  refine ⟨state,running,reaches,isRunning,made,?_⟩
  refine (adoption_fires_made_once reaches).2.2.2.2 running _ isRunning ?_ _ made _ owes.present
  rintro job trigger due owes - -
  obtain ⟨rfl,rfl⟩ := only job trigger due owes
  exact ⟨⟨by rintro _ ⟨⟩,by rintro _ ⟨⟩⟩,officeTrigger_stays⟩

/-- Planned for noon and held by maintenance, the fire is made at six, after the window has closed.
-/
theorem adoption_fire_after_closing :
    ∃ state running, run step (.initial (Table.empty _))
        [.boot officeJobs officeTriggers (12 * oneHour),
          .tick (quietTick (12 * oneHour) true)] = some state ∧
      state.running = some running ∧ running.triggers "catalog:sync" = some officeTrigger ∧
      officeFire 18 ∈
        state.dispatched (.tick (quietTick (18 * oneHour) false)) ∧
      officeTrigger.gateAllows (18 * oneHour) = false := by
  have ⟨state,running,reaches,isRunning,owes⟩ : ∃ state running,
      run step (.initial (Table.empty _))
        [.boot officeJobs officeTriggers (12 * oneHour),
          .tick (quietTick (12 * oneHour) true)] = some state ∧
      state.running = some running ∧
      state.Owes running officeJob officeTrigger (12 * oneHour) :=
    ⟨_,_,rfl,rfl,⟨mem_cons_self,rfl,by decide,rfl,by decide,
      officeTrigger_dueAt_noon⟩⟩
  have invariant := invariant_of_reached reaches
  refine ⟨state,running,reaches,isRunning,owes.present,?_,by decide⟩
  rw [invariant.mem_dispatched_iff isRunning]
  exact ⟨officeJob,officeTrigger,_,owes,by decide,rfl,by decide,rfl⟩

end Croniq

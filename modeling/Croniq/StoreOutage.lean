import Croniq.FireHistory
import Croniq.TriggerFold

/-!
# Fires during a store outage

A tick that finds a trigger of a queued job due decides in this order:
maintenance skips the fire, a queued run may take it, a full queue skips it, the
quota of the job skips it, and only then the execution is written.
-/

namespace Croniq

open List Option Trigger

/-- The triggers of a job within a minute, on the monotonic clock. -/
structure QuotaGuard where
  recentTriggers : List Int
  maxPerMinute : Nat
deriving DecidableEq

def quotaWindow : Int := 60 * oneSecond

/-- Whether the job may fire; an allowed trigger is recorded. -/
def QuotaGuard.allow (guard : QuotaGuard) (instant : Int) : QuotaGuard × Bool :=
  let triggers := guard.recentTriggers.filter fun trigger => instant - trigger < quotaWindow
  if guard.maxPerMinute ≤ triggers.length then ({ guard with recentTriggers := triggers }, false)
  else ({ guard with recentTriggers := triggers ++ [instant] }, true)

/-- What a tick finds: the two clocks, the queue, and whether the store fails. -/
structure OutageTick where
  (now instant : Int)
  queue : List WorkItem
  (maintenanceActive storeFails : Bool)
deriving DecidableEq

/-- `created` are the fire times of the executions written. -/
structure OutageState where
  trigger : Trigger
  quota : QuotaGuard
  created : List Int

def FoldJob.foldTarget (job : FoldJob) (queue : List WorkItem) : Option WorkItem :=
  if job.coalescesScheduledFires then findForJob queue job.key WorkItem.isFoldable else none

def FoldJob.queueFull (job : FoldJob) (queue : List WorkItem) : Bool :=
  job.maxQueueDepth.getD 10 ≤ countForJob queue job.key

namespace OutageState

variable (job : FoldJob)

/-- The outcome of a tick that finds the trigger due, and the quota. -/
def outcome (quota : QuotaGuard) (tick : OutageTick) : QuotaGuard × TickOutcome :=
  if tick.maintenanceActive then (quota, .skipped (!tick.storeFails))
  else if (job.foldTarget tick.queue).isSome then (quota, .folded (!tick.storeFails))
  else if job.queueFull tick.queue then (quota, .skipped (!tick.storeFails))
  else
    let allowed := quota.allow tick.instant
    if !allowed.2 then (allowed.1, .skipped (!tick.storeFails))
    else if tick.storeFails then (allowed.1, .rolledBack)
    else (allowed.1, .dispatched)

def advance (trigger : Trigger) (fireAt now : Int) : TickOutcome → Trigger
  | .dispatched => trigger.markFired fireAt now
  | .folded _ => trigger.markFired fireAt now
  | .skipped _ => skipFire trigger fireAt now
  | .rolledBack => rollBack trigger fireAt now

def tick (state : OutageState) (tick : OutageTick) : OutageState :=
  match state.trigger.evaluate tick.now with
  | none => state
  | some fireAt =>
    let decided := outcome job state.quota tick
    { trigger := advance state.trigger fireAt tick.now decided.2
      quota := decided.1
      created := if decided.2 = .dispatched then state.created ++ [fireAt] else state.created }

def ticks (state : OutageState) (all : List OutageTick) : OutageState :=
  all.foldl (tick job) state

end OutageState

namespace Trigger

variable {trigger : Trigger} {fireAt now : Int}

section

variable (trigger : Trigger)

/-- The missed fire that a replay makes next. -/
def replayNext (fireAt : Int) : Option Int :=
  trigger.replayUntil.bind fun last => (trigger.computeNextFire fireAt).filter (· ≤ last)

def EndsReplay (fireAt : Int) : Prop :=
  trigger.replayUntil.isSome = true ∧ trigger.replayNext fireAt = none

/-- The trigger after attempts to fire that failed. -/
def attempted (fireAt : Int) : Trigger :=
  { trigger with
    replayUntil := if (trigger.replayNext fireAt).isSome then trigger.replayUntil else none }

def nextFrom (anchor : Int) : Option Int :=
  (trigger.computeNextFire anchor).filter fun next => !trigger.notAfter.any (· < next)

end

theorem evaluate_attempted : (trigger.attempted fireAt).evaluate now = trigger.evaluate now :=
  rfl

theorem attempted_of_not_endsReplay (continues : ¬ trigger.EndsReplay fireAt) :
    trigger.attempted fireAt = trigger := by
  have sameReplay :
      (if (trigger.replayNext fireAt).isSome then trigger.replayUntil else none) =
        trigger.replayUntil := by
    cases replaying : trigger.replayUntil with
    | none => simp
    | some =>
      cases next : trigger.replayNext fireAt with
      | none => exact absurd ⟨by rw [replaying]; rfl,next⟩ continues
      | some => rfl
  unfold attempted
  rw [sameReplay]

theorem attempted_of_endsReplay (ends : trigger.EndsReplay fireAt) :
    trigger.attempted fireAt = { trigger with replayUntil := none } := by
  unfold attempted
  rw [ends.2]
  rfl

theorem attempted_attempted : (trigger.attempted fireAt).attempted fireAt =
    trigger.attempted fireAt := by
  by_cases ends : trigger.EndsReplay fireAt
  · refine attempted_of_not_endsReplay fun endsAgain => ?_
    have replaying := endsAgain.1
    rw [attempted_of_endsReplay ends] at replaying
    cases replaying
  · rw [attempted_of_not_endsReplay ends,attempted_of_not_endsReplay ends]

/-- Failed attempts show only at the end of a replay, where the next fire is counted from the
anchor, not the present. -/
theorem markFired_attempted_iff :
    (trigger.attempted fireAt).markFired fireAt now = trigger.markFired fireAt now ↔
      (trigger.EndsReplay fireAt →
        trigger.nextFrom (trigger.advanceAnchor fireAt now) = trigger.nextFrom now) := by
  by_cases ends : trigger.EndsReplay fireAt
  · have noNext : (trigger.replayUntil.bind fun last =>
        (trigger.computeNextFire fireAt).filter (· ≤ last)) = none := ends.2
    rw [attempted_of_endsReplay ends]
    constructor
    · intro same _
      have sameNext := congrArg nextFireAt same
      simp only [markFired,noNext,ends.1,bind_none,isSome_none,if_true,
        Bool.false_eq_true,if_false] at sameNext
      exact sameNext
    · intro sameNext
      have kept := sameNext ends
      simp only [nextFrom] at kept
      simp only [markFired,noNext,ends.1,bind_none,isSome_none,if_true,Bool.false_eq_true,if_false]
      have sameAnchor : ({ trigger with replayUntil := none } : Trigger).advanceAnchor fireAt now =
          trigger.advanceAnchor fireAt now := rfl
      rw [sameAnchor,kept]
  · rw [attempted_of_not_endsReplay ends]
    exact ⟨fun _ isEnd => absurd isEnd ends,fun _ => rfl⟩

end Trigger

/-- Every tick that finds the fire due has no queued run for it, and room in the quota. -/
def FoldJob.Attempts (job : FoldJob) (trigger : Trigger) : QuotaGuard → List OutageTick → Prop
  | _, [] => True
  | quota, tick :: ticks =>
    if (trigger.evaluate tick.now).isSome then
      job.foldTarget tick.queue = none ∧ (quota.allow tick.instant).2 = true ∧
        job.Attempts trigger (quota.allow tick.instant).1 ticks
    else job.Attempts trigger quota ticks

/-- No maintenance, and the queue below its cap. -/
structure FoldJob.Unhindered (job : FoldJob) (tick : OutageTick) : Prop where
  noMaintenance : tick.maintenanceActive = false
  belowCap : job.queueFull tick.queue = false

namespace OutageState

variable {job : FoldJob} {state : OutageState} {tick : OutageTick} {fireAt : Int}

theorem tick_of_not_due (notDue : state.trigger.evaluate tick.now = none) :
    state.tick job tick = state := by
  unfold OutageState.tick
  rw [notDue]

theorem tick_of_attempt (due : state.trigger.evaluate tick.now = some fireAt)
    (unhindered : job.Unhindered tick) (unfolded : job.foldTarget tick.queue = none)
    (allowed : (state.quota.allow tick.instant).2 = true) :
    state.tick job tick =
      if tick.storeFails then
        { state with
          trigger := state.trigger.attempted fireAt, quota := (state.quota.allow tick.instant).1 }
      else
        { trigger := state.trigger.markFired fireAt tick.now
          quota := (state.quota.allow tick.instant).1
          created := state.created ++ [fireAt] } := by
  unfold OutageState.tick outcome
  rw [due,unhindered.noMaintenance,unfolded,unhindered.belowCap]
  simp only [Bool.false_eq_true,if_false,isSome_none,allowed,Bool.not_true]
  cases tick.storeFails <;> rfl

theorem attempts_attempted {trigger : Trigger} {quota : QuotaGuard} {ticks : List OutageTick} :
    job.Attempts (trigger.attempted fireAt) quota ticks ↔ job.Attempts trigger quota ticks := by
  induction ticks generalizing quota with
  | nil => exact Iff.rfl
  | cons tick ticks ih => simp only [FoldJob.Attempts,evaluate_attempted,ih]

theorem eq_of_evaluate {trigger : Trigger} {now other : Int}
    (pending : trigger.nextFireAt = some fireAt) (due : trigger.evaluate now = some other) :
    other = fireAt := by
  obtain ⟨-,-,-,isPending,-⟩ := evaluate_eq_some.mp due
  exact some.inj (isPending.symm.trans pending)

/-- The trigger after some failing ticks. -/
def afterFailures (trigger : Trigger) (fireAt : Int) (failing : List OutageTick) : Trigger :=
  if failing.any fun tick => (trigger.evaluate tick.now).isSome then trigger.attempted fireAt
  else trigger

variable {failing : List OutageTick} {last : OutageTick}

theorem advance_firesAfter {trigger : Trigger} (regular : trigger.toFireRule.Regular)
    {bound now : Int} (firesAfter : trigger.FiresAfter bound)
    (due : trigger.evaluate now = some fireAt) (outcome : TickOutcome) :
    (advance trigger fireAt now outcome).toFireRule = trigger.toFireRule ∧
      (advance trigger fireAt now outcome).FiresAfter bound := by
  obtain ⟨-,-,-,pending,notLater⟩ := evaluate_eq_some.mp due
  have markedLater : (trigger.markFired fireAt now).FiresAfter bound :=
    (markFired_firesAfter_fire regular notLater).mono (firesAfter fireAt pending).le
  cases outcome with
  | dispatched | folded | skipped => exact ⟨rfl,markedLater⟩
  | rolledBack => exact ⟨rfl,firesAfter⟩

section

variable (regular : state.trigger.toFireRule.Regular)
include regular

theorem count_created_of_firesAfter
    (firesAfter : state.trigger.FiresAfter fireAt) (all : List OutageTick) :
    (state.ticks job all).created.count fireAt = state.created.count fireAt := by
  induction all generalizing state with
  | nil => rfl
  | cons tick all ih =>
    rw [ticks,foldl_cons]
    cases due : state.trigger.evaluate tick.now with
    | none =>
      rw [tick_of_not_due due]
      exact ih regular firesAfter
    | some other =>
      obtain ⟨sameRule,stillAfter⟩ :=
        advance_firesAfter regular firesAfter due (outcome job state.quota tick).2
      obtain ⟨-,-,-,pending,-⟩ := evaluate_eq_some.mp due
      have differs : other ≠ fireAt := (firesAfter other pending).ne'
      have next : state.tick job tick =
          { trigger := advance state.trigger other tick.now (outcome job state.quota tick).2
            quota := (outcome job state.quota tick).1
            created :=
              if (outcome job state.quota tick).2 = .dispatched then state.created ++ [other]
              else state.created } := by
        unfold OutageState.tick
        rw [due]
      rw [next]
      refine (ih (by rw [sameRule]; exact regular) stillAfter).trans ?_
      split
      · rw [count_append,count_singleton,if_neg (by simpa using differs),Nat.add_zero]
      · rfl

/-- A fire passed over at a tick is never made. -/
theorem count_created_of_no_attempt
    (due : state.trigger.evaluate tick.now = some fireAt) (unhindered : job.Unhindered tick)
    (noAttempt : ¬ (job.foldTarget tick.queue = none ∧ (state.quota.allow tick.instant).2 = true))
    (rest : List OutageTick) :
    (state.ticks job (tick :: rest)).created.count fireAt = state.created.count fireAt := by
  have passed : (state.tick job tick).trigger.toFireRule.Regular ∧
      (state.tick job tick).trigger.FiresAfter fireAt ∧
      (state.tick job tick).created = state.created := by
    obtain ⟨-,-,-,-,notLater⟩ := evaluate_eq_some.mp due
    have markedLater := markFired_firesAfter_fire regular notLater
    unfold OutageState.tick outcome
    rw [due,unhindered.noMaintenance,unhindered.belowCap]
    cases target : job.foldTarget tick.queue with
    | some => exact ⟨regular,markedLater,rfl⟩
    | none =>
      have refused : (state.quota.allow tick.instant).2 = false := by
        rw [Bool.eq_false_iff]
        exact fun allowed => noAttempt ⟨target,allowed⟩
      simp only [Bool.false_eq_true,if_false,isSome_none,refused,Bool.not_false,if_true]
      exact ⟨regular,markedLater,rfl⟩
  rw [ticks,foldl_cons,← passed.2.2]
  exact count_created_of_firesAfter passed.1 passed.2.1 rest

end

/-- The fire is made by the last tick if it is due there and was attempted whenever it was due. -/
theorem ticks_outage (pending : state.trigger.nextFireAt = some fireAt)
    (unhindered : ∀ tick ∈ failing ++ [last], job.Unhindered tick)
    (fails : ∀ tick ∈ failing, tick.storeFails = true) (works : last.storeFails = false) :
    (state.trigger.evaluate last.now = some fireAt →
      job.Attempts state.trigger state.quota (failing ++ [last]) →
      ∃ quota, state.ticks job (failing ++ [last]) =
        { trigger := (afterFailures state.trigger fireAt failing).markFired fireAt last.now
          quota
          created := state.created ++ [fireAt] }) ∧
    (state.trigger.toFireRule.Regular →
      (state.ticks job (failing ++ [last])).created.count fireAt = state.created.count fireAt + 1 →
      state.trigger.evaluate last.now = some fireAt ∧
        job.Attempts state.trigger state.quota (failing ++ [last])) := by
  induction failing generalizing state with
  | nil =>
    have unhinderedLast := unhindered last mem_cons_self
    cases due : state.trigger.evaluate last.now with
    | none =>
      have same : state.ticks job ([] ++ [last]) = state := tick_of_not_due due
      rw [same]
      exact ⟨nofun,fun _ made => by omega⟩
    | some other =>
      obtain rfl := eq_of_evaluate pending due
      simp only [nil_append,FoldJob.Attempts,due,isSome_some,if_true,and_true]
      by_cases attempt : job.foldTarget last.queue = none ∧
          (state.quota.allow last.instant).2 = true
      · have fired := tick_of_attempt due unhinderedLast attempt.1 attempt.2
        rw [works] at fired
        exact ⟨fun _ _ => ⟨_,fired⟩,fun _ _ => ⟨trivial,attempt⟩⟩
      · refine ⟨fun _ attempts => absurd attempts attempt,fun regular made => ?_⟩
        have := count_created_of_no_attempt regular due unhinderedLast attempt []
        omega
  | cons tick failing ih =>
    obtain ⟨unhinderedNow,later⟩ := forall_mem_cons.mp unhindered
    obtain ⟨failsNow,laterFails⟩ := forall_mem_cons.mp fails
    cases dueNow : state.trigger.evaluate tick.now with
    | none =>
      have same : state.ticks job (tick :: (failing ++ [last])) =
          state.ticks job (failing ++ [last]) := by
        rw [ticks,foldl_cons,tick_of_not_due dueNow]
        rfl
      have sameAfter : afterFailures state.trigger fireAt (tick :: failing) =
          afterFailures state.trigger fireAt failing := by
        simp [afterFailures,dueNow]
      simp only [cons_append,same,sameAfter,FoldJob.Attempts,dueNow,isSome_none,
        Bool.false_eq_true,if_false]
      exact ih pending later laterFails
    | some other =>
      obtain rfl := eq_of_evaluate pending dueNow
      simp only [cons_append,FoldJob.Attempts,dueNow,isSome_some,if_true]
      by_cases attempt : job.foldTarget tick.queue = none ∧
          (state.quota.allow tick.instant).2 = true
      · have failed := tick_of_attempt dueNow unhinderedNow attempt.1 attempt.2
        rw [if_pos failsNow] at failed
        have sameAfter : afterFailures state.trigger other (tick :: failing) =
            afterFailures (state.trigger.attempted other) other failing := by
          simp [afterFailures,dueNow,attempted_attempted]
        rw [ticks,foldl_cons,failed,sameAfter]
        simp only [attempt.1,attempt.2,true_and]
        rw [← @attempts_attempted job other]
        exact @ih ⟨state.trigger.attempted other,(state.quota.allow tick.instant).1,state.created⟩
          pending later laterFails
      · refine ⟨fun _ attempts => absurd ⟨attempts.1,attempts.2.1⟩ attempt,fun regular made => ?_⟩
        have := count_created_of_no_attempt regular dueNow unhinderedNow attempt (failing ++ [last])
        omega

end OutageState

open OutageState

/-- Ticks of a job during an outage that ends with the last one. -/
structure FoldJob.Outage (job : FoldJob) (failing : List OutageTick) (last : OutageTick) :
    Prop where
  unhindered : ∀ tick ∈ failing ++ [last], job.Unhindered tick
  fails : ∀ tick ∈ failing, tick.storeFails = true
  works : last.storeFails = false

/-- The fire is due when the outage ends, every attempt reached the store, and a fire that ends a
replay is followed by the same fire either way. -/
structure FoldJob.Recovers (job : FoldJob) (trigger : Trigger) (quota : QuotaGuard)
    (failing : List OutageTick) (last : OutageTick) (fireAt : Int) : Prop where
  due : trigger.evaluate last.now = some fireAt
  attempts : job.Attempts trigger quota (failing ++ [last])
  replay : failing ≠ [] → trigger.EndsReplay fireAt →
    trigger.nextFrom (trigger.advanceAnchor fireAt last.now) = trigger.nextFrom last.now

/-- A fire due when the store begins to fail is made once and leaves the trigger as a first
attempt at the last tick would, if it recovers; and only then, unless the interval is zero
seconds. -/
theorem outage_keeps_fire (job : FoldJob) (trigger : Trigger) (quota : QuotaGuard)
    (failing : List OutageTick) (last : OutageTick) (fireAt : Int)
    (due : ∀ tick, (failing ++ [last]).head? = some tick → trigger.evaluate tick.now = some fireAt)
    (outage : job.Outage failing last) : (job.Recovers trigger quota failing last fireAt →
      ((⟨trigger,quota,[]⟩ : OutageState).ticks job (failing ++ [last])).created = [fireAt] ∧
        ((⟨trigger,quota,[]⟩ : OutageState).ticks job (failing ++ [last])).trigger =
          trigger.markFired fireAt last.now) ∧
    (trigger.toFireRule.Regular →
      ((⟨trigger,quota,[]⟩ : OutageState).ticks job (failing ++ [last])).created.count fireAt = 1 ∧
        ((⟨trigger,quota,[]⟩ : OutageState).ticks job (failing ++ [last])).trigger =
          trigger.markFired fireAt last.now → job.Recovers trigger quota failing last fireAt) := by
  have pending : trigger.nextFireAt = some fireAt := by
    obtain ⟨first,isFirst⟩ : ∃ first, (failing ++ [last]).head? = some first := by
      cases failing with
      | nil => exact ⟨last,rfl⟩
      | cons first => exact ⟨first,rfl⟩
    exact (evaluate_eq_some.mp (due first isFirst)).2.2.2.1
  have after : afterFailures trigger fireAt failing =
      if failing = [] then trigger else trigger.attempted fireAt := by
    cases failing with
    | nil => rfl
    | cons first => simp [afterFailures,due first rfl]
  have ⟨final,converse⟩ := @ticks_outage job ⟨trigger,quota,[]⟩ fireAt failing last pending
    outage.unhindered outage.fails outage.works
  constructor
  · intro recovers
    obtain ⟨quotaAfter,ends⟩ := final recovers.due recovers.attempts
    rw [ends,after]
    refine ⟨rfl,?_⟩
    split
    · rfl
    · rename_i failed
      exact markFired_attempted_iff.mpr (recovers.replay failed)
  · rintro regular ⟨made,continues⟩
    obtain ⟨dueLast,attempts⟩ := converse regular made
    refine ⟨dueLast,attempts,fun failed => ?_⟩
    obtain ⟨quotaAfter,ends⟩ := final dueLast attempts
    rw [ends,after,if_neg failed] at continues
    exact markFired_attempted_iff.mp continues

def minutelyJob : FoldJob where
  key := "reports:sync"
  metadata := []
  maxQueueDepth := none
  require := []

def minutelyTrigger : Trigger :=
  (plainSpec (.interval 60)).build 0

def tickAt (seconds : Int) (storeFails : Bool) : OutageTick where
  now := seconds * 1000000000
  instant := seconds * 1000000000
  queue := []
  maintenanceActive := false
  storeFails := storeFails

theorem outage_minutelyJob (first second : Int) :
    minutelyJob.Outage [tickAt first true] (tickAt second false) where
  unhindered := by
    intro tick member
    have noneQueued : tick.maintenanceActive = false ∧ tick.queue = [] := by
      rcases mem_cons.mp member with rfl | isLast
      · exact ⟨rfl,rfl⟩
      · cases mem_singleton.mp isLast
        exact ⟨rfl,rfl⟩
    exact ⟨noneQueued.1,by rw [noneQueued.2]; rfl⟩
  fails := by
    intro tick member
    cases mem_singleton.mp member
    rfl
  works := rfl

/-- The first of two ticks meets the outage. -/
def outageRun (trigger : Trigger) (perMinute : Nat) (first second : Int) : OutageState :=
  (⟨trigger,⟨[],perMinute⟩,[]⟩ : OutageState).ticks minutelyJob
    ([tickAt first true] ++ [tickAt second false])

theorem outage_keeps_fire_minutely :
    (outageRun minutelyTrigger 60 60 61).created = [60000000000] ∧
      (outageRun minutelyTrigger 60 60 61).trigger =
        minutelyTrigger.markFired 60000000000 61000000000 := by
  refine (outage_keeps_fire minutelyJob minutelyTrigger ⟨[],60⟩ [tickAt 60 true] (tickAt 61 false)
    60000000000 ?_ (outage_minutelyJob 60 61)).1 ⟨by decide,?_,?_⟩
  · intro tick isFirst
    cases isFirst
    decide
  · have dueFirst : (minutelyTrigger.evaluate (tickAt 60 true).now).isSome = true := by decide
    have dueLast : (minutelyTrigger.evaluate (tickAt 61 false).now).isSome = true := by decide
    exact ⟨rfl,by decide,rfl,by decide,trivial⟩
  · rintro - ⟨replaying,-⟩
    cases replaying

/-- A failed attempt uses up a quota of one a minute; at the end of a replay it moves the next fire.
-/
theorem outage_loses_fire : (minutelyJob.Outage [tickAt 60 true] (tickAt 61 false) ∧
      minutelyTrigger.evaluate (tickAt 60 true).now = some 60000000000 ∧
      (outageRun minutelyTrigger 1 60 61).created = [] ∧
      (outageRun minutelyTrigger 1 60 61).trigger.nextFireAt = some 120000000000) ∧
    ((outageRun { minutelyTrigger with replayUntil := some 60000000000 }
        60 70 71).trigger.nextFireAt = some 120000000000 ∧
      (({ minutelyTrigger with replayUntil := some 60000000000 } : Trigger).markFired 60000000000
        (tickAt 71 false).now).nextFireAt = some 131000000000) :=
  ⟨⟨outage_minutelyJob 60 61,by decide,by decide,by decide⟩,by decide,by decide⟩

end Croniq

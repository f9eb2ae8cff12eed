import Croniq.TriggerLifecycle

/-!
# Taking over a trigger: reload and restart

A trigger is rebuilt when its job is edited, when the configuration is reloaded
and at every start of the server.
-/

namespace Croniq

open List

inductive JobStatus where
  | active | paused | disabled | exhausted
deriving DecidableEq

structure JobState where
  jobKey : String
  (nextFireAt lastFiredAt : Option Int)
  fireCount : Nat
  status : JobStatus
  updatedAt : Int
deriving DecidableEq

/-- A job's trigger as defined; `faulted` means an unresolved calendar or an unreadable time. -/
structure TriggerSpec extends FireRule where
  jobKey : String
  (notBefore notAfter : Option Int)
  missedFires : MissedFires
  faulted : Bool
deriving DecidableEq

variable (spec : TriggerSpec)

/-- A faulted trigger is built paused. -/
def TriggerSpec.build (now : Int) : Trigger :=
  let trigger : Trigger :=
    { Trigger.withBounds spec.jobKey spec.schedule spec.timezone spec.calendar spec.window
        spec.notBefore spec.notAfter now with
      missedFires := spec.missedFires }
  if spec.faulted then trigger.pause else trigger

def TriggerSpec.definition : String × FireRule × Option Int × Option Int × MissedFires :=
  (spec.jobKey, spec.toFireRule, spec.notBefore, spec.notAfter, spec.missedFires)

theorem Trigger.definition_build (now : Int) : (spec.build now).definition = spec.definition := by
  unfold TriggerSpec.build
  split <;> rfl

/-- A definition on the universal clock without gates and bounds. -/
def plainSpec (schedule : Schedule) : TriggerSpec where
  schedule := schedule
  timezone := .utc
  calendar := none
  window := none
  jobKey := "reports:sync"
  notBefore := none
  notAfter := none
  missedFires := .once
  faulted := false

def Schedule.isRecurring : Schedule → Bool
  | .once _ | .disabled => false
  | _ => true

/-- An exhausted trigger is final only for a schedule that does not recur. -/
def carryOverState (old new : Trigger) (now : Int) : Trigger :=
  let counted : Trigger := { new with fireCount := old.fireCount, lastFiredAt := old.lastFiredAt }
  if old.state = .exhausted then
    if new.schedule.isRecurring then counted
    else { counted with state := .exhausted, nextFireAt := none }
  else
    match old.nextFireAt with
    | none => counted
    | some pending =>
      let carried := counted.carryOverPendingFire pending now
      if carried.2 = .adopted then { carried.1 with replayUntil := old.replayUntil }
      else carried.1

theorem definition_carryOverState (old new : Trigger) (now : Int) :
    (carryOverState old new now).definition = new.definition := by
  unfold carryOverState
  dsimp only
  split
  · split <;> rfl
  split
  · rfl
  · split
    · exact Trigger.definition_carryOverPendingFire _ _ _
    · exact Trigger.definition_carryOverPendingFire _ _ _

/-- The status of the trigger, not the one the row remembered. -/
def healedStatus : TriggerState → JobStatus
  | .paused => .disabled
  | .exhausted => .exhausted
  | _ => .active

variable (trigger : Trigger)

/-- The row to write after a restore, if it is another. -/
def persistHealedState (stored : JobState) (now : Int) : Option JobState :=
  if healedStatus trigger.state = stored.status ∧ trigger.nextFireAt = stored.nextFireAt then none
  else
    some
      { jobKey := stored.jobKey, nextFireAt := trigger.nextFireAt
        lastFiredAt := stored.lastFiredAt, fireCount := trigger.fireCount
        status := healedStatus trigger.state, updatedAt := now }

/-- The plan for missed fires replaced the pending fire. -/
def MissedPlan.movesPending : MissedPlan → Bool
  | .replay _ _ | .skipped => true
  | _ => false

/-- Restore one trigger: the trigger, and the row to write back. -/
def restoreTriggerState (jobState : JobState) (now : Int) : Trigger × Option JobState :=
  let pastNotAfter := trigger.notAfter.any (· < now)
  match jobState.status with
  | .exhausted =>
    if trigger.schedule.isRecurring && !pastNotAfter then
      let resumed := { trigger with fireCount := jobState.fireCount }.resume now
      (resumed, persistHealedState resumed jobState now)
    else ({ trigger with state := .exhausted, nextFireAt := none }, none)
  | .active =>
    if pastNotAfter then
      let ended : Trigger :=
        { trigger with fireCount := jobState.fireCount, state := .exhausted, nextFireAt := none }
      (ended, persistHealedState ended jobState now)
    else
      match jobState.nextFireAt with
      | none => (trigger, none)
      | some stored =>
        let carried :=
          { trigger with fireCount := jobState.fireCount }.carryOverPendingFire stored now
        if carried.2 = .adopted then
          let planned := carried.1.planMissedFires now
          (planned.1,
            if planned.2.movesPending then persistHealedState planned.1 jobState now else none)
        else (carried.1, persistHealedState carried.1 jobState now)
  | .paused => (trigger, none)
  | .disabled => (trigger, none)

theorem Trigger.definition_restoreTriggerState (jobState : JobState)
    (now : Int) : (restoreTriggerState trigger jobState now).1.definition = trigger.definition := by
  unfold restoreTriggerState
  cases jobState.status with
  | exhausted => dsimp only; split <;> rfl
  | active =>
    dsimp only
    split
    · rfl
    split
    · rfl
    split
    · exact (Trigger.definition_planMissedFires _ now).trans
        (Trigger.definition_carryOverPendingFire _ _ now)
    · exact Trigger.definition_carryOverPendingFire _ _ now
  | paused => rfl
  | disabled => rfl

/-- The job state rows of the store, one for each job key. -/
structure JobStates where
  rows : List JobState
  keysUnique : (rows.map JobState.jobKey).Nodup

/-- Restore the trigger of a row; a row whose job is gone is ignored. -/
def restoreFromRow (now : Int) (triggers : String → Option Trigger) (jobState : JobState) :
    String → Option Trigger :=
  fun key =>
    if key = jobState.jobKey then
      (triggers key).map fun trigger => (restoreTriggerState trigger jobState now).1
    else triggers key

/-- Restore row after row; without the rows every trigger stays as loaded. -/
def restoreTriggerStates (triggers : String → Option Trigger) (states : Option JobStates)
    (now : Int) : String → Option Trigger :=
  match states with
  | none => triggers
  | some states => states.rows.foldl (restoreFromRow now) triggers

variable {triggers : String → Option Trigger}

theorem foldl_restoreFromRow_of_notMem
    {rows : List JobState} {now : Int} {key : String} (notMem : key ∉ rows.map JobState.jobKey) :
    rows.foldl (restoreFromRow now) triggers key = triggers key := by
  induction rows generalizing triggers with
  | nil => rfl
  | cons head rows ih =>
    rw [map_cons,mem_cons,not_or] at notMem
    rw [foldl_cons,ih notMem.2]
    exact if_neg notMem.1

theorem restoreTriggerStates_of_mem
    (states : JobStates) (now : Int) {jobState : JobState} {trigger : Trigger}
    (mem : jobState ∈ states.rows) (loaded : triggers jobState.jobKey = some trigger) :
    restoreTriggerStates triggers (some states) now jobState.jobKey =
      some (restoreTriggerState trigger jobState now).1 := by
  obtain ⟨rows,keysUnique⟩ := states
  change rows.foldl (restoreFromRow now) triggers jobState.jobKey = _
  induction rows generalizing triggers with
  | nil => cases mem
  | cons head rows ih =>
    obtain ⟨headNotMem,rowsUnique⟩ := nodup_cons.mp keysUnique
    rw [foldl_cons]
    rcases mem_cons.mp mem with rfl | memRows
    · rw [foldl_restoreFromRow_of_notMem headNotMem]
      simp [restoreFromRow,loaded]
    have keyNe : jobState.jobKey ≠ head.jobKey := by
      intro sameKey
      exact headNotMem (sameKey ▸ mem_map_of_mem memRows)
    apply ih _ rowsUnique memRows
    simp [restoreFromRow,keyNe,loaded]

end Croniq

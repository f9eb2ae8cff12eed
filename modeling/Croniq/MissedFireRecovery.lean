import Croniq.PendingFireBounds

/-!
# A fire missed while the server was down

A restart adopts the pending fire of an active row that the schedule and the
gates still admit.
-/

namespace Croniq

namespace Trigger

/-- The trigger is armed, and its pending fire has come. -/
def Due (trigger : Trigger) (now : Int) : Prop :=
  trigger.state = .armed ∧ ∃ fire, trigger.nextFireAt = some fire ∧ fire ≤ now

theorem Due.evaluate {trigger : Trigger} {now : Int} (due : trigger.Due now)
    (unbounded : trigger.notBefore = none ∧ trigger.notAfter = none) :
    ∃ fire, trigger.evaluate now = some fire := by
  obtain ⟨armed,fire,pending,come⟩ := due
  exact ⟨fire,evaluate_eq_some.mpr
    ⟨armed,by simp [unbounded.1],by simp [unbounded.2],pending,come⟩⟩

theorem planMissedFires_due {trigger : Trigger} {now : Int} (due : trigger.Due now)
    (notSkipped : trigger.missedFires ≠ .skip) : (trigger.planMissedFires now).1.Due now := by
  obtain ⟨armed,fire,pending,come⟩ := due
  have unchanged : trigger.Due now := ⟨armed,fire,pending,come⟩
  unfold planMissedFires
  split
  · exact unchanged
  rename_i first missed
  rw [if_neg (not_not.mpr armed)]
  split
  · exact unchanged
  · rename_i skips
    exact absurd skips notSkipped
  split
  · exact unchanged
  rename_i kept total walked
  have firstDue : first < now := by simpa using (Option.filter_eq_some_iff.mp missed).2
  obtain ⟨nonempty,keptDue⟩ := property_of_missedWalk (fun _ _ _ _ come => come)
    (by simp) (by simpa using firstDue.le) firstDue.le walked
  obtain ⟨head,tail,rfl⟩ := List.exists_cons_of_ne_nil nonempty
  exact ⟨armed,head,rfl,keptDue head List.mem_cons_self⟩

end Trigger

theorem TriggerSpec.build_armed {spec : TriggerSpec} {built : Int}
    (sound : spec.faulted = false) (enabled : spec.schedule ≠ .disabled)
    (toCome : (spec.computeNextFire built).isSome = true) : (spec.build built).state = .armed := by
  simp [TriggerSpec.build,sound,Trigger.withBounds,enabled,toCome]

variable {trigger : Trigger} {jobState : JobState} {stored : Int}

theorem restoreTriggerState_due {now : Int}
    (armed : trigger.state = .armed) (enabled : trigger.schedule ≠ .disabled)
    (unbounded : trigger.notBefore = none ∧ trigger.notAfter = none)
    (notSkipped : trigger.missedFires ≠ .skip) (active : jobState.status = .active)
    (pending : jobState.nextFireAt = some stored) (come : stored ≤ now)
    (allowed : trigger.gateAllows stored = true) :
    ∃ fire, (restoreTriggerState trigger jobState now).1.evaluate now = some fire := by
  have notPast : trigger.notAfter.any (· < now) = false := by simp [unbounded.2]
  simp only [restoreTriggerState,active,notPast,Bool.false_eq_true,if_false,pending,
    Trigger.carryOverPendingFire,enabled,allowed,Bool.not_true]
  cases fresh : (trigger.computeNextFire now).filter (· < stored) with
  | some earlier =>
    have beforeStored : earlier < stored := by simpa using (Option.filter_eq_some_iff.mp fresh).2
    refine Trigger.Due.evaluate ⟨armed,earlier,rfl,?_⟩ unbounded
    omega
  | none =>
    refine Trigger.Due.evaluate (Trigger.planMissedFires_due ?_ notSkipped) ?_
    · exact ⟨armed,stored,rfl,come⟩
    · have same := Trigger.definition_planMissedFires { trigger with
        fireCount := jobState.fireCount, nextFireAt := some stored } now
      exact ⟨(congrArg (·.2.2.1) same).trans unbounded.1,
        (congrArg (·.2.2.2.1) same).trans unbounded.2⟩

theorem TriggerSpec.build_bounds (spec : TriggerSpec) (built : Int) :
    (spec.build built).notBefore = spec.notBefore ∧
      (spec.build built).notAfter = spec.notAfter ∧
      (spec.build built).missedFires = spec.missedFires := by
  unfold TriggerSpec.build
  split <;> exact ⟨rfl,rfl,rfl⟩

/-- A fire missed while the server was down is due after the restart if the schedule is not disabled
and has a fire to come. A disabled schedule drops it. -/
theorem missedFire_due_after_restart (spec : TriggerSpec) (built now stored : Int)
    (triggers : String → Option Trigger) (states : JobStates) (jobState : JobState)
    (loaded : triggers jobState.jobKey = some (spec.build built)) (sound : spec.faulted = false)
    (unbounded : spec.notBefore = none ∧ spec.notAfter = none)
    (notSkipped : spec.missedFires ≠ .skip) (isRow : jobState ∈ states.rows)
    (active : jobState.status = .active) (pending : jobState.nextFireAt = some stored)
    (come : stored ≤ now) (allowed : spec.gateAllows stored = true) :
    (spec.schedule ≠ .disabled → (spec.computeNextFire built).isSome = true →
      ∃ trigger fire,
        restoreTriggerStates triggers (some states) now jobState.jobKey = some trigger ∧
        trigger.evaluate now = some fire) ∧
    (spec.schedule = .disabled →
      ∃ trigger,
        restoreTriggerStates triggers (some states) now jobState.jobKey = some trigger ∧
        trigger.state = .paused ∧ ∀ later, trigger.evaluate later = none) := by
  have restored := restoreTriggerStates_of_mem states now isRow loaded
  obtain ⟨sameBefore,sameAfter,samePolicy⟩ := spec.build_bounds built
  have sameRule := Trigger.build_toFireRule spec built
  constructor
  · intro enabled toCome
    obtain ⟨fire,due⟩ := restoreTriggerState_due
      (spec.build_armed sound enabled toCome) (by rw [sameRule]; exact enabled)
      ⟨sameBefore.trans unbounded.1,sameAfter.trans unbounded.2⟩
      (by rw [samePolicy]; exact notSkipped) active pending come (by rw [sameRule]; exact allowed)
    exact ⟨_,fire,restored,due⟩
  · intro disabled
    have isDisabled : (spec.build built).schedule = .disabled := by rw [sameRule]; exact disabled
    have paused : (restoreTriggerState (spec.build built) jobState now).1.state = .paused := by
      simp [restoreTriggerState,active,sameAfter.trans unbounded.2,pending,
        Trigger.carryOverPendingFire,isDisabled]
    exact ⟨_,restored,paused,fun later => by simp [Trigger.evaluate,paused]⟩

/-- One job, and one pending fire of it on record. -/
def oneJob (spec : TriggerSpec) (built : Int) : String → Option Trigger :=
  fun key => if key = "reports:sync" then some (spec.build built) else none

def onePendingRow (stored : Int) : JobState where
  jobKey := "reports:sync"
  nextFireAt := some stored
  lastFiredAt := none
  fireCount := 0
  status := .active
  updatedAt := 0

def oneRow (jobState : JobState) : JobStates :=
  ⟨[jobState],by simp⟩

/-- A job every minute, restarted after its pending fire. -/
theorem missedFire_due_after_restart_everyMinute :
    ∃ trigger fire,
      restoreTriggerStates (oneJob (plainSpec (.interval 60)) 100)
          (some (oneRow (onePendingRow 50))) 100 "reports:sync" = some trigger ∧
        trigger.evaluate 100 = some fire :=
  (missedFire_due_after_restart (plainSpec (.interval 60)) 100 100 50
    (oneJob (plainSpec (.interval 60)) 100) (oneRow (onePendingRow 50)) (onePendingRow 50) rfl rfl
    ⟨rfl,rfl⟩ (by decide) List.mem_cons_self rfl rfl (by decide) (by decide)).1 (by decide)
    (by decide)

/-- A disabled schedule drops its pending fire, and so does a one-off schedule whose instant has
passed. -/
theorem missedFire_not_due : ((plainSpec .disabled).gateAllows 50 = true ∧
      (restoreTriggerStates (oneJob (plainSpec .disabled) 100) (some (oneRow (onePendingRow 50)))
        100 "reports:sync").map (·.evaluate 100) = some none) ∧
    ((plainSpec (.once 50)).gateAllows 50 = true ∧
      (restoreTriggerStates (oneJob (plainSpec (.once 50)) 100) (some (oneRow (onePendingRow 50)))
        100 "reports:sync").map (·.evaluate 100) = some none) := by
  have restored : ∀ spec, restoreTriggerStates (oneJob spec 100)
      (some (oneRow (onePendingRow 50))) 100 "reports:sync" =
        some (restoreTriggerState (spec.build 100) (onePendingRow 50) 100).1 := by
    intro spec
    exact restoreTriggerStates_of_mem (oneRow (onePendingRow 50)) 100 List.mem_cons_self rfl
  decide

end Croniq

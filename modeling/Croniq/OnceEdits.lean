import Croniq.FireHistory
import Croniq.MissedFireRecovery

/-!
# Editing a job that has run once

The one fire of a one-off schedule exhausts its trigger, and the row of the job
says so.
-/

namespace Croniq

open FireState LabelledRuns Trigger

theorem FireRule.computeNextFire_once {rule : FireRule} {instant after : Int}
    (once : rule.schedule = .once instant) (passed : instant ≤ after) :
    rule.computeNextFire after = none := by
  have notBefore : ¬after < instant := by omega
  simp [computeNextFire,once,Schedule.nextFireAfter,notBefore]

variable {trigger : Trigger}

theorem TriggerSpec.isRecurring_build (spec : TriggerSpec) (built : Int) :
    (spec.build built).schedule.isRecurring = spec.schedule.isRecurring := by
  rw [build_toFireRule spec built]

namespace FireState

structure Spent (state : FireState) : Prop where
  trigger : ∃ trigger, state.trigger = some trigger ∧ trigger.state = .exhausted
  row : ∃ row, state.row = some row ∧ row.status = .exhausted

theorem spent_of_once {state next : FireState} {instant now : Int}
    {outcome : TickOutcome} (held : state.trigger = some trigger)
    (once : trigger.schedule = .once instant) (due : trigger.evaluate now = some instant)
    (made : outcome = .dispatched ∨ outcome = .folded true)
    (step : state.step (.tick now outcome) = some next) : next.Spent := by
  have passed : instant ≤ now := (evaluate_eq_some.mp due).2.2.2.2
  have noReplay : trigger.computeNextFire instant = none :=
    FireRule.computeNextFire_once once (Int.le_refl instant)
  have noNext : trigger.computeNextFire now = none := FireRule.computeNextFire_once once passed
  have anchor : trigger.advanceAnchor instant now = now := by simp [advanceAnchor,once]
  have exhausted : (trigger.markFired instant now).state = .exhausted := by
    cases replay : trigger.replayUntil <;> simp [markFired,replay,noReplay,noNext,anchor]
  simp only [FireState.step,held,due] at step
  split at step
  · cases step
  cases step
  rcases made with rfl | rfl <;>
    exact ⟨⟨_,rfl,exhausted⟩,⟨_,rfl,by simp [advancedJobState,exhausted]⟩⟩

end FireState

/-- Ticks, and reloads and restarts under which the schedule does not recur. A restart can read the
rows. -/
def FireEvent.KeepsOnce : FireEvent → Prop
  | .tick _ _ => True
  | .rebuild spec _ _ => spec.schedule.isRecurring = false
  | .restart (some spec) _ _ listed _ => spec.schedule.isRecurring = false ∧ listed = true
  | _ => False

namespace FireState

variable {state next : FireState} {spec : TriggerSpec} {event : FireEvent} {built now : Int}

theorem Spent.step (spent : state.Spent) (keeps : event.KeepsOnce)
    (step : state.step event = some next) : next.Spent ∧ next.fired = state.fired := by
  obtain ⟨⟨trigger,held,exhausted⟩,⟨row,stored,status⟩⟩ := spent
  cases event with
  | tick now =>
    have notDue : trigger.evaluate now = none := by simp [evaluate,exhausted]
    simp only [FireState.step,held,notDue] at step
    split at step <;> cases step
    exact ⟨⟨⟨trigger,rfl,exhausted⟩,⟨row,stored,status⟩⟩,rfl⟩
  | rebuild spec built =>
    have final := (spec.isRecurring_build built).trans keeps
    simp only [FireState.step,held,rebuiltTrigger] at step
    split at step <;> cases step
    refine ⟨⟨⟨_,rfl,?_⟩,⟨row,stored,status⟩⟩,rfl⟩
    simp [carryOverState,exhausted,final]
  | remove => exact keeps.elim
  | restart spec built =>
    cases spec with
    | none => exact keeps.elim
    | some spec =>
      obtain ⟨final,rfl⟩ := keeps
      have final := (spec.isRecurring_build built).trans final
      simp only [FireState.step,restartedTrigger,stored,if_true] at step
      split at step <;> cases step
      refine ⟨⟨⟨_,rfl,?_⟩,⟨row,?_,status⟩⟩,rfl⟩
      · simp [restoreTriggerState,status,final]
      · simp [restoreTriggerState,status,final]

theorem Spent.run {final : FireState} {events : List FireEvent} (spent : state.Spent)
    (keeps : ∀ event ∈ events, event.KeepsOnce)
    (reaches : LabelledRuns.run FireState.step state events = some final) :
    final.Spent ∧ final.fired = state.fired := by
  have preserved : ∀ (before : FireState) (event : FireEvent) (after : FireState),
      before.Spent ∧ before.fired = state.fired → event.KeepsOnce →
        before.step event = some after → after.Spent ∧ after.fired = state.fired := by
    intro before event after held keeps step
    obtain ⟨spent,sameFired⟩ := held.1.step keeps step
    exact ⟨spent,sameFired.trans held.2⟩
  have along : Along FireState.step (fun _ event => event.KeepsOnce) state events :=
    along_of_forall_mem (fun event member _ => keeps event member) state
  exact invariant_of_along preserved ⟨spent,rfl⟩ along reaches

/-- The trigger has the schedule and this next fire; if there is one it is armed, and the first tick
from then on within the bounds makes it. -/
def RunsFrom (state : FireState) (spec : TriggerSpec) (next : Option Int) : Prop :=
  ∃ trigger, state.trigger = some trigger ∧ trigger.toFireRule = spec.toFireRule ∧
    trigger.nextFireAt = next ∧
    ∀ fire, next = some fire → trigger.state = .armed ∧
      ∀ now, state.clock ≤ now → fire ≤ now → spec.notBefore.any (now < ·) = false →
        spec.notAfter.any (· < now) = false →
          ∃ after, state.step (.tick now .dispatched) = some after ∧
            after.fired = fire :: state.fired

theorem runsFrom_of_armed {next : Option Int}
    (held : state.trigger = some trigger) (rule : trigger.toFireRule = spec.toFireRule)
    (bounds : trigger.notBefore = spec.notBefore ∧ trigger.notAfter = spec.notAfter)
    (pending : trigger.nextFireAt = next) (armed : next.isSome = true → trigger.state = .armed) :
    state.RunsFrom spec next := by
  refine ⟨trigger,held,rule,pending,fun fire isNext => ⟨armed (by simp [isNext]),?_⟩⟩
  intro now later come early late
  have due : trigger.evaluate now = some fire := by
    rw [evaluate_eq_some,bounds.1,bounds.2]
    exact ⟨armed (by simp [isNext]),early,late,pending.trans isNext,come⟩
  refine ⟨state.settle trigger fire now .dispatched,?_,rfl⟩
  simp [step,held,due,Int.not_lt.mpr later]

theorem Spent.rebuild (spent : state.Spent) (recurs : spec.schedule.isRecurring = true)
    (sound : spec.faulted = false) (step : state.step (.rebuild spec built now) = some next) :
    next.RunsFrom spec (spec.computeNextFire built) := by
  obtain ⟨⟨trigger,held,exhausted⟩,-⟩ := spent
  have enabled : spec.schedule ≠ .disabled := by
    intro disabled
    rw [disabled] at recurs
    cases recurs
  have builtEq : spec.build built =
      { withBounds spec.jobKey spec.schedule spec.timezone spec.calendar spec.window
          spec.notBefore spec.notAfter built with missedFires := spec.missedFires } := by
    simp [TriggerSpec.build,sound]
  have pending : (spec.build built).nextFireAt = spec.computeNextFire built := by
    simp [builtEq,withBounds,enabled]
  have armed : (spec.computeNextFire built).isSome = true → (spec.build built).state = .armed :=
    spec.build_armed sound enabled
  obtain ⟨sameBefore,sameAfter,-⟩ := spec.build_bounds built
  have rule := build_toFireRule spec built
  have stillRecurs := (spec.isRecurring_build built).trans recurs
  simp only [FireState.step,held,rebuiltTrigger] at step
  split at step <;> cases step
  simp only [carryOverState,exhausted,stillRecurs,if_true]
  exact runsFrom_of_armed rfl rule ⟨sameBefore,sameAfter⟩ pending armed

theorem Spent.restart (spent : state.Spent) (recurs : spec.schedule.isRecurring = true)
    {persisted : Bool} (notEnded : spec.notAfter.any (· < now) = false)
    (step : state.step (.restart (some spec) built now true persisted) = some next) :
    next.RunsFrom spec (spec.computeNextFire now) := by
  obtain ⟨-,⟨row,stored,status⟩⟩ := spent
  obtain ⟨sameBefore,sameAfter,-⟩ := spec.build_bounds built
  have rule := build_toFireRule spec built
  have stillRecurs := (spec.isRecurring_build built).trans recurs
  simp only [FireState.step,restartedTrigger,stored,if_true] at step
  split at step <;> cases step
  have sameNext : (spec.build built).computeNextFire now = spec.computeNextFire now := by rw [rule]
  have notPast : (spec.build built).notAfter.any (· < now) = false := by
    rw [sameAfter]
    exact notEnded
  simp only [restoreTriggerState,status,stillRecurs,notPast,Bool.not_false,Bool.and_self,if_true]
  refine runsFrom_of_armed rfl ?_ ?_ ?_ ?_
  · exact rule
  · exact ⟨sameBefore,sameAfter⟩
  · exact sameNext
  · intro toCome
    rw [← sameNext] at toCome
    exact if_pos toCome

end FireState

/-- A job that has fired its one-off schedule runs again once its schedule recurs: after a reload
or a restart it makes the next fire of the new schedule.  Until then, for another instant in
particular, it stays exhausted. -/
theorem edited_once_job_runs {state middle : FireState} {trigger : Trigger}
    {instant fired : Int} {outcome : TickOutcome} {between : List FireEvent}
    (held : state.trigger = some trigger) (once : trigger.schedule = .once instant)
    (due : trigger.evaluate fired = some instant)
    (made : outcome = .dispatched ∨ outcome = .folded true)
    (unedited : ∀ event ∈ between, event.KeepsOnce)
    (reaches : run step state (.tick fired outcome :: between) = some middle) :
    (∀ spec built now next, spec.schedule.isRecurring = true → spec.faulted = false →
      middle.step (.rebuild spec built now) = some next →
        next.RunsFrom spec (spec.computeNextFire built)) ∧
    (∀ spec built now persisted next, spec.schedule.isRecurring = true →
      spec.notAfter.any (· < now) = false →
      middle.step (.restart (some spec) built now true persisted) = some next →
        next.RunsFrom spec (spec.computeNextFire now)) ∧
    ∀ events final, (∀ event ∈ events, event.KeepsOnce) →
      run step middle events = some final →
        final.fired = middle.fired ∧
          ∃ trigger, final.trigger = some trigger ∧ trigger.state = .exhausted := by
  obtain ⟨first,step,rest⟩ := run_cons_iff.mp reaches
  have spent : middle.Spent :=
    ((FireState.spent_of_once held once due made step).run unedited rest).1
  refine ⟨?_,?_,?_⟩
  · intro spec built now next recurs sound edit
    exact spent.rebuild recurs sound edit
  · intro spec built now persisted next recurs notEnded edit
    exact spent.restart recurs notEnded edit
  · intro events final keeps reachesFinal
    obtain ⟨stillSpent,sameFired⟩ := spent.run keeps reachesFinal
    exact ⟨sameFired,stillSpent.trigger⟩

/-- A server with a job of a one-off schedule. -/
def onceLoaded : FireState where
  trigger := some ((plainSpec (.once 10)).build 0)
  row := none
  clock := 0
  fired := []
  marked := []

/-- A schedule every minute takes the place of the one that has fired. -/
theorem edited_once_job_runs_everyMinute :
    ∃ middle next, run step onceLoaded [.tick 10 .dispatched] = some middle ∧
      middle.step (.rebuild (plainSpec (.interval 60)) 20 20) = some next ∧
      next.RunsFrom (plainSpec (.interval 60)) (some 60000000020) := by
  have computed : (plainSpec (.interval 60)).computeNextFire 20 = some 60000000020 := by decide
  have due : ((plainSpec (.once 10)).build 0).evaluate 10 = some 10 := by decide
  have reaches : run step onceLoaded [.tick 10 .dispatched] =
      some (onceLoaded.settle ((plainSpec (.once 10)).build 0) 10 10 .dispatched) := rfl
  exact ⟨_,_,reaches,rfl,(edited_once_job_runs rfl rfl due (.inl rfl)
    (fun _ absent => absurd absent List.not_mem_nil) reaches).1 _ 20 20 _ rfl rfl rfl⟩

/-- The fires of a run, and at its end the state of the trigger and the pending fire. -/
def observed (events : List FireEvent) : Option (List Int × Option TriggerState × Option Int) :=
  (run step onceLoaded events).map fun final =>
    (final.fired, final.trigger.map state, final.trigger.bind nextFireAt)

/-- Another instant does not start the job again, nor does a recurring schedule of a job that has
ended or is faulted. -/
theorem rescheduled_once_job_stays_exhausted :
    observed [.tick 10 .dispatched,.rebuild (plainSpec (.once 100)) 20 20,
        .tick 100 .dispatched] = some ([10], some .exhausted, none) ∧
      observed [.tick 10 .dispatched,.restart (some (plainSpec (.once 100))) 20 20 true true,
        .tick 100 .dispatched] = some ([10], some .exhausted, none) ∧
      observed [.tick 10 .dispatched,
        .restart (some { plainSpec (.interval 60) with notAfter := some 15 }) 20 20 true true,
        .tick 60000000020 .dispatched] = some ([10], some .exhausted, none) ∧
      observed [.tick 10 .dispatched,
        .rebuild { plainSpec (.interval 60) with faulted := true } 20 20,
        .tick 60000000020 .dispatched] = some ([10], some .paused, some 60000000020) := by
  decide

end Croniq

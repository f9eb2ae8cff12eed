import Croniq.LabelledRuns
import Croniq.PendingFireBounds

/-!
# The fires of one job over a whole run

The trigger of a job lives through scheduler ticks, rebuilds by a reload or an
edit, removals and restarts, in any order.
-/

namespace Croniq

open LabelledRuns Trigger

inductive TickOutcome where
  | dispatched
  | folded (persisted : Bool)
  | skipped (persisted : Bool)
  | rolledBack
deriving DecidableEq

inductive FireEvent where
  | tick (now : Int) (outcome : TickOutcome)
  | rebuild (spec : TriggerSpec) (built now : Int)
  | remove (now : Int) (rowDeleted : Bool)
  | restart (spec : Option TriggerSpec) (built now : Int) (listed persisted : Bool)

/-- `fired` and `marked` record the fires and the trigger right after each mark, newest first. -/
structure FireState where
  trigger : Option Trigger
  row : Option JobState
  clock : Int
  fired : List Int
  marked : List (Int × Trigger)

open FireState

variable (row : Option JobState)

def FireState.initial (clock : Int) : FireState :=
  { trigger := none, row, clock, fired := [], marked := [] }

/-- The row written with a fire, a fold or a skip. -/
def advancedJobState (trigger : Trigger) (now : Int) : JobState where
  jobKey := trigger.jobKey
  nextFireAt := trigger.nextFireAt
  lastFiredAt := trigger.lastFiredAt
  fireCount := trigger.fireCount
  status := if trigger.state = .exhausted then .exhausted else .active
  updatedAt := now

def skipFire (trigger : Trigger) (fireAt now : Int) : Trigger :=
  { trigger.markFired fireAt now with
    lastFiredAt := trigger.lastFiredAt, fireCount := trigger.fireCount }

/-- A failed write takes the advance back, but not the end of a replay. -/
def rollBack (trigger : Trigger) (fireAt now : Int) : Trigger :=
  { trigger.markFired fireAt now with
    fireCount := trigger.fireCount, nextFireAt := trigger.nextFireAt
    lastFiredAt := trigger.lastFiredAt, state := trigger.state }

/-- The end of a tick that found the trigger due. -/
def FireState.settle (state : FireState) (trigger : Trigger) (fireAt now : Int)
    (outcome : TickOutcome) : FireState :=
  let marked := trigger.markFired fireAt now
  let settled := { state with clock := now, marked := (now, marked) :: state.marked }
  match outcome with
  | .dispatched =>
    { settled with
      trigger := some marked, row := some (advancedJobState marked now)
      fired := fireAt :: state.fired }
  | .folded persisted =>
    { settled with
      trigger := some marked
      row := if persisted then some (advancedJobState marked now) else state.row
      fired := fireAt :: state.fired }
  | .skipped true =>
    let skipped := skipFire trigger fireAt now
    { settled with trigger := some skipped, row := some (advancedJobState skipped now) }
  | .skipped false => { settled with trigger := some (skipFire trigger fireAt now) }
  | .rolledBack => { settled with trigger := some (rollBack trigger fireAt now) }

variable (old : Option Trigger) (new : Trigger)

/-- A job that was not there keeps the new trigger as it is. -/
def rebuiltTrigger (now : Int) : Trigger :=
  match old with
  | none => new
  | some old => carryOverState old new now

/-- Without the rows every trigger stays as built; a healed row may fail to be written. -/
def restartedTrigger (fresh : Trigger) (now : Int)
    (listed persisted : Bool) : Trigger × Option JobState :=
  match (if listed then row else none) with
  | none => (fresh, row)
  | some stored =>
    let restored := restoreTriggerState fresh stored now
    (restored.1, if persisted then restored.2.or row else row)

/-- Time does not run backwards.  Between the build of a trigger and its installation only a
running server ticks. -/
def FireState.step (state : FireState) : FireEvent → Option FireState
  | .tick now outcome =>
    if now < state.clock then none
    else
      match state.trigger with
      | none => some { state with clock := now }
      | some trigger =>
        match trigger.evaluate now with
        | none => some { state with clock := now }
        | some fireAt => some (state.settle trigger fireAt now outcome)
  | .rebuild spec built now =>
    if now < state.clock ∨ now < built then none
    else
      some { state with
        clock := now, trigger := some (rebuiltTrigger state.trigger (spec.build built) now) }
  | .remove now rowDeleted =>
    if now < state.clock then none
    else
      some { state with
        clock := now, trigger := none, row := if rowDeleted then none else state.row }
  | .restart spec built now listed persisted =>
    if built < state.clock ∨ now < built then none
    else
      match spec with
      | none => some { state with clock := now, trigger := none }
      | some spec =>
        let restarted := restartedTrigger state.row (spec.build built) now listed persisted
        some { state with clock := now, trigger := some restarted.1, row := restarted.2 }

/-- The rebuilt trigger takes nothing over. -/
def takesNothingOver : Bool :=
  match old with
  | none => true
  | some old => keepsFresh old new

/-- The seconds of an interval are cast to a signed number. -/
def Schedule.FitsCast : Schedule → Prop
  | .interval seconds => seconds < 2 ^ 63
  | _ => True

/-- No interval of zero seconds or one that the cast makes negative; the row of a fold is written;
and a rebuilt trigger that takes nothing over was built after the last fire. -/
def FireCondition (state : FireState) : FireEvent → Prop
  | .tick now (.folded false) => state.trigger.bind (evaluate · now) = none
  | .rebuild spec built _ =>
    spec.toFireRule.Regular ∧ spec.schedule.FitsCast ∧
      (takesNothingOver state.trigger (spec.build built) = true →
        ∀ fire ∈ state.fired, fire ≤ built)
  | .restart (some spec) _ _ _ _ => spec.toFireRule.Regular ∧ spec.schedule.FitsCast
  | _ => True

/-- Every fire made lies before the present, the pending fire and the fire of the row. -/
structure FireInvariant (state : FireState) : Prop where
  notLater : ∀ fire ∈ state.fired, fire ≤ state.clock
  increasing : state.fired.Pairwise (· > ·)
  regular : ∀ trigger, state.trigger = some trigger → trigger.toFireRule.Regular
  pendingLater : ∀ trigger, state.trigger = some trigger →
    ∀ fire ∈ state.fired, trigger.FiresAfter fire
  rowLater : ∀ row, state.row = some row → ∀ fire ∈ state.fired, row.FiresAfter fire
  aheadOfNow : ∀ mark ∈ state.marked, mark.2.replayUntil = none → mark.2.FiresAfter mark.1

theorem fireInvariant_initial (clock : Int) : FireInvariant (.initial row clock) where
  notLater := by simp [initial]
  increasing := .nil
  regular := by simp [initial]
  pendingLater := by simp [initial]
  rowLater := by simp [initial]
  aheadOfNow := by simp [initial]

section

variable {state : FireState} (invariant : FireInvariant state) {trigger : Trigger}
  (current : state.trigger = some trigger) {fireAt now : Int}
include invariant current

theorem fireInvariant_of_unrecorded (forward : state.clock ≤ now) {next : Trigger}
    {row : Option JobState} (sameRule : next.toFireRule = trigger.toFireRule)
    (nextLater : ∀ fire ∈ state.fired, next.FiresAfter fire)
    (rowLater : ∀ written, row = some written → ∀ fire ∈ state.fired, written.FiresAfter fire) :
    FireInvariant
      { trigger := some next, row, clock := now, fired := state.fired
        marked := (now, trigger.markFired fireAt now) :: state.marked } where
  notLater := fun fire member => le_trans (invariant.notLater fire member) forward
  increasing := invariant.increasing
  regular := by
    intro kept keptEq
    cases keptEq
    rw [sameRule]
    exact invariant.regular trigger current
  pendingLater := by
    intro kept keptEq
    cases keptEq
    exact nextLater
  rowLater := rowLater
  aheadOfNow := by
    intro mark member notReplaying
    rcases List.mem_cons.mp member with rfl | member
    · exact markFired_firesAfter_now (invariant.regular trigger current) notReplaying
    · exact invariant.aheadOfNow mark member notReplaying

theorem markFired_firesAfter_fired (due : trigger.evaluate now = some fireAt) :
    ∀ fire ∈ state.fired, (trigger.markFired fireAt now).FiresAfter fire := by
  obtain ⟨-,-,-,pending,dueNow⟩ := evaluate_eq_some.mp due
  intro fire member
  have earlier : fire < fireAt := invariant.pendingLater trigger current fire member fireAt pending
  exact (markFired_firesAfter_fire (invariant.regular trigger current) dueNow).mono
    earlier.le

theorem fireInvariant_of_recorded (forward : state.clock ≤ now)
    (due : trigger.evaluate now = some fireAt) :
    FireInvariant
      { trigger := some (trigger.markFired fireAt now)
        row := some (advancedJobState (trigger.markFired fireAt now) now)
        clock := now, fired := fireAt :: state.fired
        marked := (now, trigger.markFired fireAt now) :: state.marked } := by
  obtain ⟨-,-,-,pending,dueNow⟩ := evaluate_eq_some.mp due
  have earlier : ∀ fire ∈ state.fired, fire < fireAt := fun fire member =>
    invariant.pendingLater trigger current fire member fireAt pending
  have markedLater : ∀ fire ∈ fireAt :: state.fired,
      (trigger.markFired fireAt now).FiresAfter fire := by
    exact List.forall_mem_cons.mpr ⟨markFired_firesAfter_fire (invariant.regular trigger current)
      dueNow,markFired_firesAfter_fired invariant current due⟩
  have unrecorded : FireInvariant
      { trigger := some (trigger.markFired fireAt now), row := none, clock := now
        fired := state.fired
        marked := (now, trigger.markFired fireAt now) :: state.marked } :=
    fireInvariant_of_unrecorded invariant current forward rfl
      (markFired_firesAfter_fired invariant current due) (by simp)
  refine ⟨?_,?_,unrecorded.regular,?_,?_,unrecorded.aheadOfNow⟩
  · exact List.forall_mem_cons.mpr ⟨dueNow,unrecorded.notLater⟩
  · exact List.pairwise_cons.mpr ⟨earlier,invariant.increasing⟩
  · intro kept keptEq
    cases keptEq
    exact markedLater
  · intro written writtenEq
    cases writtenEq
    exact markedLater

theorem fireInvariant_settle (forward : state.clock ≤ now)
    (due : trigger.evaluate now = some fireAt) {outcome : TickOutcome}
    (written : outcome ≠ .folded false) :
    FireInvariant (state.settle trigger fireAt now outcome) := by
  have markedLater := markFired_firesAfter_fired invariant current due
  have oldRow := invariant.rowLater
  cases outcome with
  | dispatched => exact fireInvariant_of_recorded invariant current forward due
  | folded persisted =>
    cases persisted with
    | true => exact fireInvariant_of_recorded invariant current forward due
    | false => exact absurd rfl written
  | skipped persisted =>
    cases persisted with
    | true =>
      refine fireInvariant_of_unrecorded invariant current forward rfl markedLater ?_
      intro written writtenEq
      cases writtenEq
      exact markedLater
    | false => exact fireInvariant_of_unrecorded invariant current forward rfl markedLater oldRow
  | rolledBack =>
    exact fireInvariant_of_unrecorded invariant current forward rfl
      (invariant.pendingLater trigger current) oldRow

end

theorem fireInvariant_replace {state : FireState} (invariant : FireInvariant state)
    {trigger : Option Trigger} {row : Option JobState} {now : Int} (forward : state.clock ≤ now)
    (regular : ∀ kept, trigger = some kept → kept.toFireRule.Regular)
    (pendingLater : ∀ kept, trigger = some kept → ∀ fire ∈ state.fired, kept.FiresAfter fire)
    (rowLater : ∀ written, row = some written → ∀ fire ∈ state.fired, written.FiresAfter fire) :
    FireInvariant { state with trigger, row, clock := now } where
  notLater := fun fire member => le_trans (invariant.notLater fire member) forward
  increasing := invariant.increasing
  regular := regular
  pendingLater := pendingLater
  rowLater := rowLater
  aheadOfNow := invariant.aheadOfNow

section

variable {fresh : Trigger} {now : Int} {property : Int → Prop}
  (finds : fresh.Finds now property)
include finds

theorem pending_rebuiltTrigger {old : Option Trigger}
    (freshPending : takesNothingOver old fresh = true → fresh.Pending property)
    (adopts : ∀ kept, old = some kept →
      kept.Pending fun next => fresh.gateAllows next = true → property next) :
    (rebuiltTrigger old fresh now).Pending property := by
  cases old with
  | none => exact freshPending rfl
  | some old => exact pending_carryOverState finds freshPending (adopts old rfl)

theorem pending_restartedTrigger {row : Option JobState} (freshPending : fresh.Pending property)
    (adopts : ∀ stored, row = some stored →
      stored.Pending fun next => fresh.gateAllows next = true → property next)
    (listed persisted : Bool) :
    (restartedTrigger row fresh now listed persisted).1.Pending property ∧
      ∀ written, (restartedTrigger row fresh now listed persisted).2 = some written →
        row = some written ∨ written.Pending property := by
  unfold restartedTrigger
  split
  · exact ⟨freshPending,fun _ => .inl⟩
  rename_i stored isListed
  have isRow : row = some stored := by
    split at isListed
    · exact isListed
    · cases isListed
  obtain ⟨restored,healed⟩ := pending_restoreTriggerState finds freshPending (adopts stored isRow)
  refine ⟨restored,fun written isWritten => ?_⟩
  split at isWritten
  · rcases Option.or_eq_some_iff.mp isWritten with isHealed | ⟨-,kept⟩
    · exact .inr (healed written isHealed)
    · exact .inl kept
  · exact .inl isWritten

end

theorem definition_rebuiltTrigger (now : Int) :
    (rebuiltTrigger old new now).definition = new.definition := by
  cases old with
  | none => rfl
  | some old => exact definition_carryOverState old new now

theorem rebuiltTrigger_toFireRule (now : Int) :
    (rebuiltTrigger old new now).toFireRule = new.toFireRule :=
  congrArg (·.2.1) (definition_rebuiltTrigger old new now)

theorem restartedTrigger_toFireRule (fresh : Trigger) (now : Int) (listed persisted : Bool) :
    (restartedTrigger row fresh now listed persisted).1.toFireRule = fresh.toFireRule := by
  unfold restartedTrigger
  split
  · rfl
  · exact congrArg (·.2.1) (definition_restoreTriggerState _ _ _)

theorem fireInvariant_step {state next : FireState} {event : FireEvent}
    (invariant : FireInvariant state) (condition : FireCondition state event)
    (stepTo : state.step event = some next) : FireInvariant next := by
  cases event with
  | tick now outcome =>
    obtain ⟨notBackwards,stepTo⟩ := of_else stepTo
    have forward : state.clock ≤ now := not_lt.mp notBackwards
    have idle : FireInvariant { state with clock := now } :=
      fireInvariant_replace invariant forward invariant.regular invariant.pendingLater
        invariant.rowLater
    split at stepTo
    · cases stepTo
      exact idle
    rename_i trigger current
    split at stepTo
    · cases stepTo
      exact idle
    · rename_i fireAt due
      cases stepTo
      refine fireInvariant_settle invariant current forward due ?_
      rintro rfl
      simp [FireCondition,current,due] at condition
  | rebuild spec built now =>
    obtain ⟨inOrder,rfl⟩ := of_unless stepTo
    obtain ⟨regular,-,builtAfter⟩ := condition
    rw [← build_toFireRule spec built] at regular
    rw [not_or,not_lt,not_lt] at inOrder
    apply fireInvariant_replace invariant inOrder.1
    · intro kept keptEq
      cases keptEq
      rw [rebuiltTrigger_toFireRule]
      exact regular
    · intro kept keptEq fire member
      cases keptEq
      have notLater := le_trans (invariant.notLater fire member) inOrder.1
      apply pending_rebuiltTrigger (regular.finds notLater)
      · intro nothing
        rw [build_toFireRule] at regular
        exact (build_firesAfter regular built).mono (builtAfter nothing fire member)
      · exact fun old oldEq next pending _ =>
          invariant.pendingLater old oldEq fire member next pending
    · exact invariant.rowLater
  | remove =>
    obtain ⟨notBackwards,rfl⟩ := of_unless stepTo
    apply fireInvariant_replace invariant (not_lt.mp notBackwards)
    · simp
    · simp
    · intro written writtenEq
      split at writtenEq
      · cases writtenEq
      · exact invariant.rowLater written writtenEq
  | restart spec built now listed persisted =>
    obtain ⟨inOrder,stepTo⟩ := of_else stepTo
    rw [not_or,not_lt,not_lt] at inOrder
    have forward : state.clock ≤ now := le_trans inOrder.1 inOrder.2
    cases spec with
    | none =>
      cases stepTo
      exact fireInvariant_replace invariant forward (by simp) (by simp) invariant.rowLater
    | some spec =>
      have regular : (spec.build built).toFireRule.Regular := by
        rw [build_toFireRule]
        exact condition.1
      have restarted : ∀ fire ∈ state.fired,
          (restartedTrigger state.row (spec.build built) now listed persisted).1.FiresAfter
              fire ∧
            ∀ written,
              (restartedTrigger state.row (spec.build built) now listed persisted).2 =
                  some written →
                written.FiresAfter fire := by
        intro fire member
        have beforeBuilt : fire ≤ built := le_trans (invariant.notLater fire member) inOrder.1
        obtain ⟨restored,writtenBack⟩ := pending_restartedTrigger
          (regular.finds (le_trans beforeBuilt inOrder.2))
          ((build_firesAfter condition.1 built).mono beforeBuilt)
          (fun stored isStored next pending _ =>
            invariant.rowLater stored isStored fire member next pending) listed persisted
        refine ⟨restored,fun written isWritten => ?_⟩
        rcases writtenBack written isWritten with isRow | later
        · exact invariant.rowLater written isRow fire member
        · exact later
      cases stepTo
      apply fireInvariant_replace invariant forward
      · intro kept keptEq
        cases keptEq
        rw [restartedTrigger_toFireRule]
        exact regular
      · intro kept keptEq fire member
        cases keptEq
        exact (restarted fire member).1
      · intro written writtenEq fire member
        exact (restarted fire member).2 written writtenEq

/-- Where the steps meet the condition the fires increase strictly, and after a mark outside a
replay the pending fire lies in the future. -/
theorem fires_strictly_increase (row : Option JobState) (clock : Int) (events : List FireEvent)
    (final : FireState) (along : Along step FireCondition (.initial row clock) events)
    (reaches : run step (.initial row clock) events = some final) :
    final.fired.Pairwise (· > ·) ∧
      ∀ mark ∈ final.marked, mark.2.replayUntil = none →
        ∀ next, mark.2.nextFireAt = some next → mark.1 < next := by
  have invariant : FireInvariant final :=
    invariant_of_along (fun _ _ _ holds condition => fireInvariant_step holds condition)
      (fireInvariant_initial row clock) along reaches
  exact ⟨invariant.increasing,invariant.aheadOfNow⟩

def everyMinute : TriggerSpec := plainSpec (.interval 60)

/-- A job every minute is fired, restarted, folded and fired again. -/
def everyMinuteRun : List FireEvent :=
  [.rebuild everyMinute 0 0,.tick 60000000000 .dispatched,
    .restart (some everyMinute) 70000000000 70000000000 true true,
    .tick 120000000000 (.folded true),.tick 180000000000 .dispatched]

theorem fires_strictly_increase_everyMinute :
    ∃ final, run step (.initial none 0) everyMinuteRun = some final ∧
      final.fired = [180000000000,120000000000,60000000000] ∧ final.fired.Pairwise (· > ·) := by
  have reached : (run step (.initial none 0) everyMinuteRun).map fired =
      some [180000000000,120000000000,60000000000] := by
    decide
  obtain ⟨final,reaches,firedEq⟩ := Option.map_eq_some_iff.mp reached
  have regular : everyMinute.toFireRule.Regular := ⟨Nat.succ_pos 59,trivial⟩
  have fits : everyMinute.schedule.FitsCast := show 60 < 2 ^ 63 by decide
  refine ⟨final,reaches,firedEq,(fires_strictly_increase none 0 _ final ?_ reaches).1⟩
  refine ⟨⟨regular,fits,by simp [initial]⟩,fun _ _ => ⟨trivial,fun _ _ => ?_⟩⟩
  exact ⟨⟨regular,fits⟩,fun _ _ => ⟨trivial,fun _ _ => ⟨trivial,fun _ _ => trivial⟩⟩⟩

/-- An interval of zero seconds fires the same instant at every tick, and is due again at once. -/
theorem zeroInterval_fires_twice :
    ∃ final, run step (.initial none 0)
        [.rebuild (plainSpec (.interval 0)) 10 10,.tick 10 .dispatched,.tick 10 .dispatched] =
          some final ∧
      (plainSpec (.interval 0)).timezone.RepeatsWithinDate ∧
      ¬final.fired.Pairwise (· > ·) ∧
      ∃ mark ∈ final.marked, mark.2.replayUntil = none ∧ mark.2.nextFireAt = some mark.1 := by
  have reached : (run step (.initial none 0)
        [.rebuild (plainSpec (.interval 0)) 10 10,.tick 10 .dispatched,.tick 10 .dispatched]).map
      (fun final => (final.fired,
        final.marked.any fun mark =>
          mark.2.replayUntil == none && mark.2.nextFireAt == some mark.1)) =
      some ([10,10], true) := by
    decide
  obtain ⟨final,reaches,observed⟩ := Option.map_eq_some_iff.mp reached
  obtain ⟨firedEq,dueAgain⟩ := Prod.mk.inj observed
  refine ⟨final,reaches,trivial,?_,?_⟩
  · rw [firedEq]
    decide
  · simpa using dueAgain

end Croniq

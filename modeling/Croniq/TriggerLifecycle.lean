import Croniq.CalendarGate
import Croniq.OpeningSearch

/-!
# The trigger of a job

A trigger holds a job's schedule, its two gates and the pending fire.
-/

namespace Croniq

open OpeningSearch

inductive TriggerState where
  | armed | fired | completed | paused | exhausted
deriving DecidableEq

inductive MissedFires where
  | once
  | all (max : Nat)
  | skip
deriving DecidableEq

inductive MissedPlan where
  | noneMissed
  | once
  | replay (count dropped : Nat)
  | skipped
  | tooManyToReplay
deriving DecidableEq

inductive PendingFire where
  | adopted
  | healedGateClosed
  | healedOutlivedSchedule
  | droppedDisabled
deriving DecidableEq

structure TimeWindow where
  (start stop : NaiveTime)
deriving DecidableEq

def TimeWindow.contains (window : TimeWindow) (time : Int) : Bool :=
  windowContains window.start window.stop time

def missedFireWalkLimit : Nat := 100000

/-- What the search for the next fire reads of a trigger; no change of state touches it. -/
structure FireRule where
  schedule : Schedule
  timezone : Tz
  calendar : Option Calendar
  window : Option TimeWindow
deriving DecidableEq

structure Trigger extends FireRule where
  jobKey : String
  (notBefore notAfter : Option Int)
  state : TriggerState
  (nextFireAt lastFiredAt : Option Int)
  fireCount : Nat
  missedFires : MissedFires
  replayUntil : Option Int
deriving DecidableEq

namespace FireRule

variable (rule : FireRule) (instant : Int)

def calendarAllows : Bool :=
  match rule.calendar with
  | some calendar => calendar.isAllowedAt instant
  | none => true

def windowAllows : Bool :=
  match rule.window with
  | some window => window.contains (timeOfDay (rule.timezone.toLocal instant))
  | none => true

def gateAllows : Bool :=
  rule.calendarAllows instant && rule.windowAllows instant

def nextWindowOpenAtOrAfter (tz : Tz) (window : TimeWindow) (instant : Int) : Option Int :=
  (nextInstantIn (tz.toLocal instant) fun _ =>
    windowIntervals window.start window.stop).bind fun openLocal =>
      resolveLocalAtOrAfter tz openLocal instant

def calendarOpenFrom : Option Int :=
  match rule.calendar with
  | some calendar => calendar.nextOpenAtOrAfter instant
  | none => some instant

def windowOpenFrom : Option Int :=
  match rule.window with
  | some window => nextWindowOpenAtOrAfter rule.timezone window instant
  | none => some instant

def maxRounds : Nat := 512

/-- Each round moves to the later of both next openings, up to the horizon. -/
def nextGateOpen : Option Int :=
  alternate rule.calendarOpenFrom rule.windowOpenFrom (instant + maxScanDays * oneDay)
    maxRounds instant

def maxGateJumps : Nat := 1500

/-- After a closed gate an interval fires at the opening, the other kinds at their next tick. -/
def candidateFrom (opening : Int) : Option Int :=
  match rule.schedule with
  | .interval _ => some opening
  | _ => rule.schedule.nextFireAfter (opening - oneSecond) rule.timezone

def jumpOverClosedGate (candidate : Int) : Option Int :=
  (rule.nextGateOpen candidate).bind rule.candidateFrom

def computeNextFire (after : Int) : Option Int :=
  (rule.schedule.nextFireAfter after rule.timezone).bind
    (guardedJumps rule.gateAllows rule.jumpOverClosedGate maxGateJumps)

end FireRule

namespace Trigger

/-- A fresh trigger: a disabled schedule is paused, one without a next fire exhausted. -/
def withBounds (jobKey : String) (schedule : Schedule) (timezone : Tz)
    (calendar : Option Calendar) (window : Option TimeWindow)
    (notBefore notAfter : Option Int) (now : Int) : Trigger :=
  let rule : FireRule := { schedule, timezone, calendar, window }
  let next := if schedule = .disabled then none else rule.computeNextFire now
  { rule with
    jobKey, notBefore, notAfter
    state := if schedule = .disabled then .paused else if next.isSome then .armed else .exhausted
    nextFireAt := next
    lastFiredAt := none
    fireCount := 0
    missedFires := .once
    replayUntil := none }

variable (trigger : Trigger) (now : Int)

def evaluate : Option Int :=
  if trigger.state ≠ .armed then none
  else if trigger.notBefore.any (now < ·) then none
  else if trigger.notAfter.any (· < now) then none
  else trigger.nextFireAt.filter (· ≤ now)

/-- An interval fire made within one beat of its instant keeps its phase. -/
def advanceAnchor (fireAt now : Int) : Int :=
  match trigger.schedule with
  | .interval seconds =>
    if fireAt ≤ now ∧ now - fireAt < seconds * oneSecond then fireAt else now
  | _ => now

/-- In a replay the next fire follows the one just made, otherwise the present. -/
def markFired (fireAt now : Int) : Trigger :=
  let replayNext := trigger.replayUntil.bind fun last =>
    (trigger.computeNextFire fireAt).filter (· ≤ last)
  let anchor := if trigger.replayUntil.isSome then now else trigger.advanceAnchor fireAt now
  let next :=
    match replayNext with
    | some next => some next
    | none => trigger.computeNextFire anchor
  let kept := next.filter fun next => !trigger.notAfter.any (· < next)
  { trigger with
    lastFiredAt := some fireAt
    fireCount := trigger.fireCount + 1
    replayUntil := if replayNext.isSome then trigger.replayUntil else none
    nextFireAt := kept
    state := if kept.isSome then .armed else .exhausted }

def pause : Trigger :=
  { trigger with state := .paused }

def resume : Trigger :=
  let next := trigger.computeNextFire now
  { trigger with nextFireAt := next, state := if next.isSome then .armed else .exhausted }

def carryOverPendingFire (stored now : Int) : Trigger × PendingFire :=
  if trigger.schedule = .disabled then
    ({ trigger with nextFireAt := none, state := .paused }, .droppedDisabled)
  else if !trigger.gateAllows stored then (trigger.resume now, .healedGateClosed)
  else
    match (trigger.computeNextFire now).filter (· < stored) with
    | some fresh => ({ trigger with nextFireAt := some fresh }, .healedOutlivedSchedule)
    | none => ({ trigger with nextFireAt := some stored }, .adopted)

/-- The latest `max` fires missed up to `now`, unless they exceed the limit. -/
def missedWalk (trigger : Trigger) (now : Int) (max : Nat) :
    Nat → List Int → Int → Nat → Option (List Int × Nat)
  | remaining, kept, instant, total =>
    match (trigger.computeNextFire instant).filter (· ≤ now) with
    | none => some (kept, total)
    | some next =>
      match remaining with
      | 0 => none
      | remaining + 1 =>
        let trimmed := if kept.length = max then kept.tail else kept
        missedWalk trigger now max remaining (trimmed ++ [next]) next (total + 1)

def planMissedFires : Trigger × MissedPlan :=
  match trigger.nextFireAt.filter (· < now) with
  | none => (trigger, .noneMissed)
  | some first =>
    if trigger.state ≠ .armed then (trigger, .noneMissed)
    else
      match trigger.missedFires with
      | .once => (trigger, .once)
      | .skip => (trigger.resume now, .skipped)
      | .all limit =>
        match trigger.missedWalk now (max limit 1) (missedFireWalkLimit - 1) [first] first 1 with
        | none => (trigger, .tooManyToReplay)
        | some (kept, total) =>
          ({ trigger with nextFireAt := kept.head?, replayUntil := kept.getLast? },
            .replay kept.length (total - kept.length))

theorem evaluate_eq_some {trigger : Trigger} {now fireAt : Int} :
    trigger.evaluate now = some fireAt ↔
      trigger.state = .armed ∧ trigger.notBefore.any (now < ·) = false ∧
        trigger.notAfter.any (· < now) = false ∧ trigger.nextFireAt = some fireAt ∧
        fireAt ≤ now := by
  unfold evaluate
  by_cases armed : trigger.state = .armed
  · cases trigger.notBefore.any (now < ·) <;> cases trigger.notAfter.any (· < now) <;>
      simp [armed,Option.filter_eq_some_iff]
  · simp [armed]

/-- What stays of a trigger whatever it does. -/
def definition : String × FireRule × Option Int × Option Int × MissedFires :=
  (trigger.jobKey, trigger.toFireRule, trigger.notBefore, trigger.notAfter, trigger.missedFires)

theorem definition_carryOverPendingFire (stored now : Int) :
    (trigger.carryOverPendingFire stored now).1.definition = trigger.definition := by
  unfold carryOverPendingFire resume
  split
  · rfl
  · split
    · rfl
    · split <;> rfl

theorem definition_planMissedFires :
    (trigger.planMissedFires now).1.definition = trigger.definition := by
  unfold planMissedFires
  repeat' split
  all_goals rfl

end Trigger

end Croniq

import Croniq.FireHistory

/-!
# The instants that a trigger fires at

Every pending fire of a trigger was found by the search for a next fire, so the
gates were open at it and the schedule names it.
-/

namespace Croniq

open CivilCalendar LabelledRuns List Option Trigger

/-- The instants that a schedule names; an interval counts from any start. -/
def Schedule.IsOccurrence (schedule : Schedule) (tz : Tz) (instant : Int) : Prop :=
  match schedule with
  | .interval _ => True
  | .once declared => instant = declared
  | _ => schedule.Occurs tz instant

theorem Schedule.isOccurrence_of_nextFireAfter {schedule : Schedule} {tz : Tz} {after fire : Int}
    (next : schedule.nextFireAfter after tz = some fire) : schedule.IsOccurrence tz fire := by
  cases schedule with
  | interval seconds => trivial
  | daily time | weekdays | monthly => exact Schedule.occurs_of_nextFireAfter trivial next
  | once =>
    simp only [nextFireAfter,ite_none_right_eq_some,some.injEq] at next
    exact next.2.symm
  | disabled => cases next

/-- The gates are open at the instant, and the schedule names it. -/
structure FireRule.Makes (rule : FireRule) (instant : Int) : Prop where
  gateOpen : rule.gateAllows instant = true
  occurs : rule.schedule.IsOccurrence rule.timezone instant

variable {rule : FireRule} {property : Int → Prop}

theorem FireRule.occurs_of_candidateFrom {opening next : Int}
    (found : rule.candidateFrom opening = some next) :
    rule.schedule.IsOccurrence rule.timezone next := by
  unfold candidateFrom at found
  split at found
  · rename_i isInterval
    rw [isInterval]
    trivial
  · exact Schedule.isOccurrence_of_nextFireAfter found

theorem FireRule.makes_of_computeNextFire {after fire : Int}
    (next : rule.computeNextFire after = some fire) : rule.Makes fire := by
  obtain ⟨first,isFirst,jumps⟩ := bind_eq_some_iff.mp next
  obtain ⟨gateOpen,occurs⟩ := OpeningSearch.outcome_of_guardedJumps jumps
    (rule.schedule.IsOccurrence rule.timezone) (Schedule.isOccurrence_of_nextFireAfter isFirst) (by
      intro candidate following _ _ jumped
      obtain ⟨opening,-,found⟩ := bind_eq_some_iff.mp jumped
      exact occurs_of_candidateFrom found)
  exact ⟨gateOpen,occurs⟩

theorem Trigger.pending_markFired {trigger : Trigger}
    (computed : ∀ after fire, trigger.computeNextFire after = some fire → property fire)
    (fireAt now : Int) : (trigger.markFired fireAt now).Pending property := by
  intro next pending
  have found := (filter_eq_some_iff.mp pending).1
  split at found
  · rename_i replayed
    cases found
    obtain ⟨last,-,kept⟩ := bind_eq_some_iff.mp replayed
    exact computed _ _ (filter_eq_some_iff.mp kept).1
  · exact computed _ _ found

/-- The life of a trigger, and the definitions it was built from. -/
structure InstalledState where
  fires : FireState
  installed : List TriggerSpec

inductive InstalledEvent where
  | fire (event : FireEvent)
  | pause
  | resume (now : Int)

def FireEvent.installs : FireEvent → List TriggerSpec
  | .rebuild spec _ _ => [spec]
  | .restart (some spec) _ _ _ _ => [spec]
  | _ => []

namespace InstalledState

def initial (clock : Int) : InstalledState where
  fires := .initial none clock
  installed := []

def mapTrigger (state : InstalledState) (change : Trigger → Trigger) : InstalledState :=
  { state with fires := { state.fires with trigger := state.fires.trigger.map change } }

def step (state : InstalledState) : InstalledEvent → Option InstalledState
  | .fire event =>
    (state.fires.step event).map fun fires =>
      { fires, installed := state.installed ++ event.installs }
  | .pause => some (state.mapTrigger pause)
  | .resume now => some (state.mapTrigger (·.resume now))

/-- Some definition in place made the fire. -/
def Made (installed : List TriggerSpec) (instant : Int) : Prop :=
  ∃ spec ∈ installed, spec.toFireRule.Makes instant

/-- The trigger follows an installed definition, its gates are open at its pending fire, and such
definitions made every pending fire. -/
structure Grounded (state : InstalledState) : Prop where
  follows : ∀ trigger, state.fires.trigger = some trigger →
    ∃ spec ∈ state.installed, trigger.toFireRule = spec.toFireRule
  gateOpen : ∀ trigger, state.fires.trigger = some trigger →
    trigger.Pending fun next => trigger.gateAllows next = true
  made : ∀ trigger, state.fires.trigger = some trigger → trigger.Pending (Made state.installed)
  rowMade : ∀ row, state.fires.row = some row → row.Pending (Made state.installed)

theorem Grounded.initial (clock : Int) : (InstalledState.initial clock).Grounded where
  follows := fun _ isTrigger => nomatch isTrigger
  gateOpen := fun _ isTrigger => nomatch isTrigger
  made := fun _ isTrigger => nomatch isTrigger
  rowMade := fun _ isRow => nomatch isRow

theorem made_of_computeNextFire {rule : FireRule} {installed : List TriggerSpec}
    (follows : ∃ spec ∈ installed, rule = spec.toFireRule) (after fire : Int)
    (next : rule.computeNextFire after = some fire) : Made installed fire := by
  obtain ⟨spec,isInstalled,rfl⟩ := follows
  exact ⟨spec,isInstalled,FireRule.makes_of_computeNextFire next⟩

variable {state next : InstalledState} {fires : FireState} {trigger : Trigger} {spec : TriggerSpec}

theorem Grounded.replace (grounded : state.Grounded) (isTrigger : fires.trigger = some trigger)
    (follows : ∃ spec ∈ state.installed, trigger.toFireRule = spec.toFireRule)
    (gateOpen : trigger.Pending fun next => trigger.gateAllows next = true)
    (made : trigger.Pending (Made state.installed)) (rowMade : ∀ row, fires.row = some row →
      state.fires.row = some row ∨ row.Pending (Made state.installed)) :
    { state with fires }.Grounded := by
  refine ⟨?_,?_,?_,?_⟩
  · rintro other isOther
    cases isTrigger.symm.trans isOther
    exact follows
  · rintro other isOther
    cases isTrigger.symm.trans isOther
    exact gateOpen
  · rintro other isOther
    cases isTrigger.symm.trans isOther
    exact made
  · intro row isRow
    exact (rowMade row isRow).elim (grounded.rowMade row) id

theorem Grounded.install (grounded : state.Grounded) (specs : List TriggerSpec) :
    { state with installed := state.installed ++ specs }.Grounded := by
  have more : ∀ instant, Made state.installed instant → Made (state.installed ++ specs) instant :=
    fun _ ⟨spec,isInstalled,makes⟩ => ⟨spec,mem_append_left _ isInstalled,makes⟩
  refine ⟨?_,grounded.gateOpen,?_,?_⟩
  · intro trigger isTrigger
    obtain ⟨spec,isInstalled,sameRule⟩ := grounded.follows trigger isTrigger
    exact ⟨spec,mem_append_left _ isInstalled,sameRule⟩
  · exact fun trigger isTrigger next pending =>
      more next (grounded.made trigger isTrigger next pending)
  · exact fun row isRow next pending => more next (grounded.rowMade row isRow next pending)

theorem Grounded.settle (grounded : state.Grounded)
    (isTrigger : state.fires.trigger = some trigger) (fireAt now : Int) (outcome : TickOutcome) :
    { state with fires := state.fires.settle trigger fireAt now outcome }.Grounded := by
  have follows := grounded.follows trigger isTrigger
  have markedGate : (trigger.markFired fireAt now).Pending (trigger.gateAllows · = true) :=
    pending_markFired
      (fun _ _ found => (FireRule.makes_of_computeNextFire found).gateOpen) fireAt now
  have markedMade : (trigger.markFired fireAt now).Pending (Made state.installed) :=
    pending_markFired (made_of_computeNextFire follows) fireAt now
  cases outcome with
  | dispatched =>
    refine grounded.replace rfl follows markedGate markedMade ?_
    rintro _ ⟨⟩
    exact .inr markedMade
  | folded persisted | skipped persisted =>
    cases persisted with
    | true =>
      refine grounded.replace rfl follows markedGate markedMade ?_
      rintro _ ⟨⟩
      exact .inr markedMade
    | false => exact grounded.replace rfl follows markedGate markedMade fun _ => .inl
  | rolledBack =>
    exact grounded.replace rfl follows (grounded.gateOpen trigger isTrigger)
      (grounded.made trigger isTrigger) fun _ => .inl

theorem finds_built (isInstalled : spec ∈ state.installed) (built now : Int) :
    (spec.build built).Pending
        (fun next => spec.gateAllows next = true ∧ Made state.installed next) ∧
      (spec.build built).Finds now
        fun next => spec.gateAllows next = true ∧ Made state.installed next := by
  have computed : ∀ after next, spec.computeNextFire after = some next →
      spec.gateAllows next = true ∧ Made state.installed next := fun after next found =>
    ⟨(FireRule.makes_of_computeNextFire found).gateOpen,
      made_of_computeNextFire ⟨spec,isInstalled,rfl⟩ after next found⟩
  refine ⟨pending_build (computed built),?_⟩
  rw [build_toFireRule]
  exact ⟨computed now,fun instant next _ => computed instant next⟩

section

variable (grounded : state.Grounded)
include grounded

theorem Grounded.rebuild
    (isInstalled : spec ∈ state.installed) (built now : Int) : { state with
      fires :=
        { state.fires with
          clock := now
          trigger := some (rebuiltTrigger state.fires.trigger (spec.build built) now) }
      }.Grounded := by
  have sameRule : (rebuiltTrigger state.fires.trigger (spec.build built) now).toFireRule =
      spec.toFireRule := by
    rw [rebuiltTrigger_toFireRule,build_toFireRule]
  obtain ⟨pending,finds⟩ := finds_built isInstalled built now
  have rebuilt := pending_rebuiltTrigger finds (fun _ => pending)
    fun kept isKept next isNext isOpen =>
      ⟨by rwa [build_toFireRule] at isOpen,grounded.made kept isKept next isNext⟩
  refine grounded.replace rfl ⟨spec,isInstalled,sameRule⟩ ?_
    (fun next isNext => (rebuilt next isNext).2) fun _ => .inl
  rw [sameRule]
  exact fun next isNext => (rebuilt next isNext).1

theorem Grounded.restart
    (isInstalled : spec ∈ state.installed) (built now : Int) (listed persisted : Bool) :
    { state with
      fires :=
        { state.fires with
          clock := now
          trigger :=
            some (restartedTrigger state.fires.row (spec.build built) now listed persisted).1
          row := (restartedTrigger state.fires.row (spec.build built) now listed persisted).2 }
      }.Grounded := by
  have sameRule :
      (restartedTrigger state.fires.row (spec.build built) now listed persisted).1.toFireRule =
        spec.toFireRule := by
    rw [restartedTrigger_toFireRule,build_toFireRule]
  obtain ⟨pending,finds⟩ := finds_built isInstalled built now
  obtain ⟨restarted,writtenBack⟩ := pending_restartedTrigger finds pending
    (fun stored isStored next isNext isOpen =>
      ⟨by rwa [build_toFireRule] at isOpen,grounded.rowMade stored isStored next isNext⟩)
    listed persisted
  refine grounded.replace rfl ⟨spec,isInstalled,sameRule⟩ ?_
    (fun next isNext => (restarted next isNext).2) fun written isWritten =>
      (writtenBack written isWritten).imp_right fun later next isNext => (later next isNext).2
  rw [sameRule]
  exact fun next isNext => (restarted next isNext).1

theorem Grounded.withoutTrigger (noTrigger : fires.trigger = none)
    (sameRow : ∀ row, fires.row = some row → state.fires.row = some row) :
    { state with fires }.Grounded where
  follows := fun _ isTrigger => nomatch noTrigger.symm.trans isTrigger
  gateOpen := fun _ isTrigger => nomatch noTrigger.symm.trans isTrigger
  made := fun _ isTrigger => nomatch noTrigger.symm.trans isTrigger
  rowMade := fun row isRow => grounded.rowMade row (sameRow row isRow)

theorem Grounded.mapTrigger {change : Trigger → Trigger}
    (sameRule : ∀ trigger, (change trigger).toFireRule = trigger.toFireRule)
    (gateOpen : ∀ trigger, state.fires.trigger = some trigger →
      (change trigger).Pending fun next => trigger.gateAllows next = true)
    (made : ∀ trigger, state.fires.trigger = some trigger →
      (change trigger).Pending (Made state.installed)) : (state.mapTrigger change).Grounded := by
  refine ⟨?_,?_,?_,grounded.rowMade⟩
  · intro changed isChanged
    obtain ⟨trigger,isTrigger,rfl⟩ := map_eq_some_iff.mp isChanged
    rw [sameRule]
    exact grounded.follows trigger isTrigger
  · intro changed isChanged
    obtain ⟨trigger,isTrigger,rfl⟩ := map_eq_some_iff.mp isChanged
    rw [sameRule]
    exact gateOpen trigger isTrigger
  · intro changed isChanged
    obtain ⟨trigger,isTrigger,rfl⟩ := map_eq_some_iff.mp isChanged
    exact made trigger isTrigger

theorem Grounded.fire {event : FireEvent} (steps : state.fires.step event = some fires) :
    { fires, installed := state.installed ++ event.installs : InstalledState }.Grounded := by
  have installed := grounded.install event.installs
  cases event with
  | tick now outcome =>
    obtain ⟨-,steps⟩ := of_else steps
    split at steps
    · cases steps
      exact { installed with }
    rename_i trigger isTrigger
    split at steps
    · cases steps
      exact { installed with }
    · rename_i fireAt due
      cases steps
      exact installed.settle isTrigger fireAt now outcome
  | rebuild spec built now =>
    obtain ⟨-,rfl⟩ := of_unless steps
    exact installed.rebuild (mem_append_right _ mem_cons_self) built now
  | remove =>
    obtain ⟨-,rfl⟩ := of_unless steps
    refine installed.withoutTrigger rfl fun row isRow => ?_
    split at isRow
    · cases isRow
    · exact isRow
  | restart spec built now listed persisted =>
    obtain ⟨-,steps⟩ := of_else steps
    cases spec with
    | none =>
      cases steps
      exact installed.withoutTrigger rfl fun _ isRow => isRow
    | some =>
      cases steps
      exact installed.restart (mem_append_right _ mem_cons_self) built now listed
        persisted

theorem Grounded.step {event : InstalledEvent}
    (steps : state.step event = some next) : next.Grounded := by
  cases event with
  | fire =>
    obtain ⟨fires,fireSteps,rfl⟩ := map_eq_some_iff.mp steps
    exact grounded.fire fireSteps
  | pause =>
    cases steps
    exact grounded.mapTrigger (fun _ => rfl) grounded.gateOpen grounded.made
  | resume now =>
    cases steps
    refine grounded.mapTrigger (fun _ => rfl) ?_ ?_
    · exact fun trigger _ next found => (FireRule.makes_of_computeNextFire found).gateOpen
    · exact fun trigger isTrigger =>
        made_of_computeNextFire (grounded.follows trigger isTrigger) now

end

end InstalledState

/-- Every fire has its gates open, is not later than `notAfter`, is not made before `notBefore`,
and is an occurrence of a schedule that the job has or had. -/
theorem evaluate_within_bounds (clock : Int) (events : List InstalledEvent) (state : InstalledState)
    (reaches : run InstalledState.step (.initial clock) events = some state) (trigger : Trigger)
    (isTrigger : state.fires.trigger = some trigger) (now fireAt : Int)
    (due : trigger.evaluate now = some fireAt) :
    trigger.gateAllows fireAt = true ∧
      (∀ bound, trigger.notAfter = some bound → fireAt ≤ bound) ∧
      (∀ bound, trigger.notBefore = some bound → bound ≤ now) ∧
      ∃ spec ∈ state.installed, spec.schedule.IsOccurrence spec.timezone fireAt := by
  have grounded : state.Grounded :=
    invariant_of_run InstalledState.Grounded (fun _ _ _ grounded steps => grounded.step steps)
      (.initial clock) reaches
  obtain ⟨-,notEarly,notLate,pending,notLater⟩ := evaluate_eq_some.mp due
  obtain ⟨spec,isInstalled,makes⟩ := grounded.made trigger isTrigger fireAt pending
  refine ⟨grounded.gateOpen trigger isTrigger fireAt pending,?_,?_,spec,isInstalled,
    makes.occurs⟩
  · intro bound isBound
    rw [isBound] at notLate
    exact le_trans notLater (by simpa using notLate)
  · intro bound isBound
    rw [isBound] at notEarly
    simpa using notEarly

def twoOClock : NaiveTime := .fromHm 2 0

def threeOClock : NaiveTime := .fromHm 3 0

def lateSpec : TriggerSpec :=
  { plainSpec (.interval 60) with notBefore := some 100000000000 }

/-- A reload lengthens the interval, which keeps the pending fire. -/
def lateReload : List InstalledEvent :=
  [.fire (.rebuild lateSpec 0 0),.fire (.rebuild { lateSpec with schedule := .interval 90 } 1 1)]

theorem evaluate_within_bounds_late :
    ∃ state, run InstalledState.step (.initial 0) lateReload = some state ∧
      ∃ trigger, state.fires.trigger = some trigger ∧ trigger.schedule = .interval 90 ∧
        trigger.evaluate 100000000000 = some 60000000000 ∧ trigger.gateAllows 60000000000 = true :=
  ⟨_,rfl,_,rfl,rfl,by decide,
    (evaluate_within_bounds 0 lateReload _ rfl _ rfl 100000000000 60000000000 (by decide)).1⟩

/-- The first fire after `notBefore` is for an instant before it; a job moved from two to three
o'clock still fires at two. -/
theorem evaluate_outside_bounds :
    (∃ state, run InstalledState.step (.initial 0) [.fire (.rebuild lateSpec 0 0)] = some state ∧
      ∃ trigger, state.fires.trigger = some trigger ∧ trigger.notBefore = some 100000000000 ∧
        trigger.evaluate 100000000000 = some 60000000000) ∧
    (∃ state,
      run InstalledState.step (.initial 0)
        [.fire (.rebuild (plainSpec (.daily twoOClock)) 0 0),
          .fire (.rebuild (plainSpec (.daily threeOClock)) 1 1)] = some state ∧
      ∃ trigger, state.fires.trigger = some trigger ∧ trigger.schedule = .daily threeOClock ∧
        trigger.evaluate 7200000000000 = some 7200000000000 ∧
        ¬ trigger.schedule.IsOccurrence trigger.timezone 7200000000000) := by
  refine ⟨⟨_,rfl,_,rfl,rfl,by decide⟩,⟨_,rfl,_,rfl,rfl,by decide,?_⟩⟩
  rintro ⟨date,time,isTime,resolved⟩
  have isUtc : Tz.utc.Constant := rfl
  have isDue := (isUtc.resolveLocal_eq (andTime date time)).symm.trans resolved
  cases (isTime : time = threeOClock)
  simp only [some.injEq,andTime,oneDay,oneSecond,threeOClock,
    NaiveTime.fromHm,NaiveTime.secondsFromMidnight,Tz.utc] at isDue
  omega

end Croniq

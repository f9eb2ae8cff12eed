import Croniq.ScheduleOccurrences
import Croniq.TriggerRestore

/-!
# The pending fire is later than every fire made

The search for the next fire returns an instant strictly later than the one it
was asked for, provided no interval of zero seconds is scheduled and local dates
never run backwards.
-/

namespace Croniq

open OpeningSearch Option

theorem Calendar.isAllowedAt_iff (calendar : Calendar) (instant : Int) :
    calendar.isAllowedAt instant = true ↔
      OpenIn calendar.allowedIntervalsOn (calendar.tz.toLocal instant) :=
  (calendar.openIn_allowedIntervalsOn _).symm

theorem TimeWindow.contains_iff (window : TimeWindow) (naive : Int) :
    window.contains (timeOfDay naive) = true ↔
      OpenIn (fun _ => windowIntervals window.start window.stop) naive :=
  (covers_windowIntervals (timeOfDay_bounds _).1 (timeOfDay_bounds _).2).symm

namespace FireRule
variable {instant opening : Int}

/-- What holds of an unset gate, and of every search for the times of a day, holds of both gates. -/
theorem both_gates {rule : FireRule} {clock : Tz → Prop}
    (holds : (Int → Option Int) → (Int → Prop) → Prop) (inJob : clock rule.timezone)
    (inCalendar : ∀ calendar, rule.calendar = some calendar → clock calendar.tz)
    (unset : holds some fun _ => True)
    (set : ∀ tz intervalsOn, clock tz → (∀ date, DaySetOk (intervalsOn date)) →
      holds (fun instant => (nextInstantIn (tz.toLocal instant) intervalsOn).bind fun openLocal =>
        resolveLocalAtOrAfter tz openLocal instant)
        fun instant => OpenIn intervalsOn (tz.toLocal instant)) :
    holds rule.calendarOpenFrom (rule.calendarAllows · = true) ∧
      holds rule.windowOpenFrom (rule.windowAllows · = true) := by
  unfold calendarOpenFrom calendarAllows windowOpenFrom windowAllows
  constructor
  · cases isSet : rule.calendar with
    | none => simpa using unset
    | some calendar =>
      simp only [Calendar.isAllowedAt_iff]
      exact set _ _ (inCalendar calendar isSet) calendar.daySetOk_allowedIntervalsOn
  · cases rule.window with
    | none => simpa using unset
    | some window =>
      simp only [TimeWindow.contains_iff]
      exact set _ _ inJob fun _ => daySetOk_windowIntervals window.start window.stop

theorem oneSecond_dvd_nextGateOpen {rule : FireRule}
    (wholeSecond : oneSecond ∣ instant) (found : rule.nextGateOpen instant = some opening) :
    oneSecond ∣ opening := by
  have ⟨calendar,window⟩ := @both_gates rule (fun _ => True)
    (fun openFrom _ => ∀ instant opening, oneSecond ∣ instant →
      openFrom instant = some opening → oneSecond ∣ opening) trivial (fun _ _ => trivial)
    (fun _ _ whole found => some.inj found ▸ whole)
    fun tz intervalsOn _ ok instant opening _ found => by
      obtain ⟨openLocal,scanned,resolved⟩ := bind_eq_some_iff.mp found
      obtain ⟨minutes,shown⟩ := toLocal_of_resolveLocalAtOrAfter resolved
      exact oneSecond_dvd_of_minutes (nextInstantIn_eq_some ok scanned).1 shown
  refine (outcome_of_alternate found (oneSecond ∣ ·) wholeSecond ?_).1
  rintro _ _ ⟨firstOpen,secondOpen,firstEq,secondEq,rfl,-⟩ whole
  rcases max_choice firstOpen secondOpen with chosen | chosen <;> rw [chosen]
  · exact calendar _ _ whole firstEq
  · exact window _ _ whole secondEq

/-- A candidate is later than the instant asked for and, for a wall-clock schedule, a whole second.
-/
structure LaterCandidate (rule : FireRule) (after candidate : Int) : Prop where
  later : after < candidate
  wholeSecond : rule.schedule.WallClock → oneSecond ∣ candidate

section

variable {rule : FireRule} (positive : rule.schedule.IntervalPositive)
  (repeats : rule.timezone.RepeatsWithinDate)
include positive repeats
variable {after fire bound first : Int}

theorem laterCandidate_nextFireAfter
    (next : rule.schedule.nextFireAfter after rule.timezone = some fire) :
    LaterCandidate rule after fire :=
  ⟨Schedule.lt_nextFireAfter positive repeats next,
    fun wallClock => Schedule.oneSecond_dvd_nextFireAfter wallClock next⟩

section

variable (started : rule.schedule.nextFireAfter after rule.timezone = some first)
include started

/-- A jump over a closed gate leads to a later candidate: for a wall-clock schedule opening and
tick are whole seconds, so the tick after `opening - 1 s` is not before the opening. -/
theorem laterCandidate_candidateFrom {candidate opening next : Int}
    (firstLater : LaterCandidate rule bound first) (current : LaterCandidate rule bound candidate)
    (opened : rule.nextGateOpen candidate = some opening)
    (jumped : rule.candidateFrom opening = some next) : LaterCandidate rule bound next := by
  have notBefore : candidate ≤ opening := (last_of_alternate opened).1
  have wallClockCase : rule.schedule.WallClock →
      rule.schedule.nextFireAfter (opening - oneSecond) rule.timezone = some next →
      LaterCandidate rule bound next := by
    intro wallClock ticked
    have tick := laterCandidate_nextFireAfter positive repeats ticked
    have tickWhole := tick.wholeSecond wallClock
    have openingWhole := oneSecond_dvd_nextGateOpen (current.wholeSecond wallClock) opened
    refine ⟨?_,fun _ => tickWhole⟩
    have currentLater := current.later
    have tickLater := tick.later
    simp only [oneSecond] at tickWhole openingWhole tickLater
    omega
  unfold candidateFrom at jumped
  cases kind : rule.schedule with
  | interval =>
    rw [kind] at jumped
    cases jumped
    refine ⟨lt_of_lt_of_le current.later notBefore,fun wallClock => ?_⟩
    rw [kind] at wallClock
    exact wallClock.elim
  | daily time | weekdays | monthly =>
    rw [kind] at jumped wallClockCase
    exact wallClockCase trivial jumped
  | once =>
    rw [kind] at jumped
    rw [kind] at started
    simp only [Schedule.nextFireAfter,ite_none_right_eq_some,some.injEq] at jumped started
    rw [← jumped.2,started.2]
    exact firstLater
  | disabled =>
    rw [kind] at jumped
    cases jumped

/-- Closed gates only move the next fire further from an earlier instant. -/
theorem lt_computeNextFire_of_lt (later : bound < first)
    (next : rule.computeNextFire after = some fire) : bound < fire := by
  rw [computeNextFire,started] at next
  have firstLater : LaterCandidate rule bound first :=
    ⟨later,(laterCandidate_nextFireAfter positive repeats started).wholeSecond⟩
  have fireLater : LaterCandidate rule bound fire := by
    refine (outcome_of_guardedJumps next _ firstLater ?_).2
    intro candidate following current _ jumped
    obtain ⟨opening,opened,ticked⟩ := bind_eq_some_iff.mp jumped
    exact laterCandidate_candidateFrom positive repeats started firstLater current opened ticked
  exact fireLater.later

end

theorem lt_computeNextFire (next : rule.computeNextFire after = some fire) : after < fire := by
  obtain ⟨first,started,-⟩ := bind_eq_some_iff.mp next
  have later := (laterCandidate_nextFireAfter positive repeats started).later
  exact lt_computeNextFire_of_lt positive repeats started later next

end

end FireRule

namespace Trigger

/-- What holds of the pending fire, if any. -/
def Pending (trigger : Trigger) (property : Int → Prop) : Prop :=
  ∀ next, trigger.nextFireAt = some next → property next

/-- The pending fire, if any, is later than the bound. -/
def FiresAfter (trigger : Trigger) (bound : Int) : Prop :=
  ∀ next, trigger.nextFireAt = some next → bound < next

theorem FiresAfter.mono {trigger : Trigger} {bound lower : Int}
    (firesAfter : trigger.FiresAfter bound) (notLater : lower ≤ bound) : trigger.FiresAfter lower :=
  fun next pending => lt_of_le_of_lt notLater (firesAfter next pending)

/-- The walk over missed fires keeps one at least, and a property that every fire found so far has.
-/
theorem property_of_missedWalk {trigger : Trigger} {now : Int} {property : Int → Prop}
    (follows : ∀ instant next, property instant → trigger.computeNextFire instant = some next →
      next ≤ now → property next)
    {max remaining total finalTotal : Nat} {kept final : List Int} {instant : Int}
    (nonempty : kept ≠ []) (keptAll : ∀ fire ∈ kept, property fire) (initially : property instant)
    (walked : trigger.missedWalk now max remaining kept instant total = some (final, finalTotal)) :
    final ≠ [] ∧ ∀ fire ∈ final, property fire := by
  induction remaining generalizing kept instant total with
  | zero =>
    unfold missedWalk at walked
    split at walked
    · cases walked
      exact ⟨nonempty,keptAll⟩
    · cases walked
  | succ remaining ih =>
    unfold missedWalk at walked
    split at walked
    · cases walked
      exact ⟨nonempty,keptAll⟩
    rename_i next found
    obtain ⟨found,come⟩ := filter_eq_some_iff.mp found
    have ofNext : property next := follows _ _ initially found (by simpa using come)
    refine ih (by simp) ?_ ofNext walked
    intro fire member
    rcases List.mem_append.mp member with old | new
    · split at old
      · exact keptAll fire (List.mem_of_mem_tail old)
      · exact keptAll fire old
    · rw [List.mem_singleton.mp new]
      exact ofNext

end Trigger

/-- No interval of zero seconds, and repeated local times within a date. -/
structure FireRule.Regular (rule : FireRule) : Prop where
  positive : rule.schedule.IntervalPositive
  repeats : rule.timezone.RepeatsWithinDate

theorem FireRule.Regular.lt_computeNextFire {rule : FireRule} (regular : rule.Regular)
    {after fire : Int} (next : rule.computeNextFire after = some fire) : after < fire :=
  FireRule.lt_computeNextFire regular.positive regular.repeats next

theorem FireRule.le_computeNextFire_of_interval {rule : FireRule} {seconds : Nat}
    (isInterval : rule.schedule = .interval seconds) {after fire : Int}
    (next : rule.computeNextFire after = some fire) : after + seconds * oneSecond ≤ fire := by
  obtain ⟨first,started,found⟩ := bind_eq_some_iff.mp next
  rw [isInterval] at started
  cases started
  refine (outcome_of_guardedJumps found (after + seconds * oneSecond ≤ ·) le_rfl ?_).2
  intro candidate following notBefore _ jumped
  obtain ⟨opening,opened,ticked⟩ := bind_eq_some_iff.mp jumped
  rw [candidateFrom,isInterval] at ticked
  cases ticked
  exact le_trans notBefore (last_of_alternate opened).1

/-- The search from the present, and from what it finds, has the property. -/
structure FireRule.Finds (rule : FireRule) (now : Int) (property : Int → Prop) : Prop where
  fromNow : ∀ fire, rule.computeNextFire now = some fire → property fire
  fromFire : ∀ instant fire, property instant → rule.computeNextFire instant = some fire →
    property fire

theorem FireRule.Regular.finds {rule : FireRule} (regular : rule.Regular) {bound now : Int}
    (notLater : bound ≤ now) :
    rule.Finds now (bound < ·) where
  fromNow := fun _ next => lt_of_le_of_lt notLater (regular.lt_computeNextFire next)
  fromFire := fun _ _ later next => lt_trans later (regular.lt_computeNextFire next)

namespace Trigger

section

variable {trigger : Trigger} {now : Int} {property : Int → Prop}
  (finds : trigger.Finds now property)
include finds

theorem pending_planMissedFires (pending : trigger.Pending property) :
    (trigger.planMissedFires now).1.Pending property := by
  unfold planMissedFires
  split
  · exact pending
  rename_i first missed
  have ofFirst : property first := pending first (filter_eq_some_iff.mp missed).1
  split
  · exact pending
  split
  · exact pending
  · exact finds.fromNow
  split
  · exact pending
  rename_i kept total walked
  intro next isHead
  exact (property_of_missedWalk (fun _ _ holds found _ => finds.fromFire _ _ holds found)
    (by simp) (by simpa using ofFirst) ofFirst walked).2 next (List.mem_of_mem_head? isHead)

theorem pending_carryOverPendingFire {stored : Int}
    (adopts : trigger.gateAllows stored = true → property stored) :
    (trigger.carryOverPendingFire stored now).1.Pending property := by
  intro next pending
  unfold carryOverPendingFire at pending
  split at pending
  · cases pending
  split at pending
  · exact finds.fromNow next pending
  rename_i gateOpen
  split at pending
  · rename_i fresh found
    cases pending
    exact finds.fromNow _ (filter_eq_some_iff.mp found).1
  · cases pending
    exact adopts (by simpa using gateOpen)

end

theorem build_toFireRule (spec : TriggerSpec) (now : Int) :
    (spec.build now).toFireRule = spec.toFireRule :=
  congrArg (·.2.1) (definition_build spec now)

theorem pending_build {spec : TriggerSpec} {now : Int} {property : Int → Prop}
    (fromNow : ∀ fire, spec.computeNextFire now = some fire → property fire) :
    (spec.build now).Pending property := by
  intro next pending
  have fresh : (withBounds spec.jobKey spec.schedule spec.timezone spec.calendar spec.window
      spec.notBefore spec.notAfter now).nextFireAt = some next := by
    unfold TriggerSpec.build at pending
    split at pending <;> exact pending
  simp only [withBounds] at fresh
  split at fresh
  · cases fresh
  · exact fromNow next fresh

theorem le_advanceAnchor {trigger : Trigger} {fireAt now : Int} (due : fireAt ≤ now) :
    fireAt ≤ trigger.advanceAnchor fireAt now := by
  unfold advanceAnchor
  split
  · split
    · exact le_rfl
    · exact due
  · exact due

section

variable {trigger : Trigger} (regular : trigger.toFireRule.Regular)
include regular

/-- The next fire from the anchor is past the present, as an earlier anchor is less than a beat
away. -/
theorem lt_computeNextFire_advanceAnchor {fireAt now next : Int}
    (found : trigger.computeNextFire (trigger.advanceAnchor fireAt now) = some next) :
    now < next := by
  have pastNow : trigger.advanceAnchor fireAt now = now → now < next := by
    intro anchorEq
    rw [anchorEq] at found
    exact regular.lt_computeNextFire found
  cases kind : trigger.schedule with
  | interval seconds =>
    by_cases phaseKept : fireAt ≤ now ∧ now - fireAt < seconds * oneSecond
    · have anchorEq : trigger.advanceAnchor fireAt now = fireAt := by
        simp only [advanceAnchor,kind,if_pos phaseKept]
      have fullBeat := FireRule.le_computeNextFire_of_interval kind found
      omega
    · exact pastNow (by simp only [advanceAnchor,kind,if_neg phaseKept])
  | daily time | weekdays | monthly | once | disabled =>
    exact pastNow (by simp only [advanceAnchor,kind])

theorem markFired_firesAfter_fire {fireAt now : Int} (due : fireAt ≤ now) :
    (trigger.markFired fireAt now).FiresAfter fireAt := by
  intro next pending
  have found := (filter_eq_some_iff.mp pending).1
  split at found
  · rename_i replayed
    cases found
    obtain ⟨last,-,kept⟩ := bind_eq_some_iff.mp replayed
    exact regular.lt_computeNextFire (filter_eq_some_iff.mp kept).1
  · refine lt_of_le_of_lt ?_ (regular.lt_computeNextFire found)
    split
    · exact due
    · exact le_advanceAnchor due

theorem markFired_firesAfter_now {fireAt now : Int}
    (notReplaying : (trigger.markFired fireAt now).replayUntil = none) :
    (trigger.markFired fireAt now).FiresAfter now := by
  intro next pending
  have found := (filter_eq_some_iff.mp pending).1
  split at found
  · rename_i replayed
    simp only [markFired,replayed,isSome_some,if_true] at notReplaying
    rw [notReplaying] at replayed
    cases replayed
  · split at found
    · exact regular.lt_computeNextFire found
    · exact lt_computeNextFire_advanceAnchor regular found

end

theorem build_firesAfter {spec : TriggerSpec} (regular : spec.toFireRule.Regular) (now : Int) :
    (spec.build now).FiresAfter now :=
  pending_build (regular.finds le_rfl).fromNow

end Trigger

/-- A rebuilt trigger has nothing pending to take over. -/
def keepsFresh (old new : Trigger) : Bool :=
  if old.state = .exhausted then new.schedule.isRecurring else old.nextFireAt.isNone

/-- What holds of the pending fire of a row. -/
def JobState.Pending (jobState : JobState) (property : Int → Prop) : Prop :=
  ∀ next, jobState.nextFireAt = some next → property next

/-- The pending fire of a row is later than the bound. -/
def JobState.FiresAfter (jobState : JobState) (bound : Int) : Prop :=
  ∀ next, jobState.nextFireAt = some next → bound < next

section

variable {fresh : Trigger} {now : Int} {property : Int → Prop}
  (finds : fresh.Finds now property)
include finds

theorem pending_carryOverState {old : Trigger}
    (freshPending : keepsFresh old fresh = true → fresh.Pending property)
    (adopts : old.Pending fun next => fresh.gateAllows next = true → property next) :
    (carryOverState old fresh now).Pending property := by
  unfold carryOverState
  simp only
  split
  · rename_i exhausted
    split
    · rename_i recurring
      exact freshPending (by simp [keepsFresh,exhausted,recurring])
    · exact fun _ pending => nomatch pending
  · rename_i notExhausted
    split
    · rename_i noPending
      exact freshPending (by simp [keepsFresh,notExhausted,noPending])
    rename_i pending isPending
    have carried : ({ fresh with fireCount := old.fireCount, lastFiredAt := old.lastFiredAt
        }.carryOverPendingFire pending now).1.Pending property := by
      apply Trigger.pending_carryOverPendingFire
      · exact finds
      · exact adopts pending isPending
    split
    · exact carried
    · exact carried

theorem pending_restoreTriggerState {jobState : JobState} (freshPending : fresh.Pending property)
    (adopts : jobState.Pending fun next => fresh.gateAllows next = true → property next) :
    (restoreTriggerState fresh jobState now).1.Pending property ∧
      ∀ healed, (restoreTriggerState fresh jobState now).2 = some healed →
        healed.Pending property := by
  have withHeal : ∀ restored : Trigger, restored.Pending property →
      restored.Pending property ∧
        ∀ healed, persistHealedState restored jobState now = some healed →
          healed.Pending property := by
    intro restored pending
    refine ⟨pending,fun healed written => ?_⟩
    unfold persistHealedState at written
    split at written
    · cases written
    · cases written
      exact pending
  unfold restoreTriggerState
  dsimp only
  split
  · split
    · exact withHeal _ finds.fromNow
    · exact ⟨fun _ pending => (nomatch pending),by simp⟩
  · split
    · exact withHeal _ fun _ pending => nomatch pending
    · split
      · exact ⟨freshPending,by simp⟩
      · rename_i stored isStored
        have carried : ({ fresh with fireCount := jobState.fireCount
            }.carryOverPendingFire stored now).1.Pending property := by
          apply Trigger.pending_carryOverPendingFire
          · exact finds
          · exact adopts stored isStored
        split
        · have sameRule : ({ fresh with fireCount := jobState.fireCount
              }.carryOverPendingFire stored now).1.toFireRule = fresh.toFireRule :=
            congrArg (·.2.1) (Trigger.definition_carryOverPendingFire _ _ _)
          have planned := Trigger.pending_planMissedFires (sameRule.symm ▸ finds) carried
          refine ⟨planned,fun healed written => ?_⟩
          split at written
          · exact (withHeal _ planned).2 healed written
          · cases written
        · exact withHeal _ carried
  · exact ⟨freshPending,by simp⟩
  · exact ⟨freshPending,by simp⟩

end

end Croniq

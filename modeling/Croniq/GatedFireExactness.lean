import Croniq.PendingFireBounds

/-!
# The next fire is the least one the gates allow

In zones with a constant offset both gates answer exactly: each finds its least
opening from an instant on, as long as it lies within the days scanned.
-/

namespace Croniq

open CivilCalendar FireRule IntervalLists OpeningSearch Option PiecewiseClock Schedule

def scanReach : Int := maxScanDays * oneDay

section

variable {tz : Tz} (constant : tz.Constant) {intervalsOn : Int → DaySet}
  (ok : ∀ date, DaySetOk (intervalsOn date))
include constant ok

theorem scan_isLeast {instant opening : Int}
    (found : ((nextInstantIn (tz.toLocal instant) intervalsOn).bind fun openLocal =>
      resolveLocalAtOrAfter tz openLocal instant) = some opening) :
    IsLeast {candidate | oneSecond ∣ candidate ∧ instant ≤ candidate ∧
      OpenIn intervalsOn (tz.toLocal candidate)} opening := by
  obtain ⟨openLocal,scanned,resolved⟩ := bind_eq_some_iff.mp found
  rw [constant.resolveLocalAtOrAfter_eq] at resolved
  cases resolved
  obtain ⟨wholeLocal,notBefore,isOpen,least⟩ := nextInstantIn_eq_some ok scanned
  have shown : tz.toLocal (openLocal - tz.zone.first) = openLocal := by
    rw [constant.toLocal_eq]
    omega
  refine ⟨⟨?_,?_,?_⟩,?_⟩
  · rw [← tz.oneSecond_dvd_toLocal_iff,shown]
    exact wholeLocal
  · rw [constant.toLocal_eq] at notBefore
    omega
  · rw [← shown] at isOpen
    exact isOpen
  · rintro candidate ⟨candidateWhole,candidateGe,candidateOpen⟩
    have := least (tz.toLocal candidate)
      ((tz.oneSecond_dvd_toLocal_iff candidate).mpr candidateWhole)
      (by rw [constant.toLocal_eq,constant.toLocal_eq]; omega) candidateOpen
    rw [constant.toLocal_eq] at this
    omega

theorem scan_ne_none {instant opening : Int} (openingWhole : oneSecond ∣ opening)
    (notBefore : instant ≤ opening) (inReach : opening ≤ instant + scanReach)
    (isOpen : OpenIn intervalsOn (tz.toLocal opening)) :
    ((nextInstantIn (tz.toLocal instant) intervalsOn).bind fun openLocal =>
      resolveLocalAtOrAfter tz openLocal instant) ≠ none := by
  have scanned : nextInstantIn (tz.toLocal instant) intervalsOn ≠ none := by
    apply nextInstantIn_ne_none ok ((tz.oneSecond_dvd_toLocal_iff opening).mpr openingWhole)
      _ isOpen
    · simp only [constant.toLocal_eq,dateNaive,scanReach,oneDay] at *
      omega
    · rw [constant.toLocal_eq,constant.toLocal_eq]
      omega
  obtain ⟨openLocal,found⟩ := ne_none_iff_exists'.mp scanned
  simp only [found,bind_some,constant.resolveLocalAtOrAfter_eq]
  exact some_ne_none _

end

namespace FireRule

/-- Both clocks of the rule have a constant offset. -/
structure Constant (rule : FireRule) : Prop where
  job : rule.timezone.Constant
  calendar : ∀ calendar, rule.calendar = some calendar → calendar.tz.Constant

section

variable {rule : FireRule} (constant : rule.Constant)
include constant

theorem gates_findNext :
    FindsNext oneSecond (rule.calendarAllows · = true) rule.calendarOpenFrom ∧
      FindsNext oneSecond (rule.windowAllows · = true) rule.windowOpenFrom := by
  apply both_gates (fun openFrom isOpen => FindsNext oneSecond isOpen openFrom) constant.job
    constant.calendar
  · rintro instant _ whole ⟨⟩
    exact ⟨⟨whole,le_rfl,trivial⟩,fun candidate inSet => inSet.2.1⟩
  · exact fun tz intervalsOn constant ok instant opening _ => scan_isLeast constant ok

theorem gates_reach :
    Reaches oneSecond scanReach (rule.calendarAllows · = true) rule.calendarOpenFrom ∧
      Reaches oneSecond scanReach (rule.windowAllows · = true) rule.windowOpenFrom := by
  apply both_gates (fun openFrom isOpen => Reaches oneSecond scanReach isOpen openFrom)
    constant.job constant.calendar
  · exact fun _ _ _ _ _ _ _ => some_ne_none _
  · exact fun tz intervalsOn constant ok instant opening _ => scan_ne_none constant ok

theorem timeOfDay_of_isStart {instant : Int}
    (start : IsStart oneSecond (rule.windowAllows · = true) instant) :
    ∃ window, rule.window = some window ∧
      timeOfDay (instant + rule.timezone.zone.first) =
        window.start.secondsFromMidnight * oneSecond := by
  obtain ⟨whole,isOpen,closedBefore⟩ := start
  cases isSet : rule.window with
  | none => simp [windowAllows,isSet] at closedBefore
  | some window =>
    refine ⟨window,rfl,?_⟩
    have localWhole := (rule.timezone.oneSecond_dvd_toLocal_iff instant).mpr whole
    have startLt := window.start.secondsFromMidnight_lt
    simp only [windowAllows,isSet,TimeWindow.contains,windowContains_iff,
      constant.job.toLocal_eq] at isOpen closedBefore localWhole
    simp only [timeOfDay,oneSecond,oneDay] at *
    split at isOpen <;> rename_i order
    · rw [if_pos order] at closedBefore
      omega
    · rw [if_neg order] at closedBefore
      omega

theorem window_starts_spaced (earlier later : Int)
    (isEarlier : IsStart oneSecond (rule.windowAllows · = true) earlier)
    (isLater : IsStart oneSecond (rule.windowAllows · = true) later) (ordered : earlier < later) :
    earlier + oneDay ≤ later := by
  obtain ⟨window,isSet,earlierTime⟩ := timeOfDay_of_isStart constant isEarlier
  obtain ⟨sameWindow,isSame,laterTime⟩ := timeOfDay_of_isStart constant isLater
  rw [isSet] at isSame
  cases isSame
  simp only [timeOfDay,oneDay,oneSecond] at *
  omega

theorem windowAllows_sub_days (instant days : Int) :
    rule.windowAllows (instant - days * oneDay) = rule.windowAllows instant := by
  have sameTime : timeOfDay (rule.timezone.toLocal (instant - days * oneDay)) =
      timeOfDay (rule.timezone.toLocal instant) := by
    rw [constant.job.toLocal_eq,constant.job.toLocal_eq]
    simp only [timeOfDay,oneDay]
    omega
  simp only [windowAllows,sameTime]

end

end FireRule

/-- Every rule reads either the date or the time, so allowed dates and allowed times combine. -/
theorem Calendar.isAllowed_mix {calendar : Calendar} {firstDate firstTime date time : Int}
    (onDate : calendar.isAllowed firstDate firstTime = true)
    (atTime : calendar.isAllowed date time = true) : calendar.isAllowed firstDate time = true := by
  have reads : ∀ rule : CalendarRule, rule.matchesAt firstDate time =
        rule.matchesAt firstDate firstTime ∨
      rule.matchesAt firstDate time = rule.matchesAt date time := by
    intro rule
    cases rule with
    | window => exact .inr rfl
    | weekly days | monthly | annual | dates => exact .inl rfl
  simp only [isAllowed,Bool.and_eq_true,List.all_eq_true,Bool.not_eq_true',List.any_eq_false] at *
  refine ⟨fun rule member => ?_,fun rule member => ?_⟩
  · rcases reads rule with same | same
    · rw [same]
      exact onDate.1 rule member
    · rw [same]
      exact atTime.1 rule member
  · rcases reads rule with same | same
    · rw [same]
      exact onDate.2 rule member
    · rw [same]
      exact atTime.2 rule member

namespace FireRule

section Openings

variable {rule : FireRule} (constant : rule.Constant)
include constant

variable {instant opening after fire : Int} {rounds seconds : Nat}

/-- An allowed instant moved back by whole days to the calendar day of an earlier allowed one is
allowed. -/
theorem calendarAllows_sameDay {earlier : Int} (earlierAllowed : rule.calendarAllows earlier = true)
    (allowed : rule.calendarAllows instant = true) (ordered : earlier ≤ instant) :
    ∃ days : Int, 0 ≤ days ∧ rule.calendarAllows (instant - days * oneDay) = true ∧
      earlier - oneDay < instant - days * oneDay ∧ instant - days * oneDay < earlier + oneDay := by
  cases isSet : rule.calendar with
  | none =>
    refine ⟨(instant - earlier) / oneDay,?_,?_,?_,?_⟩
    · exact Int.ediv_nonneg (by omega) (by decide)
    · simp [calendarAllows,isSet]
    · simp only [oneDay]
      omega
    · simp only [oneDay]
      omega
  | some calendar =>
    have calendarConstant := constant.calendar calendar isSet
    simp only [calendarAllows,isSet,Calendar.isAllowedAt,calendarConstant.toLocal_eq] at *
    refine ⟨dateNaive (instant + calendar.tz.zone.first) -
      dateNaive (earlier + calendar.tz.zone.first),?_,?_,?_,?_⟩
    · have := dateNaive_mono (Int.add_le_add_right ordered calendar.tz.zone.first)
      omega
    · have sameDate : dateNaive (instant - (dateNaive (instant + calendar.tz.zone.first) -
            dateNaive (earlier + calendar.tz.zone.first)) * oneDay +
            calendar.tz.zone.first) =
          dateNaive (earlier + calendar.tz.zone.first) := by
        simp only [dateNaive,oneDay]
        omega
      have sameTime : timeOfDay (instant - (dateNaive (instant + calendar.tz.zone.first) -
            dateNaive (earlier + calendar.tz.zone.first)) * oneDay +
            calendar.tz.zone.first) =
          timeOfDay (instant + calendar.tz.zone.first) := by
        simp only [timeOfDay,oneDay]
        omega
      rw [sameDate,sameTime]
      exact Calendar.isAllowed_mix earlierAllowed allowed
    · simp only [dateNaive,oneDay]
      omega
    · simp only [dateNaive,oneDay]
      omega

omit constant in
theorem gateAllows_iff :
    rule.gateAllows instant = true ↔
      rule.calendarAllows instant = true ∧ rule.windowAllows instant = true := by
  simp [gateAllows]

omit constant in
variable (rule instant) in
/-- The whole seconds from an instant on at which the gates allow a fire. -/
def openings : Set Int :=
  {candidate | oneSecond ∣ candidate ∧ instant ≤ candidate ∧ rule.gateAllows candidate = true}

variable {horizon allowedAt : Int}

theorem isLeast_openings (whole : oneSecond ∣ instant)
    (found : alternate rule.calendarOpenFrom rule.windowOpenFrom horizon rounds instant =
      some opening) : IsLeast (rule.openings instant) opening := by
  simp only [openings,gateAllows_iff]
  have ⟨calendar,window⟩ := gates_findNext constant
  exact isLeast_of_alternate calendar window whole found

theorem alternate_ne_none_of_isLeast (enough : 10 ≤ rounds) (whole : oneSecond ∣ instant)
    (least : IsLeast (rule.openings instant) opening) (inReach : opening ≤ instant + scanReach)
    (withinHorizon : opening ≤ horizon) :
    alternate rule.calendarOpenFrom rule.windowOpenFrom horizon rounds instant ≠ none := by
  obtain ⟨more,rfl⟩ := Nat.exists_eq_add_of_le' enough
  obtain ⟨⟨openingWhole,notBefore,allowed⟩,isLower⟩ := least
  obtain ⟨calendarOpen,windowOpen⟩ := gateAllows_iff.mp allowed
  have ⟨calendarFinds,windowFinds⟩ := gates_findNext constant
  have ⟨calendarReaches,windowReaches⟩ := gates_reach constant
  apply alternate_ne_none more calendarFinds windowFinds whole (by decide) calendarReaches
    windowReaches openingWhole calendarOpen windowOpen withinHorizon
    (window_starts_spaced constant) notBefore inReach (by decide)
  intro later calendarFound laterWhole pastDay notPast found
  obtain ⟨⟨foundWhole,foundGe,foundAllowed⟩,foundLeast⟩ :=
    calendarFinds later calendarFound laterWhole found
  have foundLe : calendarFound ≤ opening := foundLeast ⟨openingWhole,notPast,calendarOpen⟩
  obtain ⟨days,daysNonneg,shiftedAllowed,afterFound,beforeFound⟩ :=
    calendarAllows_sameDay constant foundAllowed calendarOpen foundLe
  have shiftedOpen : rule.gateAllows (opening - days * oneDay) = true := by
    rw [gateAllows_iff,windowAllows_sub_days constant]
    exact ⟨shiftedAllowed,windowOpen⟩
  have shiftedWhole : oneSecond ∣ opening - days * oneDay := by
    simp only [oneSecond,oneDay] at *
    omega
  have notLess := isLower ⟨shiftedWhole,by omega,shiftedOpen⟩
  omega

theorem alternate_eq_some_iff_isLeast (enough : 10 ≤ rounds) (whole : oneSecond ∣ instant) :
    alternate rule.calendarOpenFrom rule.windowOpenFrom (instant + scanReach) rounds instant =
        some opening ↔ IsLeast (rule.openings instant) opening ∧ opening ≤ instant + scanReach := by
  constructor
  · intro found
    exact ⟨isLeast_openings constant whole found,(last_of_alternate found).2.1⟩
  · rintro ⟨least,inReach⟩
    obtain ⟨other,found⟩ := ne_none_iff_exists'.mp
      (alternate_ne_none_of_isLeast constant enough whole least inReach inReach)
    rw [found,(isLeast_openings constant whole found).unique least]

section

variable (whole : oneSecond ∣ instant) (allowedWhole : oneSecond ∣ allowedAt)
  (notBefore : instant ≤ allowedAt) (allowed : rule.gateAllows allowedAt = true)
  (inReach : allowedAt ≤ instant + scanReach)
include whole allowedWhole notBefore allowed inReach

theorem exists_alternate (enough : 10 ≤ rounds) (withinHorizon : allowedAt ≤ horizon) :
    ∃ opening, alternate rule.calendarOpenFrom rule.windowOpenFrom horizon rounds instant =
        some opening ∧ opening ≤ allowedAt ∧ rule.gateAllows opening = true := by
  obtain ⟨opening,inSet,isLower⟩ := Int.exists_least_of_bdd (P := (· ∈ rule.openings instant))
    ⟨instant,fun candidate inSet => inSet.2.1⟩ ⟨allowedAt,allowedWhole,notBefore,allowed⟩
  have openingLe := isLower allowedAt ⟨allowedWhole,notBefore,allowed⟩
  have least : IsLeast (rule.openings instant) opening := ⟨inSet,isLower⟩
  obtain ⟨other,found⟩ := ne_none_iff_exists'.mp
    (alternate_ne_none_of_isLeast constant enough whole least (by omega)
      (le_trans openingLe withinHorizon))
  rw [(isLeast_openings constant whole found).unique least] at found
  exact ⟨opening,found,openingLe,inSet.2.2⟩

theorem exists_nextGateOpen :
    ∃ opening, rule.nextGateOpen instant = some opening ∧ opening ≤ allowedAt ∧
      rule.gateAllows opening = true :=
  exists_alternate constant whole allowedWhole notBefore allowed inReach (by decide) inReach

end

/-! ### Wall-clock schedules -/

omit constant in
theorem oneSecond_dvd_of_occurs {schedule : Schedule} {tz : Tz}
    (occurs : schedule.Occurs tz instant) : oneSecond ∣ instant := by
  obtain ⟨date,time,-,resolved⟩ := occurs
  exact oneSecond_dvd_of_resolveLocal (oneSecond_dvd_andTime date time) resolved

section

variable (wallClock : rule.schedule.WallClock)
include wallClock

omit constant in
theorem candidateFrom_of_wallClock (opening : Int) : rule.candidateFrom opening =
      rule.schedule.nextFireAfter (opening - oneSecond) rule.timezone := by
  unfold candidateFrom
  cases kind : rule.schedule with
  | interval =>
    rw [kind] at wallClock
    exact wallClock.elim
  | _ => rfl

omit constant in
theorem isLeast_candidateFrom (orderly : rule.timezone.Orderly) {next : Int}
    (openingWhole : oneSecond ∣ opening) (found : rule.candidateFrom opening = some next) :
    IsLeast {instant | rule.schedule.Occurs rule.timezone instant ∧ opening ≤ instant} next := by
  rw [candidateFrom_of_wallClock wallClock] at found
  obtain ⟨⟨occurs,later⟩,least⟩ := isLeast_nextFireAfter orderly wallClock found
  have nextWhole := oneSecond_dvd_of_occurs occurs
  refine ⟨⟨occurs,?_⟩,?_⟩
  · simp only [oneSecond] at *
    omega
  · rintro instant ⟨instantOccurs,instantGe⟩
    refine least ⟨instantOccurs,?_⟩
    simp only [oneSecond]
    omega

theorem skipsNone_jumpOverClosedGate :
    SkipsNone (rule.schedule.Occurs rule.timezone) rule.gateAllows rule.jumpOverClosedGate := by
  intro candidate next occurs _ jumped
  obtain ⟨opening,opened,found⟩ := bind_eq_some_iff.mp jumped
  have candidateWhole := oneSecond_dvd_of_occurs occurs
  obtain ⟨⟨openingWhole,openingGe,-⟩,openingLeast⟩ :=
    isLeast_openings constant candidateWhole opened
  obtain ⟨⟨nextOccurs,nextGe⟩,nextLeast⟩ :=
    isLeast_candidateFrom wallClock constant.job.orderly openingWhole found
  refine ⟨nextOccurs,le_trans openingGe nextGe,?_⟩
  intro other otherOccurs otherAllowed otherGe
  exact nextLeast ⟨otherOccurs,
    openingLeast ⟨oneSecond_dvd_of_occurs otherOccurs,otherGe,otherAllowed⟩⟩

theorem isLeast_computeNextFire_wallClock (next : rule.computeNextFire after = some fire) :
    IsLeast {instant | rule.schedule.Occurs rule.timezone instant ∧ after < instant ∧
      rule.gateAllows instant = true} fire := by
  obtain ⟨first,started,found⟩ := bind_eq_some_iff.mp next
  have isFirst := isLeast_nextFireAfter constant.job.orderly wallClock started
  obtain ⟨⟨occurs,allowed,notBefore⟩,least⟩ := isLeast_of_guardedJumps
    (skipsNone_jumpOverClosedGate constant wallClock) isFirst.1.1 found
  refine ⟨⟨occurs,lt_of_lt_of_le isFirst.1.2 notBefore,allowed⟩,?_⟩
  rintro instant ⟨occurs,later,allowed⟩
  exact least ⟨occurs,allowed,isFirst.2 ⟨occurs,later⟩⟩

omit constant in
/-- An occurrence within the days scanned from the first one keeps the search from failing, if the
gates lead to it and no day up to it has two occurrences. -/
theorem computeNextFire_wallClock_ne_none (orderly : rule.timezone.Orderly)
    (fireOccurs : rule.schedule.Occurs rule.timezone fire) (fireLater : after < fire)
    (inReach : ∀ first, IsLeast {instant | rule.schedule.Occurs rule.timezone instant ∧
      after < instant} first → fire ≤ first + scanReach)
    (opens : ∀ current, oneSecond ∣ current → after < current → current ≤ fire →
      fire ≤ current + scanReach → ∃ opening, rule.nextGateOpen current = some opening ∧
        opening ≤ fire ∧ rule.gateAllows opening = true)
    (spaced : ∀ earlier later, rule.schedule.Occurs rule.timezone earlier →
      rule.schedule.Occurs rule.timezone later → after < earlier → earlier < later →
      later ≤ fire → earlier + oneDay ≤ later) : rule.computeNextFire after ≠ none := by
  have ⟨_,_,fireOn,_⟩ := fireOccurs
  obtain ⟨first,started⟩ := ne_none_iff_exists'.mp
    (nextFireAfter_ne_none orderly fireOn after)
  have isFirst := isLeast_nextFireAfter orderly wallClock started
  have inReach := inReach first isFirst
  have jumpsOn : ∀ current, rule.schedule.Occurs rule.timezone current ∧ after < current →
      rule.gateAllows current = false → current ≤ fire →
      ∃ next, rule.jumpOverClosedGate current = some next ∧
        (rule.schedule.Occurs rule.timezone next ∧ after < next) ∧
        current + oneDay ≤ next ∧ next ≤ fire := by
    rintro current ⟨currentOccurs,later⟩ notAllowed currentLe
    have currentWhole := oneSecond_dvd_of_occurs currentOccurs
    have currentGe := isFirst.2 ⟨currentOccurs,later⟩
    obtain ⟨opening,opened,openingLe,openingAllowed⟩ :=
      opens current currentWhole later currentLe (by omega)
    have openingGe : current ≤ opening := (last_of_alternate opened).1
    have ticked : rule.candidateFrom opening ≠ none := by
      rw [candidateFrom_of_wallClock wallClock]
      exact nextFireAfter_ne_none orderly fireOn _
    obtain ⟨next,found⟩ := ne_none_iff_exists'.mp ticked
    obtain ⟨⟨nextOccurs,nextGe⟩,least⟩ := isLeast_candidateFrom wallClock orderly
      (oneSecond_dvd_nextGateOpen currentWhole opened) found
    have moved : current < next := by
      rcases eq_or_lt_of_le (le_trans openingGe nextGe) with same | later
      · have openingEq : opening = current := by omega
        rw [openingEq,notAllowed] at openingAllowed
        cases openingAllowed
      · exact later
    have nextLe := least ⟨fireOccurs,openingLe⟩
    exact ⟨next,by simp [jumpOverClosedGate,opened,found],⟨nextOccurs,by omega⟩,
      spaced _ _ currentOccurs nextOccurs later moved nextLe,nextLe⟩
  simp only [computeNextFire,started,bind_some]
  refine guardedJumps_ne_none oneDay jumpsOn isFirst.1
    (isFirst.2 ⟨fireOccurs,fireLater⟩) ?_
  simp only [maxGateJumps,scanReach,maxScanDays,oneDay] at *
  omega

theorem computeNextFire_wallClock_eq_some
    (least : IsLeast {instant | rule.schedule.Occurs rule.timezone instant ∧ after < instant ∧
      rule.gateAllows instant = true} fire) (inReach : fire ≤ after + 1400 * oneDay) :
    rule.computeNextFire after = some fire := by
  have nearFirst : ∀ first, IsLeast {instant | rule.schedule.Occurs rule.timezone instant ∧
      after < instant} first → fire ≤ first + scanReach := by
    rintro first ⟨⟨-,later⟩,-⟩
    simp only [scanReach,maxScanDays,oneDay] at *
    omega
  obtain ⟨other,found⟩ := ne_none_iff_exists'.mp
    (computeNextFire_wallClock_ne_none wallClock constant.job.orderly least.1.1 least.1.2.1
      nearFirst (fun _ whole _ notPast => exists_nextGateOpen constant whole
        (oneSecond_dvd_of_occurs least.1.1) notPast least.1.2.2)
      fun _ _ isEarlier isLater _ ordered _ =>
        occurs_add_day_le constant.job isEarlier isLater ordered)
  rw [found,(isLeast_computeNextFire_wallClock constant wallClock found).unique least]

end

/-! ### Intervals -/

section

variable (isInterval : rule.schedule = .interval seconds)
include isInterval

omit constant in
theorem computeNextFire_interval (after : Int) : rule.computeNextFire after =
      guardedJumps rule.gateAllows rule.jumpOverClosedGate (1498 + 1 + 1)
        (after + seconds * oneSecond) := by
  rw [computeNextFire,isInterval]
  rfl

omit constant in
theorem computeNextFire_interval_of_closed
    (closed : rule.gateAllows (after + seconds * oneSecond) = false)
    (opens : ∀ opening, rule.nextGateOpen (after + seconds * oneSecond) = some opening →
      rule.gateAllows opening = true) :
    rule.computeNextFire after = rule.nextGateOpen (after + seconds * oneSecond) := by
  rw [computeNextFire_interval isInterval,guardedJumps_of_not_allowed _ closed,jumpOverClosedGate]
  cases opened : rule.nextGateOpen (after + seconds * oneSecond) with
  | none => rfl
  | some opening =>
    have fromOpening : rule.candidateFrom opening = some opening := by rw [candidateFrom,isInterval]
    rw [bind_some,fromOpening,bind_some,guardedJumps_of_allowed _ (opens opening opened)]

end

end Openings

end FireRule

/-- In zones with a constant offset the next opening is the least allowed whole second within 1462
days, and more rounds find no other. -/
theorem gate_opening_exact (trigger : Trigger) (constant : trigger.toFireRule.Constant)
    {instant : Int} (whole : oneSecond ∣ instant) :
    (∀ opening, trigger.nextGateOpen instant = some opening ↔
      IsLeast {candidate | oneSecond ∣ candidate ∧ instant ≤ candidate ∧
        candidate ≤ instant + 1462 * oneDay ∧ trigger.gateAllows candidate = true}
        opening) ∧
    (trigger.nextGateOpen instant = none ↔
      ∀ candidate, oneSecond ∣ candidate → instant ≤ candidate →
        candidate ≤ instant + 1462 * oneDay → trigger.gateAllows candidate = false) ∧
    ∀ rounds, maxRounds ≤ rounds →
      alternate trigger.calendarOpenFrom trigger.windowOpenFrom
          (instant + maxScanDays * oneDay) rounds instant = trigger.nextGateOpen instant := by
  have exact : ∀ {rounds opening}, 10 ≤ rounds →
      (alternate trigger.calendarOpenFrom trigger.windowOpenFrom (instant + scanReach) rounds
        instant = some opening ↔ _) := fun enough =>
    alternate_eq_some_iff_isLeast constant enough whole
  refine ⟨fun opening => (exact (by decide)).trans ⟨?_,?_⟩,⟨?_,?_⟩,fun rounds enough => ?_⟩
  · rintro ⟨⟨⟨openingWhole,notBefore,allowed⟩,least⟩,inReach⟩
    exact ⟨⟨openingWhole,notBefore,inReach,allowed⟩,
      fun candidate inSet => least ⟨inSet.1,inSet.2.1,inSet.2.2.2⟩⟩
  · rintro ⟨⟨openingWhole,notBefore,inReach,allowed⟩,least⟩
    refine ⟨⟨⟨openingWhole,notBefore,allowed⟩,?_⟩,inReach⟩
    rintro candidate ⟨candidateWhole,candidateGe,candidateAllowed⟩
    by_cases candidateLe : candidate ≤ instant + 1462 * oneDay
    · exact least ⟨candidateWhole,candidateGe,candidateLe,candidateAllowed⟩
    · omega
  · intro missing candidate candidateWhole candidateGe candidateLe
    by_contra allowed
    obtain ⟨opening,found,-⟩ := exists_nextGateOpen constant whole candidateWhole
      candidateGe (by simpa using allowed) candidateLe
    rw [missing] at found
    cases found
  · intro closed
    rw [eq_none_iff_forall_ne_some]
    intro opening found
    obtain ⟨⟨⟨openingWhole,notBefore,allowed⟩,-⟩,inReach⟩ := (exact (by decide)).mp found
    exact absurd allowed (by simp [closed opening openingWhole notBefore inReach])
  · refine ext fun opening => ?_
    exact (exact (le_trans (by decide) enough)).trans (exact (by decide)).symm

/-- In zones with a constant offset the next fire is exact.  A wall-clock trigger gets its least
allowed occurrence, if it lies within 1400 days; an interval fires a beat later or, if the gates
are closed then, at their earliest opening, as far as the days scanned reach. -/
theorem computeNextFire_exact (trigger : Trigger) (constant : trigger.toFireRule.Constant)
    (after : Int) : (trigger.schedule.WallClock →
      (∀ fire, trigger.computeNextFire after = some fire →
        IsLeast {instant | trigger.schedule.Occurs trigger.timezone instant ∧ after < instant ∧
          trigger.gateAllows instant = true} fire) ∧
      ∀ fire, IsLeast {instant | trigger.schedule.Occurs trigger.timezone instant ∧
          after < instant ∧ trigger.gateAllows instant = true} fire →
        fire ≤ after + 1400 * oneDay → trigger.computeNextFire after = some fire) ∧
    ∀ seconds : Nat, trigger.schedule = .interval seconds → oneSecond ∣ after →
      (trigger.gateAllows (after + seconds * oneSecond) = true →
        trigger.computeNextFire after = some (after + seconds * oneSecond)) ∧
      (trigger.gateAllows (after + seconds * oneSecond) = false →
        ∀ fire, trigger.computeNextFire after = some fire ↔
          IsLeast {instant | oneSecond ∣ instant ∧
            after + seconds * oneSecond ≤ instant ∧
            trigger.gateAllows instant = true} fire ∧
          fire ≤ after + seconds * oneSecond + maxScanDays * oneDay) := by
  refine ⟨fun wallClock => ⟨fun fire next => ?_,fun fire least inReach => ?_⟩,?_⟩
  · exact isLeast_computeNextFire_wallClock constant wallClock next
  · exact computeNextFire_wallClock_eq_some constant wallClock least inReach
  · intro seconds isInterval wholeAfter
    have whole : oneSecond ∣ after + seconds * oneSecond := by
      simp only [oneSecond] at *
      omega
    refine ⟨fun allowed => ?_,fun closed fire => ?_⟩
    · rw [computeNextFire_interval isInterval,guardedJumps_of_allowed _ allowed]
    · rw [computeNextFire_interval_of_closed isInterval closed fun _ opened =>
        (isLeast_openings constant whole opened).1.2.2]
      exact alternate_eq_some_iff_isLeast constant (by decide) whole

/-- A trigger on the universal clock with a calendar of these rules. -/
def calendarTrigger (schedule : Schedule) (includes : List CalendarRule) : Trigger :=
  .withBounds "reports:sync" schedule .utc (some ⟨"open-days",.utc,includes,[]⟩) none none none 0

theorem calendarTrigger_constant (schedule : Schedule) (includes : List CalendarRule) :
    (calendarTrigger schedule includes).toFireRule.Constant where
  job := rfl
  calendar := by
    intro calendar isSet
    cases isSet
    rfl

/-- Asked on a Thursday, a gate that is open on Mondays opens four days later. -/
theorem gate_opening_exact_monday :
    IsLeast {candidate | oneSecond ∣ candidate ∧ 0 ≤ candidate ∧
      candidate ≤ 0 + 1462 * oneDay ∧
      (calendarTrigger (.interval 60) [.weekly [.mon]]).gateAllows candidate = true} (4 * oneDay) :=
  ((gate_opening_exact (calendarTrigger (.interval 60) [.weekly [.mon]])
    (calendarTrigger_constant _ _) (by decide)).1 _).mp (by decide)

/-- Asked on a Thursday, day 0, for nine o'clock on a Monday, and for the next minute. -/
theorem computeNextFire_exact_monday :
    IsLeast {instant | (daily (.fromHm 9 0)).Occurs Tz.utc instant ∧
      0 < instant ∧ (calendarTrigger (.daily (.fromHm 9 0))
        [.weekly [.mon]]).gateAllows instant = true} (4 * oneDay + 32400 * oneSecond) ∧
    (calendarTrigger (.interval 60) [.weekly [.thu]]).computeNextFire 0 =
      some (0 + 60 * oneSecond) := by
  constructor
  · exact ((computeNextFire_exact (calendarTrigger (.daily (.fromHm 9 0))
      [.weekly [.mon]]) (calendarTrigger_constant _ _) 0).1 trivial).1 _ (by decide)
  · exact ((computeNextFire_exact (calendarTrigger (.interval 60) [.weekly [.thu]])
      (calendarTrigger_constant _ _) 0).2 60 rfl (by decide)).1 (by decide)

theorem calendarTrigger_gateAllows_iff {schedule : Schedule} {date instant : Int} :
    (calendarTrigger schedule [.dates [date]]).gateAllows instant = true ↔
      instant / oneDay = date := by
  have shown : Tz.utc.toLocal instant = instant := by
    have isConstant : Tz.utc.Constant := rfl
    exact Int.add_zero instant
  simp [calendarTrigger,Trigger.withBounds,gateAllows,calendarAllows,
    windowAllows,Calendar.isAllowedAt,Calendar.isAllowed,CalendarRule.matchesAt,shown,dateNaive]

def farTrigger : Trigger :=
  calendarTrigger (.interval 60) [.dates [3000]]

/-- The calendar opens on day 3000, beyond the days scanned, and the job every minute never fires.
-/
theorem interval_misses_far_opening :
    farTrigger.toFireRule.Constant ∧
    farTrigger.gateAllows (0 + 60 * oneSecond) = false ∧
    IsLeast {instant | oneSecond ∣ instant ∧ 0 + 60 * oneSecond ≤ instant ∧
      farTrigger.gateAllows instant = true} (3000 * oneDay) ∧
    farTrigger.computeNextFire 0 = none := by
  refine ⟨calendarTrigger_constant _ _,by decide,?_,by decide +kernel⟩
  simp only [farTrigger,calendarTrigger_gateAllows_iff]
  refine ⟨by decide,?_⟩
  rintro instant ⟨-,-,onDate⟩
  simp only [oneDay] at *
  omega

end Croniq

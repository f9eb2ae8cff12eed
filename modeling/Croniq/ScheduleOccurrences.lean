import Croniq.ScheduleFires
import Mathlib.Order.Bounds.Basic

/-!
# The occurrences of a wall-clock schedule

A wall-clock schedule occurs at its time of day on the local dates it names, or,
if the clock jumps over that time, at the instant of the jump.
-/

namespace Croniq

open CivilCalendar List Option PiecewiseClock Schedule

/-- The date is the day of its month that the ordinal names. -/
def MonthDay.FallsOn (ordinal : MonthDay) (date : Int) : Prop :=
  match ordinal with
  | .day number => dayOf date = number
  | .last => (dayOf date : Int) = daysInMonth (yearOf date) (monthOf date)

/-- The dates of a wall-clock schedule, with the time of day. -/
def Schedule.OccursOn (schedule : Schedule) (date : Int) (time : NaiveTime) : Prop :=
  match schedule with
  | .daily declared => time = declared
  | .weekdays days declared => time = declared ∧ weekday date ∈ days
  | .monthly ordinals declared => time = declared ∧ ∃ ordinal ∈ ordinals, ordinal.FallsOn date
  | _ => False

/-- The instants at which a wall-clock schedule is due. -/
def Schedule.Occurs (schedule : Schedule) (tz : Tz) (instant : Int) : Prop :=
  ∃ date time, schedule.OccursOn date time ∧ resolveLocal tz (andTime date time) = some instant

/-! ### Months -/

theorem lastDayOfMonth_eq (year : Int) {month : Nat} (positive : 1 ≤ month) (within : month ≤ 12) :
    (lastDayOfMonth year month : Int) = daysInMonth year month := by
  have length := daysInMonth_bounds year positive within
  have firstOfNext : ∀ nextYear nextMonth, 1 ≤ nextMonth → nextMonth ≤ 12 →
      fromYmdOpt nextYear nextMonth 1 = some (monthStart nextYear nextMonth) := by
    intro nextYear nextMonth nextPositive nextWithin
    have := daysInMonth_bounds nextYear nextPositive nextWithin
    rw [fromYmdOpt,if_pos ⟨nextPositive,nextWithin,le_rfl,by push_cast; omega⟩]
    simp
  have lastExists : fromYmdOpt year month (daysInMonth year month).toNat =
      some (monthStart year month + daysInMonth year month - 1) := by
    rw [fromYmdOpt,if_pos ⟨positive,within,by omega,by omega⟩]
    congr 2
    omega
  have lastDay := (fromYmdOpt_eq_some_iff.mp lastExists).2.2
  unfold lastDayOfMonth
  by_cases december : month = 12
  · subst december
    have nextStart : monthStart (year + 1) 1 = monthStart year 12 + daysInMonth year 12 := by
      simp only [monthStart,daysInMonth,yearStart_succ,monthOffset]
      omega
    simp only [if_true,firstOfNext (year + 1) 1 le_rfl (by decide),getD_some,nextStart]
    omega
  · have nextStart :
        monthStart year (month + 1) = monthStart year month + daysInMonth year month := by
      simp only [monthStart,daysInMonth]
      omega
    simp only [if_neg december,firstOfNext year (month + 1) (by omega) (by omega),
      getD_some,nextStart]
    omega

theorem MonthDay.resolve_eq_some_iff {ordinal : MonthDay} {year date : Int} {month : Nat}
    (positive : 1 ≤ month) (within : month ≤ 12) :
    ordinal.resolve year month = some date ↔
      yearOf date = year ∧ monthOf date = month ∧ ordinal.FallsOn date := by
  cases ordinal with
  | day => exact fromYmdOpt_eq_some_iff
  | last =>
    have lastEq := lastDayOfMonth_eq year positive within
    simp only [resolve,FallsOn,fromYmdOpt_eq_some_iff]
    constructor
    · rintro ⟨rfl,rfl,dayEq⟩
      exact ⟨rfl,rfl,by omega⟩
    · rintro ⟨rfl,rfl,dayEq⟩
      exact ⟨rfl,rfl,by omega⟩

theorem addMonths_eq (today : Int) (offset : Nat) :
    addMonths (yearOf today) (monthOf today) offset =
      ((monthIndex today + offset) / 12, ((monthIndex today + offset) % 12).toNat + 1) := by
  simp only [addMonths,monthIndex,Prod.mk.injEq]
  constructor
  · omega
  · omega

private theorem findSome?_range_eq_some_iff {Value : Type*} {count : Nat}
    {choose : Nat → Option Value} {value : Value} :
    (range count).findSome? choose = some value ↔
      ∃ index < count, choose index = some value ∧ ∀ earlier < index, choose earlier = none := by
  induction count with
  | zero => simp
  | succ count ih =>
    rw [range_succ,findSome?_append,or_eq_some_iff,ih,findSome?_eq_none_iff]
    simp only [mem_range,findSome?_singleton]
    constructor
    · rintro (⟨index,indexLt,chosen,first⟩ | ⟨noneBefore,last⟩)
      · exact ⟨index,by omega,chosen,first⟩
      · exact ⟨count,by omega,last,noneBefore⟩
    · rintro ⟨index,indexLt,chosen,first⟩
      obtain indexLt | rfl := Nat.lt_succ_iff_lt_or_eq.mp indexLt
      · exact .inl ⟨index,indexLt,chosen,first⟩
      · exact .inr ⟨first,chosen⟩

private theorem findSome?_range_ne_none {Value : Type*} {count index : Nat}
    {choose : Nat → Option Value} (indexLt : index < count) (chosen : choose index ≠ none) :
    (range count).findSome? choose ≠ none := by
  intro missing
  exact chosen (findSome?_eq_none_iff.mp missing index (mem_range.mpr indexLt))

/-! ### Dates and instants -/

/-- Repeated local times lie within a date, and a jump forward skips at most 180 minutes and ends
on a whole one. -/
structure Tz.Orderly (tz : Tz) : Prop where
  repeats : tz.RepeatsWithinDate
  gaps : tz.zone.GapsWithin (180 * oneMinute) oneMinute

def Tz.DueOn (tz : Tz) (time : NaiveTime) (date instant : Int) : Prop :=
  resolveLocal tz (andTime date time) = some instant

section

variable {tz : Tz} (orderly : tz.Orderly)
include orderly

theorem Tz.Orderly.resolveLocal_of_skipped {naive : Int} (wholeMinute : oneMinute ∣ naive)
    (skipped : (tz.fromLocal naive).earliest = none) :
    ∃ jump, resolveLocal tz naive = some jump ∧
      (∀ earlier < jump, tz.toLocal earlier < naive) ∧ naive < tz.toLocal jump := by
  obtain ⟨jump,first,beyond,short,aligned,shown,unshown⟩ :=
    orderly.gaps.exists_jump (Zone.earliest_eq_none_iff.mp skipped)
  refine ⟨jump,?_,first,beyond⟩
  obtain ⟨minutes,isJump⟩ : ∃ minutes : Nat,
      tz.zone.toLocal jump = naive + (minutes + 1) * oneMinute := by
    obtain ⟨start,rfl⟩ := wholeMinute
    obtain ⟨finish,isFinish⟩ := aligned
    refine ⟨(finish - start - 1).toNat,?_⟩
    simp only [oneMinute] at *
    omega
  rw [resolveLocal,skipped]
  refine findSome?_range_eq_some_iff.mpr ⟨minutes,?_,isJump ▸ shown,fun earlier before => ?_⟩
  · simp only [oneMinute] at *
    omega
  · refine unshown _ ?_ ?_
    all_goals
      simp only [oneMinute] at *
      omega

/-- Every time of day on every date has its instant, before which the date is not over. -/
theorem Tz.Orderly.exists_dueOn (time : NaiveTime) (date : Int) :
    ∃ instant, tz.DueOn time date instant ∧
      ∀ earlier < instant, dateNaive (tz.toLocal earlier) ≤ date := by
  cases shown : (tz.fromLocal (andTime date time)).earliest with
  | some instant =>
    refine ⟨instant,by simp [Tz.DueOn,resolveLocal,shown],fun earlier before => ?_⟩
    have notOver := Zone.localDate_mono (by decide) orderly.repeats before.le
    rwa [show tz.zone.toLocal instant = _ from Tz.toLocal_of_earliest shown,
      show andTime date time / oneDay = date from dateNaive_andTime date time] at notOver
  | none =>
    have wholeMinute : oneMinute ∣ andTime date time := by
      simp only [andTime,NaiveTime.secondsFromMidnight,oneMinute,oneDay,oneSecond]
      omega
    obtain ⟨jump,resolved,first,-⟩ := orderly.resolveLocal_of_skipped wholeMinute shown
    refine ⟨jump,resolved,fun earlier before => ?_⟩
    have notOver := dateNaive_mono (first earlier before).le
    rwa [dateNaive_andTime] at notOver

variable {time : NaiveTime} {after date instant : Int} (due : tz.DueOn time date instant)
include due

theorem Tz.Orderly.today_le (later : after < instant) : dateNaive (tz.toLocal after) ≤ date := by
  obtain ⟨other,otherDue,notOver⟩ := orderly.exists_dueOn time date
  obtain rfl : instant = other := some.inj (due.symm.trans otherDue)
  exact notOver after later

omit orderly in
theorem Tz.DueOn.le_dateNaive : date ≤ dateNaive (tz.toLocal instant) := by
  have reached := dateNaive_mono (le_toLocal_of_resolveLocal due)
  rwa [dateNaive_andTime] at reached

theorem Tz.Orderly.lt_of_today_lt (later : dateNaive (tz.toLocal after) < date) : after < instant :=
  Tz.lt_of_dateNaive_lt orderly.repeats (lt_of_lt_of_le later due.le_dateNaive)

theorem Tz.Orderly.le_of_date_lt {otherTime : NaiveTime} {otherDate other : Int}
    (otherDue : tz.DueOn otherTime otherDate other) (earlier : date < otherDate) :
    instant ≤ other := by
  by_contra notLater
  have := orderly.today_le due (not_le.mp notLater)
  have := otherDue.le_dateNaive
  omega

theorem Tz.Orderly.isLeast_occurs {schedule : Schedule}
    (onlyTime : ∀ otherDate other, schedule.OccursOn otherDate other → other = time)
    (occursOn : schedule.OccursOn date time) (later : after < instant)
    (least : ∀ otherDate other, schedule.OccursOn otherDate time → tz.DueOn time otherDate other →
      after < other → date ≤ otherDate) :
    IsLeast {instant | schedule.Occurs tz instant ∧ after < instant} instant := by
  refine ⟨⟨⟨date,time,occursOn,due⟩,later⟩,?_⟩
  rintro other ⟨⟨otherDate,otherTime,otherOn,otherDue⟩,otherLater⟩
  obtain rfl := onlyTime otherDate otherTime otherOn
  rcases eq_or_lt_of_le (least otherDate other otherOn otherDue otherLater) with rfl | earlier
  · exact (some.inj (due.symm.trans otherDue)).le
  · exact orderly.le_of_date_lt due otherDue earlier

end

/-! ### The search of each kind -/

theorem filter_lt_eq_some_iff {tz : Tz} {time : NaiveTime} {after date instant : Int} :
    (resolveLocal tz (andTime date time)).filter (after < ·) = some instant ↔
      tz.DueOn time date instant ∧ after < instant := by
  simp only [filter_eq_some_iff,decide_eq_true_eq,Tz.DueOn]

section Kinds

variable {tz : Tz} (orderly : tz.Orderly) {time : NaiveTime} {after fire : Int}

include orderly in
theorem isLeast_nextFireAfter_daily (next : (daily time).nextFireAfter after tz = some fire) :
    IsLeast {instant | (daily time).Occurs tz instant ∧ after < instant} fire := by
  simp only [nextFireAfter] at next
  split at next
  · rename_i candidate found
    cases next
    obtain ⟨due,later⟩ := filter_lt_eq_some_iff.mp found
    exact orderly.isLeast_occurs due (fun _ _ on => on) rfl later
      fun _ _ _ otherDue => orderly.today_le otherDue
  · rename_i passed
    refine orderly.isLeast_occurs next (fun _ _ on => on) rfl
      (orderly.lt_of_today_lt next (by omega)) ?_
    intro otherDate other _ otherDue otherLater
    rcases eq_or_lt_of_le (orderly.today_le otherDue otherLater) with rfl | laterDate
    · have taken := filter_lt_eq_some_iff.mpr ⟨otherDue,otherLater⟩
      rw [passed] at taken
      cases taken
    · exact laterDate

variable {days : List Weekday} {ordinals : List MonthDay} {schedule : Schedule}

theorem weekdays_choice_iff {date instant : Int} : (if weekday date ∈ days then
        (resolveLocal tz (andTime date time)).filter (after < ·)
      else none) = some instant ↔
      weekday date ∈ days ∧ tz.DueOn time date instant ∧ after < instant := by
  split
  · rename_i named
    simp only [named,true_and]
    exact filter_lt_eq_some_iff
  · rename_i notNamed
    simp [notNamed]

include orderly in
theorem isLeast_nextFireAfter_weekdays
    (next : (weekdays days time).nextFireAfter after tz = some fire) :
    IsLeast {instant | (weekdays days time).Occurs tz instant ∧ after < instant} fire := by
  obtain ⟨offset,-,chosen,first⟩ := findSome?_range_eq_some_iff.mp next
  obtain ⟨named,due,later⟩ := weekdays_choice_iff.mp chosen
  refine orderly.isLeast_occurs due (fun _ _ on => on.1) ⟨rfl,named⟩ later ?_
  rintro otherDate other ⟨-,otherNamed⟩ otherDue otherLater
  have notBefore := orderly.today_le otherDue otherLater
  by_contra earlier
  obtain ⟨skipped,rfl⟩ := Int.le.dest notBefore
  have missed := first skipped (by omega)
  have taken := weekdays_choice_iff.mpr ⟨otherNamed,otherDue,otherLater⟩
  rw [missed] at taken
  cases taken

variable {date : Int}

include orderly in
theorem nextFireAfter_weekdays_ne_none (named : weekday date ∈ days) :
    (weekdays days time).nextFireAfter after tz ≠ none := by
  let today := dateNaive (tz.toLocal after)
  have inWeek : (1 + (date - today - 1) % 7).toNat < 8 := by omega
  refine findSome?_range_ne_none inWeek ?_
  have sameDay : weekday (today + (1 + (date - today - 1) % 7).toNat) = weekday date :=
    weekday_eq_of_emod_eq (by omega)
  obtain ⟨instant,due,-⟩ := orderly.exists_dueOn time (today + (1 + (date - today - 1) % 7).toNat)
  have later : after < instant := orderly.lt_of_today_lt due (by omega)
  rw [← sameDay] at named
  intro missing
  have taken := weekdays_choice_iff.mpr ⟨named,due,later⟩
  rw [missing] at taken
  cases taken

/-- The fires of a monthly schedule in a month, later than `after`. -/
def monthlyFires (tz : Tz) (ordinals : List MonthDay) (time : NaiveTime) (after index : Int) :
    List Int :=
  (ordinals.filterMap fun ordinal =>
    (ordinal.resolve (index / 12) ((index % 12).toNat + 1)).bind fun date =>
      resolveLocal tz (andTime date time)).filter (after < ·)

theorem mem_monthlyFires {index instant : Int} :
    instant ∈ monthlyFires tz ordinals time after index ↔
      ∃ date, monthIndex date = index ∧ (∃ ordinal ∈ ordinals, ordinal.FallsOn date) ∧
        tz.DueOn time date instant ∧ after < instant := by
  have resolved : ∀ (ordinal : MonthDay) (date : Int),
      ordinal.resolve (index / 12) ((index % 12).toNat + 1) = some date ↔
        monthIndex date = index ∧ ordinal.FallsOn date := by
    intro ordinal date
    rw [MonthDay.resolve_eq_some_iff (by omega) (by omega),monthIndex_eq_iff,and_assoc]
  simp only [monthlyFires,mem_filter,mem_filterMap,bind_eq_some_iff,
    resolved,decide_eq_true_eq,Tz.DueOn]
  constructor
  · rintro ⟨⟨ordinal,member,date,⟨inMonth,falls⟩,due⟩,later⟩
    exact ⟨date,inMonth,⟨ordinal,member,falls⟩,due,later⟩
  · rintro ⟨date,inMonth,⟨ordinal,member,falls⟩,due,later⟩
    exact ⟨⟨ordinal,member,date,⟨inMonth,falls⟩,due⟩,later⟩

theorem nextFireAfter_monthly_eq (ordinals : List MonthDay) (time : NaiveTime) (after : Int) :
    (monthly ordinals time).nextFireAfter after tz =
      (range 3).findSome? fun (offset : Nat) =>
        (monthlyFires tz ordinals time after
          (monthIndex (dateNaive (tz.toLocal after)) + offset)).min? := by
  simp only [nextFireAfter,addMonths_eq,monthlyFires]

theorem Schedule.occurs_of_nextFireAfter (wallClock : schedule.WallClock)
    (next : schedule.nextFireAfter after tz = some fire) : schedule.Occurs tz fire := by
  cases schedule with
  | daily time =>
    simp only [nextFireAfter] at next
    split at next
    · rename_i candidate found
      cases next
      exact ⟨_,time,rfl,(filter_lt_eq_some_iff.mp found).1⟩
    · exact ⟨_,time,rfl,next⟩
  | weekdays days time =>
    obtain ⟨offset,-,chosen⟩ := exists_of_findSome?_eq_some next
    obtain ⟨named,due,-⟩ := weekdays_choice_iff.mp chosen
    exact ⟨_,time,⟨rfl,named⟩,due⟩
  | monthly ordinals time =>
    rw [nextFireAfter_monthly_eq] at next
    obtain ⟨offset,-,chosen⟩ := exists_of_findSome?_eq_some next
    obtain ⟨date,-,falls,due,-⟩ := mem_monthlyFires.mp (min?_mem chosen)
    exact ⟨date,time,⟨rfl,falls⟩,due⟩
  | interval seconds | once | disabled => exact wallClock.elim

theorem Schedule.oneSecond_dvd_nextFireAfter (wallClock : schedule.WallClock)
    (next : schedule.nextFireAfter after tz = some fire) : oneSecond ∣ fire := by
  obtain ⟨date,time,-,due⟩ := occurs_of_nextFireAfter wallClock next
  exact oneSecond_dvd_of_resolveLocal (oneSecond_dvd_andTime date time) due

include orderly in
theorem isLeast_nextFireAfter_monthly
    (next : (monthly ordinals time).nextFireAfter after tz = some fire) :
    IsLeast {instant | (monthly ordinals time).Occurs tz instant ∧ after < instant} fire := by
  rw [nextFireAfter_monthly_eq] at next
  obtain ⟨offset,-,chosen,first⟩ := findSome?_range_eq_some_iff.mp next
  obtain ⟨member,minimal⟩ := min?_eq_some_iff.mp chosen
  obtain ⟨date,inMonth,falls,due,later⟩ := mem_monthlyFires.mp member
  refine ⟨⟨⟨date,time,⟨rfl,falls⟩,due⟩,later⟩,?_⟩
  rintro other ⟨⟨otherDate,otherTime,⟨sameTime,otherFalls⟩,otherDue⟩,otherLater⟩
  subst sameTime
  have notBefore := monthIndex_mono (orderly.today_le otherDue otherLater)
  obtain ⟨skipped,skippedEq⟩ := Int.le.dest notBefore
  have otherMember : other ∈ monthlyFires tz ordinals otherTime after
      (monthIndex (dateNaive (tz.toLocal after)) + skipped) :=
    mem_monthlyFires.mpr ⟨otherDate,skippedEq.symm,otherFalls,otherDue,otherLater⟩
  rcases Nat.lt_trichotomy skipped offset with earlierMonth | rfl | laterMonth
  · rw [min?_eq_none_iff.mp (first skipped earlierMonth)] at otherMember
    cases otherMember
  · exact minimal _ otherMember
  · exact orderly.le_of_date_lt due otherDue (lt_of_monthIndex_lt (by omega))

theorem MonthDay.exists_fallsOn {ordinal : MonthDay} (falls : ordinal.FallsOn date) (index : Int) :
    ∃ offset : Nat, offset < 2 ∧ ∃ later, monthIndex later = index + offset ∧
      ordinal.FallsOn later := by
  have exists_of_resolve : ∀ offset : Nat,
      (∃ later, ordinal.resolve ((index + offset) / 12) (((index + offset) % 12).toNat + 1) =
        some later) →
      ∃ later, monthIndex later = index + offset ∧ ordinal.FallsOn later := by
    rintro offset ⟨later,resolved⟩
    obtain ⟨yearEq,monthEq,laterFalls⟩ :=
      (MonthDay.resolve_eq_some_iff (by omega) (by omega)).mp resolved
    exact ⟨later,monthIndex_eq_iff.mpr ⟨yearEq,monthEq⟩,laterFalls⟩
  cases ordinal with
  | last =>
    refine ⟨0,by omega,exists_of_resolve 0 ?_⟩
    simp only [resolve,Nat.cast_zero,add_zero]
    have positive : 1 ≤ (index % 12).toNat + 1 := by omega
    have within : (index % 12).toNat + 1 ≤ 12 := by omega
    have length := daysInMonth_bounds (index / 12) positive within
    have lastEq := lastDayOfMonth_eq (index / 12) positive within
    exact exists_fromYmdOpt positive within (by omega) (by omega)
  | day number =>
    have dayEq : dayOf date = number := falls
    obtain ⟨dayPositive,dayLe⟩ := dayOf_bounds date
    obtain ⟨positive,within,-,-⟩ := monthOf_bounds date
    have atMost := (daysInMonth_bounds (yearOf date) positive within).2
    rcases daysInMonth_consecutive index with thirtyOne | thirtyOne
    · refine ⟨0,by omega,exists_of_resolve 0 ?_⟩
      simp only [resolve,Nat.cast_zero,add_zero]
      exact exists_fromYmdOpt (by omega) (by omega) (by omega) (by omega)
    · refine ⟨1,by omega,exists_of_resolve 1 ?_⟩
      simp only [resolve,Nat.cast_one]
      exact exists_fromYmdOpt (by omega) (by omega) (by omega) (by omega)

include orderly in
theorem nextFireAfter_monthly_ne_none (falls : ∃ ordinal ∈ ordinals, ordinal.FallsOn date) :
    (monthly ordinals time).nextFireAfter after tz ≠ none := by
  obtain ⟨ordinal,member,fallsOn⟩ := falls
  obtain ⟨offset,offsetLt,later,inMonth,laterFalls⟩ :=
    MonthDay.exists_fallsOn fallsOn (monthIndex (dateNaive (tz.toLocal after)) + 1)
  have laterDate : dateNaive (tz.toLocal after) < later := lt_of_monthIndex_lt (by omega)
  obtain ⟨instant,due,-⟩ := orderly.exists_dueOn time later
  rw [nextFireAfter_monthly_eq]
  have inReach : offset + 1 < 3 := by omega
  refine findSome?_range_ne_none inReach ?_
  intro missing
  have found : instant ∈ monthlyFires tz ordinals time after
      (monthIndex (dateNaive (tz.toLocal after)) + (offset + 1 : Nat)) :=
    mem_monthlyFires.mpr ⟨later,by push_cast; omega,⟨ordinal,member,laterFalls⟩,due,
      orderly.lt_of_today_lt due laterDate⟩
  rw [min?_eq_none_iff.mp missing] at found
  cases found

include orderly in
theorem Schedule.isLeast_nextFireAfter (wallClock : schedule.WallClock)
    (next : schedule.nextFireAfter after tz = some fire) :
    IsLeast {instant | schedule.Occurs tz instant ∧ after < instant} fire := by
  cases schedule with
  | daily => exact isLeast_nextFireAfter_daily orderly next
  | weekdays => exact isLeast_nextFireAfter_weekdays orderly next
  | monthly => exact isLeast_nextFireAfter_monthly orderly next
  | interval seconds | once | disabled => exact wallClock.elim

include orderly in
theorem Schedule.nextFireAfter_ne_none (occursOn : schedule.OccursOn date time) (after : Int) :
    schedule.nextFireAfter after tz ≠ none := by
  cases schedule with
  | daily declared =>
    obtain ⟨instant,due,-⟩ :=
      orderly.exists_dueOn declared (dateNaive (tz.toLocal after) + 1)
    simp only [nextFireAfter,show resolveLocal tz _ = _ from due]
    split <;> exact some_ne_none _
  | weekdays => exact nextFireAfter_weekdays_ne_none orderly occursOn.2
  | monthly => exact nextFireAfter_monthly_ne_none orderly occursOn.2
  | interval seconds | once | disabled => exact occursOn.elim

end Kinds

/-- A wall-clock schedule with some days; a day of the month is one of 1 to 31, or the last. -/
def Schedule.NamesDays : Schedule → Prop
  | .daily _ => True
  | .weekdays days _ => days ≠ []
  | .monthly ordinals _ => ordinals ≠ [] ∧
      ∀ ordinal ∈ ordinals, ∀ number, ordinal = .day number → 1 ≤ number ∧ number ≤ 31
  | _ => False

theorem exists_weekday (day : Weekday) : ∃ date, weekday date = day := by
  cases day with
  | mon => exact ⟨4,rfl⟩
  | tue => exact ⟨5,rfl⟩
  | wed => exact ⟨6,rfl⟩
  | thu => exact ⟨0,rfl⟩
  | fri => exact ⟨1,rfl⟩
  | sat => exact ⟨2,rfl⟩
  | sun => exact ⟨3,rfl⟩

theorem MonthDay.exists_date (ordinal : MonthDay)
    (valid : ∀ number, ordinal = .day number → 1 ≤ number ∧ number ≤ 31) :
    ∃ date, ordinal.FallsOn date := by
  have january : daysInMonth 1970 1 = 31 := rfl
  obtain ⟨date,resolved⟩ : ∃ date, ordinal.resolve 1970 1 = some date := by
    cases ordinal with
    | day number =>
      obtain ⟨positive,atMost⟩ := valid number rfl
      have within : (number : Int) ≤ daysInMonth 1970 1 := by omega
      exact exists_fromYmdOpt le_rfl (by decide) positive within
    | last => exact ⟨30,rfl⟩
  exact ⟨date,((MonthDay.resolve_eq_some_iff le_rfl (by decide)).mp resolved).2.2⟩

theorem Schedule.NamesDays.exists_occursOn {schedule : Schedule} (names : schedule.NamesDays) :
    schedule.WallClock ∧ ∃ date time, schedule.OccursOn date time := by
  cases schedule with
  | daily time => exact ⟨trivial,0,time,rfl⟩
  | weekdays days time =>
    obtain ⟨day,member⟩ := exists_mem_of_ne_nil days names
    obtain ⟨date,rfl⟩ := exists_weekday day
    exact ⟨trivial,date,time,rfl,member⟩
  | monthly ordinals time =>
    obtain ⟨ordinal,member⟩ := exists_mem_of_ne_nil ordinals names.1
    obtain ⟨date,falls⟩ := ordinal.exists_date (names.2 ordinal member)
    exact ⟨trivial,date,time,rfl,ordinal,member,falls⟩
  | interval seconds | once | disabled => exact names.elim

/-- The next fire exists and is the least occurrence after the instant. -/
theorem least_next_occurrence {tz : Tz} (orderly : tz.Orderly) {schedule : Schedule}
    (names : schedule.NamesDays) (after : Int) :
    ∃ fire, schedule.nextFireAfter after tz = some fire ∧
      IsLeast {instant | schedule.Occurs tz instant ∧ after < instant} fire := by
  obtain ⟨wallClock,date,time,occursOn⟩ := names.exists_occursOn
  obtain ⟨fire,next⟩ := ne_none_iff_exists'.mp
    (nextFireAfter_ne_none orderly occursOn after)
  exact ⟨fire,next,isLeast_nextFireAfter orderly wallClock next⟩

def springZone : Tz where
  zone := ⟨0,[⟨7200000000000,3600000000000⟩],pairwise_singleton _ _⟩
  wholeSeconds := by decide

theorem springZone_toLocal (instant : Int) : springZone.zone.toLocal instant =
      instant + if instant < 7200000000000 then 0 else 3600000000000 := by
  rfl

theorem springZone_orderly : springZone.Orderly where
  repeats := ⟨fun backwards => absurd backwards (by decide),trivial⟩
  gaps instant jumps := by
    simp only [springZone_toLocal] at jumps
    obtain rfl : instant = 7200000000000 := by
      split at jumps <;> split at jumps <;> omega
    refine ⟨by decide,by decide,fun skipped above below other shown => ?_⟩
    simp only [springZone_toLocal] at above below shown
    split at shown <;> omega

def autumnZone : Tz where
  zone := ⟨7200000000000,[⟨3600000000000,3600000000000⟩],pairwise_singleton _ _⟩
  wholeSeconds := by decide

theorem autumnZone_toLocal (instant : Int) : autumnZone.zone.toLocal instant =
      instant + if instant < 3600000000000 then 7200000000000 else 3600000000000 := by
  rfl

theorem autumnZone_orderly : autumnZone.Orderly where
  repeats := ⟨fun _ => by decide,trivial⟩
  gaps instant jumps := by
    simp only [autumnZone_toLocal] at jumps
    split at jumps <;> split at jumps <;> omega

/-- The fire at half past two comes with the jump. -/
theorem least_next_occurrence_spring :
    (daily (.fromHm 2 30)).nextFireAfter 0 springZone = some 7200000000000 ∧
      ∃ fire, (daily (.fromHm 2 30)).nextFireAfter 0 springZone = some fire ∧
        IsLeast {instant | (daily (.fromHm 2 30)).Occurs springZone
          instant ∧ 0 < instant} fire := by
  refine ⟨by decide,least_next_occurrence springZone_orderly ?_ 0⟩
  trivial

/-! ### Zones with a constant offset -/

section

variable {tz : Tz} (constant : tz.Constant)
include constant

theorem Tz.Constant.toLocal_eq (instant : Int) : tz.toLocal instant = instant + tz.zone.first :=
  Zone.toLocal_of_constant constant instant

theorem Tz.Constant.orderly : tz.Orderly where
  repeats := by
    have none : tz.zone.transitions = [] := constant
    simp [Tz.RepeatsWithinDate,Zone.RepeatsWithinDay,none,RepeatsWithinDayFrom]
  gaps instant jumps := by
    simp only [Zone.toLocal_of_constant constant] at jumps
    omega

theorem Tz.Constant.resolveLocal_eq (naive : Int) :
    resolveLocal tz naive = some (naive - tz.zone.first) := by
  have mapped : tz.fromLocal naive = .single (naive - tz.zone.first) :=
    Zone.fromLocal_of_constant constant naive
  simp [resolveLocal,mapped,MappedLocalTime.earliest]

theorem Tz.Constant.resolveLocalAtOrAfter_eq (naive floor : Int) :
    resolveLocalAtOrAfter tz naive floor = some (naive - tz.zone.first) := by
  have mapped : tz.fromLocal naive = .single (naive - tz.zone.first) :=
    Zone.fromLocal_of_constant constant naive
  simp only [resolveLocalAtOrAfter,mapped]
  exact constant.resolveLocal_eq naive

theorem Schedule.occurs_add_day_le {schedule : Schedule} {first second : Int}
    (firstOccurs : schedule.Occurs tz first) (secondOccurs : schedule.Occurs tz second)
    (earlier : first < second) : first + oneDay ≤ second := by
  obtain ⟨firstDate,firstTime,firstOn,firstDue⟩ := firstOccurs
  obtain ⟨secondDate,secondTime,secondOn,secondDue⟩ := secondOccurs
  rw [constant.resolveLocal_eq,some.injEq] at firstDue secondDue
  have sameTime : firstTime = secondTime := by
    cases schedule with
    | daily => exact firstOn.trans secondOn.symm
    | weekdays days declared | monthly => exact firstOn.1.trans secondOn.1.symm
    | interval seconds | once | disabled => exact firstOn.elim
  subst sameTime firstDue secondDue
  simp only [andTime,oneDay] at *
  omega

end

end Croniq

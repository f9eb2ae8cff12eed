import Croniq.CivilCalendar
import Croniq.PiecewiseClock

/-!
# Schedules and their next fire

Instants are nanoseconds since the epoch, and a local date and time is the same
count read off a zone's wall clock.
-/

namespace Croniq

open CivilCalendar List Option PiecewiseClock

def oneSecond : Int := 1000000000

def oneMinute : Int := 60000000000

def oneDay : Int := 86400000000000

/-- A zone of the time zone database: its offsets and transitions are in whole
seconds. -/
structure Tz where
  zone : Zone
  wholeSeconds : zone.Aligned oneSecond
deriving DecidableEq

def Tz.utc : Tz where
  zone := ⟨0,[],.nil⟩
  wholeSeconds := by decide

def Tz.toLocal (tz : Tz) (instant : Int) : Int :=
  tz.zone.toLocal instant

def Tz.fromLocal (tz : Tz) (naive : Int) : MappedLocalTime :=
  tz.zone.fromLocal naive

def Tz.Constant (tz : Tz) : Prop :=
  tz.zone.transitions = []

/-- No repeated local interval of the zone crosses midnight. -/
def Tz.RepeatsWithinDate (tz : Tz) : Prop :=
  tz.zone.RepeatsWithinDay oneDay

structure NaiveTime where
  (hour minute : Nat)
  hour_lt : hour < 24
  minute_lt : minute < 60
deriving DecidableEq

def NaiveTime.fromHm (hour minute : Nat) : NaiveTime :=
  ⟨hour % 24,minute % 60,Nat.mod_lt _ (by decide),Nat.mod_lt _ (by decide)⟩

def NaiveTime.fromHmsOpt (hour minute : Nat) : Option NaiveTime :=
  if valid : hour < 24 ∧ minute < 60 then some ⟨hour,minute,valid.1,valid.2⟩ else none

def NaiveTime.secondsFromMidnight (time : NaiveTime) : Nat :=
  3600 * time.hour + 60 * time.minute

theorem NaiveTime.secondsFromMidnight_lt (time : NaiveTime) : time.secondsFromMidnight < 86400 := by
  have := time.hour_lt
  have := time.minute_lt
  unfold secondsFromMidnight
  omega

def dateNaive (naive : Int) : Int :=
  naive / oneDay

def timeOfDay (naive : Int) : Int :=
  naive % oneDay

def andTime (date : Int) (time : NaiveTime) : Int :=
  date * oneDay + time.secondsFromMidnight * oneSecond

theorem dateNaive_andTime (date : Int) (time : NaiveTime) :
    dateNaive (andTime date time) = date := by
  have := time.secondsFromMidnight_lt
  simp only [dateNaive,andTime,oneDay,oneSecond]
  omega

theorem oneSecond_dvd_andTime (date : Int) (time : NaiveTime) : oneSecond ∣ andTime date time := by
  simp only [andTime,oneDay,oneSecond]
  omega

inductive MonthDay where
  | day (number : Nat)
  | last
deriving DecidableEq

inductive Schedule where
  | interval (seconds : Nat)
  | daily (time : NaiveTime)
  | weekdays (days : List Weekday) (time : NaiveTime)
  | monthly (ordinals : List MonthDay) (time : NaiveTime)
  | once (instant : Int)
  | disabled
deriving DecidableEq

/-- The earliest instant that shows the local time. In a gap the search steps forward by minutes. -/
def resolveLocal (tz : Tz) (naive : Int) : Option Int :=
  match (tz.fromLocal naive).earliest with
  | some instant => some instant
  | none =>
    (range 180).findSome? fun (minute : Nat) =>
      (tz.fromLocal (naive + (minute + 1) * oneMinute)).earliest

def resolveLocalAtOrAfter (tz : Tz) (naive floor : Int) : Option Int :=
  match tz.fromLocal naive with
  | .ambiguous earliest latest => some (if floor ≤ earliest then earliest else latest)
  | _ => resolveLocal tz naive

def addMonths (year : Int) (month offset : Nat) : Int × Nat :=
  let total := (month : Int) - 1 + offset
  (year + total / 12, (total % 12).toNat + 1)

def lastDayOfMonth (year : Int) (month : Nat) : Nat :=
  let (nextYear, nextMonth) := if month = 12 then (year + 1, 1) else (year, month + 1)
  dayOf ((fromYmdOpt nextYear nextMonth 1).getD 0 - 1)

def MonthDay.resolve (ordinal : MonthDay) (year : Int) (month : Nat) : Option Int :=
  fromYmdOpt year month <|
    match ordinal with
    | .day number => number
    | .last => lastDayOfMonth year month

/-- The next fire strictly after an instant; a daily fire of tomorrow is not compared. The cast of
the seconds of an interval is left out here. -/
def Schedule.nextFireAfter (schedule : Schedule) (after : Int) (tz : Tz) : Option Int :=
  let today := dateNaive (tz.toLocal after)
  match schedule with
  | .disabled => none
  | .interval seconds => some (after + seconds * oneSecond)
  | .daily time =>
    match (resolveLocal tz (andTime today time)).filter (after < ·) with
    | some candidate => some candidate
    | none => resolveLocal tz (andTime (today + 1) time)
  | .weekdays days time =>
    (range 8).findSome? fun (offset : Nat) =>
      if weekday (today + offset) ∈ days then
        (resolveLocal tz (andTime (today + offset) time)).filter (after < ·)
      else none
  | .monthly ordinals time =>
    (range 3).findSome? fun monthOffset =>
      let (year, month) := addMonths (yearOf today) (monthOf today) monthOffset
      ((ordinals.filterMap fun ordinal =>
        (ordinal.resolve year month).bind fun date =>
          resolveLocal tz (andTime date time)).filter (after < ·)).min?
  | .once instant => if after < instant then some instant else none

/-- An interval of zero seconds would be due at once. -/
def Schedule.IntervalPositive : Schedule → Prop
  | .interval seconds => 0 < seconds
  | _ => True

variable {tz : Tz} {naive instant : Int}

theorem Tz.toLocal_of_earliest (found : (tz.fromLocal naive).earliest = some instant) :
    tz.toLocal instant = naive :=
  (Zone.earliest_eq_some_iff.mp found).1

theorem toLocal_of_resolveLocal (resolved : resolveLocal tz naive = some instant) :
    ∃ minutes : Nat, tz.toLocal instant = naive + minutes * oneMinute := by
  unfold resolveLocal at resolved
  split at resolved
  · rename_i found
    cases resolved
    exact ⟨0,by simpa using Tz.toLocal_of_earliest found⟩
  · obtain ⟨minute,-,found⟩ := exists_of_findSome?_eq_some resolved
    exact ⟨minute + 1,by simpa using Tz.toLocal_of_earliest found⟩

theorem toLocal_of_resolveLocalAtOrAfter {floor : Int}
    (resolved : resolveLocalAtOrAfter tz naive floor = some instant) :
    ∃ minutes : Nat, tz.toLocal instant = naive + minutes * oneMinute := by
  unfold resolveLocalAtOrAfter at resolved
  split at resolved
  · rename_i earliest latest mapped
    have shown : tz.toLocal earliest = naive ∧ tz.toLocal latest = naive :=
      Zone.toLocal_of_fromLocal_ambiguous mapped
    cases resolved
    refine ⟨0,?_⟩
    split
    · simpa using shown.1
    · simpa using shown.2
  · exact toLocal_of_resolveLocal resolved

theorem le_toLocal_of_resolveLocal (resolved : resolveLocal tz naive = some instant) :
    naive ≤ tz.toLocal instant := by
  obtain ⟨minutes,shown⟩ := toLocal_of_resolveLocal resolved
  simp only [oneMinute] at shown
  omega

theorem Tz.oneSecond_dvd_toLocal_iff (tz : Tz) (instant : Int) :
    oneSecond ∣ tz.toLocal instant ↔ oneSecond ∣ instant :=
  Int.dvd_add_left (tz.wholeSeconds.dvd_offsetAt instant)

theorem oneSecond_dvd_of_minutes {minutes : Nat} (wholeSecond : oneSecond ∣ naive)
    (shown : tz.toLocal instant = naive + minutes * oneMinute) : oneSecond ∣ instant := by
  rw [← tz.oneSecond_dvd_toLocal_iff,shown]
  simp only [oneMinute,oneSecond] at wholeSecond ⊢
  omega

theorem oneSecond_dvd_of_resolveLocal (wholeSecond : oneSecond ∣ naive)
    (resolved : resolveLocal tz naive = some instant) : oneSecond ∣ instant := by
  obtain ⟨minutes,shown⟩ := toLocal_of_resolveLocal resolved
  exact oneSecond_dvd_of_minutes wholeSecond shown

variable {first second after fire : Int} {schedule : Schedule}

theorem Tz.lt_of_dateNaive_lt (repeats : tz.RepeatsWithinDate)
    (laterDate : dateNaive (tz.toLocal first) < dateNaive (tz.toLocal second)) :
    first < second := by
  by_contra notLater
  have backwards : dateNaive (tz.toLocal second) ≤ dateNaive (tz.toLocal first) :=
    Zone.localDate_mono (by decide) repeats (not_lt.mp notLater)
  omega

theorem dateNaive_mono (ordered : first ≤ second) : dateNaive first ≤ dateNaive second :=
  Int.ediv_le_ediv (by decide) ordered

theorem Schedule.lt_nextFireAfter (positive : schedule.IntervalPositive)
    (repeats : tz.RepeatsWithinDate) (next : schedule.nextFireAfter after tz = some fire) :
    after < fire := by
  cases schedule with
  | interval seconds =>
    have secondsPositive : 0 < seconds := positive
    cases next
    simp only [oneSecond]
    omega
  | daily time =>
    simp only [nextFireAfter] at next
    split at next
    · rename_i candidate found
      cases next
      simpa using (filter_eq_some_iff.mp found).2
    apply Tz.lt_of_dateNaive_lt repeats
    have shown := dateNaive_mono (le_toLocal_of_resolveLocal next)
    rw [dateNaive_andTime] at shown
    omega
  | weekdays =>
    obtain ⟨offset,-,found⟩ := exists_of_findSome?_eq_some next
    split at found
    · simpa using (filter_eq_some_iff.mp found).2
    · cases found
  | monthly =>
    obtain ⟨monthOffset,-,found⟩ := exists_of_findSome?_eq_some next
    simpa using (mem_filter.mp (min?_mem found)).2
  | once =>
    simp only [nextFireAfter,ite_none_right_eq_some,some.injEq] at next
    obtain ⟨later,rfl⟩ := next
    exact later
  | disabled => cases next

def Schedule.WallClock : Schedule → Prop
  | .daily _ | .weekdays _ _ | .monthly _ _ => True
  | _ => False

end Croniq

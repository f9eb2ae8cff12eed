import Mathlib.Data.Int.Order.Basic
import Mathlib.Order.Basic
import Mathlib.Tactic.IntervalCases
import Mathlib.Tactic.Set

/-!
# The proleptic Gregorian calendar on day numbers

Dates are integers counting days, with day `0` on 1970-01-01.
-/

namespace CivilCalendar

inductive Weekday where
  | mon | tue | wed | thu | fri | sat | sun
deriving DecidableEq

def Weekday.ofIndex : Int → Weekday
  | 0 => .mon
  | 1 => .tue
  | 2 => .wed
  | 3 => .thu
  | 4 => .fri
  | 5 => .sat
  | _ => .sun

/-- Day `0` is a Thursday. -/
def weekday (date : Int) : Weekday :=
  .ofIndex ((date + 3) % 7)

variable {first second year date : Int} {month day : Nat}

theorem weekday_eq_of_emod_eq (sameDay : first % 7 = second % 7) :
    weekday first = weekday second := by
  unfold weekday
  congr 1
  omega

section

variable (year : Int)

def leapDay : Int :=
  if year % 4 = 0 ∧ (year % 100 ≠ 0 ∨ year % 400 = 0) then 1 else 0

def yearStart : Int :=
  365 * (year - 1) + (year - 1) / 4 - (year - 1) / 100 + (year - 1) / 400 - 719162

theorem leapDay_nonneg : 0 ≤ leapDay year := by
  unfold leapDay
  split <;> omega

theorem leapDay_le_one : leapDay year ≤ 1 := by
  unfold leapDay
  split <;> omega

theorem yearStart_succ : yearStart (year + 1) = yearStart year + 365 + leapDay year := by
  unfold yearStart leapDay
  split <;> omega

end

/-- An estimate from the mean year is off by at most one. -/
def yearOf (date : Int) : Int :=
  let estimate := 400 * (date + 719162) / 146097 + 1
  if date < yearStart estimate then estimate - 1
  else if yearStart (estimate + 1) ≤ date then estimate + 1
  else estimate

theorem yearStart_yearOf_le (date : Int) : yearStart (yearOf date) ≤ date := by
  simp only [yearOf]
  split
  · unfold yearStart at *
    omega
  · split <;> omega

theorem lt_yearStart_yearOf_succ (date : Int) : date < yearStart (yearOf date + 1) := by
  simp only [yearOf]
  split
  · simpa using ‹date < _›
  split
  · unfold yearStart at *
    omega
  · omega

theorem yearStart_strictMono (earlier : first < second) : yearStart first < yearStart second := by
  unfold yearStart
  omega

theorem yearOf_eq_iff (date year : Int) :
    yearOf date = year ↔ yearStart year ≤ date ∧ date < yearStart (year + 1) := by
  constructor
  · rintro rfl
    exact ⟨yearStart_yearOf_le date,lt_yearStart_yearOf_succ date⟩
  · rintro ⟨started,notOver⟩
    have lower := yearStart_yearOf_le date
    have upper := lt_yearStart_yearOf_succ date
    by_contra different
    rcases lt_or_gt_of_ne different with before | after
    · rcases eq_or_lt_of_le (Int.add_one_le_of_lt before) with same | gap
      · rw [same] at upper
        omega
      · have := yearStart_strictMono gap
        omega
    · rcases eq_or_lt_of_le (Int.add_one_le_of_lt after) with same | gap
      · rw [same] at notOver
        omega
      · have := yearStart_strictMono gap
        omega

/-- Days of the year before the first of a month; month `13` closes the year. -/
def monthOffset (year : Int) : Nat → Int
  | 0 => 0
  | 1 => 0
  | 2 => 31
  | 3 => 59 + leapDay year
  | 4 => 90 + leapDay year
  | 5 => 120 + leapDay year
  | 6 => 151 + leapDay year
  | 7 => 181 + leapDay year
  | 8 => 212 + leapDay year
  | 9 => 243 + leapDay year
  | 10 => 273 + leapDay year
  | 11 => 304 + leapDay year
  | 12 => 334 + leapDay year
  | _ => 365 + leapDay year

def monthStart (year : Int) (month : Nat) : Int :=
  yearStart year + monthOffset year month

def daysInMonth (year : Int) (month : Nat) : Int :=
  monthOffset year (month + 1) - monthOffset year month

/-- The last month up to a bound that has started on the day. -/
def lastStartedMonth (year dayOfYear : Int) : Nat → Nat
  | 0 => 1
  | 1 => 1
  | month + 2 =>
    if monthOffset year (month + 2) ≤ dayOfYear then month + 2
    else lastStartedMonth year dayOfYear (month + 1)

def monthOf (date : Int) : Nat :=
  lastStartedMonth (yearOf date) (date - yearStart (yearOf date)) 12

def dayOf (date : Int) : Nat :=
  (date - monthStart (yearOf date) (monthOf date) + 1).toNat

def fromYmdOpt (year : Int) (month day : Nat) : Option Int :=
  if 1 ≤ month ∧ month ≤ 12 ∧ 1 ≤ day ∧ (day : Int) ≤ daysInMonth year month then
    some (monthStart year month + day - 1)
  else none

theorem exists_fromYmdOpt (positive : 1 ≤ month) (within : month ≤ 12) (dayPositive : 1 ≤ day)
    (dayWithin : (day : Int) ≤ daysInMonth year month) :
    ∃ date, fromYmdOpt year month day = some date :=
  ⟨_,if_pos ⟨positive,within,dayPositive,dayWithin⟩⟩

theorem lastStartedMonth_spec (year dayOfYear : Int) (started : 0 ≤ dayOfYear)
    {bound : Nat} (positive : 1 ≤ bound) (notOver : dayOfYear < monthOffset year (bound + 1)) :
    1 ≤ lastStartedMonth year dayOfYear bound ∧
      lastStartedMonth year dayOfYear bound ≤ bound ∧
      monthOffset year (lastStartedMonth year dayOfYear bound) ≤ dayOfYear ∧
      dayOfYear < monthOffset year (lastStartedMonth year dayOfYear bound + 1) := by
  induction bound with
  | zero => omega
  | succ month ih =>
    cases month with
    | zero => exact ⟨le_rfl,le_rfl,started,notOver⟩
    | succ month =>
      by_cases reached : monthOffset year (month + 2) ≤ dayOfYear
      · simp only [lastStartedMonth,if_pos reached]
        exact ⟨by omega,le_rfl,reached,notOver⟩
      · simp only [lastStartedMonth,if_neg reached]
        obtain ⟨lower,upper,bounds⟩ := ih (by omega) (not_le.mp reached)
        exact ⟨lower,by omega,bounds⟩

theorem monthOf_bounds (date : Int) :
    1 ≤ monthOf date ∧ monthOf date ≤ 12 ∧
      monthStart (yearOf date) (monthOf date) ≤ date ∧
      date < monthStart (yearOf date) (monthOf date + 1) := by
  have started := yearStart_yearOf_le date
  have notOver := lt_yearStart_yearOf_succ date
  rw [yearStart_succ] at notOver
  obtain ⟨positive,within,reached,notYet⟩ :=
    lastStartedMonth_spec (yearOf date) (date - yearStart (yearOf date)) (by omega)
      (show 1 ≤ 12 by decide) (by simp only [monthOffset]; omega)
  refine ⟨positive,within,?_,?_⟩
  · simp only [monthStart,monthOf]
    omega
  · simp only [monthStart,monthOf]
    omega

theorem monthOffset_mono (year : Int) {first second : Nat} (positive : 1 ≤ first)
    (notLater : first ≤ second) (within : second ≤ 13) :
    monthOffset year first ≤ monthOffset year second := by
  have leapNonneg := leapDay_nonneg year
  have firstWithin : first ≤ 13 := by omega
  interval_cases first <;> interval_cases second <;> simp only [monthOffset] <;> omega

theorem month_unique (year dayOfYear : Int) {first second : Nat}
    (firstPositive : 1 ≤ first) (firstWithin : first ≤ 12)
    (secondPositive : 1 ≤ second) (secondWithin : second ≤ 12)
    (firstStarted : monthOffset year first ≤ dayOfYear)
    (firstNotOver : dayOfYear < monthOffset year (first + 1))
    (secondStarted : monthOffset year second ≤ dayOfYear)
    (secondNotOver : dayOfYear < monthOffset year (second + 1)) : first = second := by
  by_contra different
  rcases lt_or_gt_of_ne different with before | after
  · have : monthOffset year (first + 1) ≤ monthOffset year second :=
      monthOffset_mono year (by omega) before (by omega)
    omega
  · have : monthOffset year (second + 1) ≤ monthOffset year first :=
      monthOffset_mono year (by omega) after (by omega)
    omega

theorem daysInMonth_bounds (year : Int) (positive : 1 ≤ month) (within : month ≤ 12) :
    28 ≤ daysInMonth year month ∧ daysInMonth year month ≤ 31 := by
  have leapNonneg := leapDay_nonneg year
  have leapLe := leapDay_le_one year
  interval_cases month <;> simp only [daysInMonth,monthOffset] <;> omega

theorem dayOf_eq (date : Int) :
    (dayOf date : Int) = date - monthStart (yearOf date) (monthOf date) + 1 := by
  have started := (monthOf_bounds date).2.2.1
  simp only [dayOf]
  omega

theorem dayOf_bounds (date : Int) :
    1 ≤ dayOf date ∧ (dayOf date : Int) ≤ daysInMonth (yearOf date) (monthOf date) := by
  obtain ⟨-,-,started,notOver⟩ := monthOf_bounds date
  have dayEq := dayOf_eq date
  simp only [monthStart] at started notOver dayEq
  simp only [daysInMonth]
  omega

theorem fromYmdOpt_eq_some_iff :
    fromYmdOpt year month day = some date ↔
      yearOf date = year ∧ monthOf date = month ∧ dayOf date = day := by
  obtain ⟨monthPositive,monthWithin,started,notOver⟩ := monthOf_bounds date
  have dayEq := dayOf_eq date
  constructor
  · intro built
    simp only [fromYmdOpt,Option.ite_none_right_eq_some,Option.some.injEq] at built
    obtain ⟨⟨positive,within,dayPositive,dayWithin⟩,dateEq⟩ := built
    simp only [daysInMonth,monthStart] at dayWithin dateEq
    have yearEq : yearOf date = year := by
      have first := monthOffset_mono year le_rfl positive (by omega)
      have last : monthOffset year (month + 1) ≤ monthOffset year 13 :=
        monthOffset_mono year (by omega) (by omega) le_rfl
      simp only [monthOffset.eq_2,monthOffset.eq_14] at first last
      rw [yearOf_eq_iff,yearStart_succ]
      omega
    simp only [monthStart,yearEq] at started notOver dayEq
    have monthEq : monthOf date = month :=
      month_unique year (date - yearStart year) monthPositive monthWithin
        positive within (by omega) (by omega) (by omega) (by omega)
    rw [monthEq] at dayEq
    exact ⟨yearEq,monthEq,by omega⟩
  · rintro ⟨rfl,rfl,rfl⟩
    rw [fromYmdOpt,if_pos ⟨monthPositive,monthWithin,dayOf_bounds date⟩]
    congr 1
    omega

/-- Months counted from month `0` of year `0`. -/
def monthIndex (date : Int) : Int :=
  12 * yearOf date + monthOf date - 1

def monthIndexStart (index : Int) : Int :=
  monthStart (index / 12) ((index % 12).toNat + 1)

theorem monthIndexStart_succ_bounds (index : Int) :
    monthIndexStart index + 28 ≤ monthIndexStart (index + 1) ∧
      monthIndexStart (index + 1) ≤ monthIndexStart index + 31 := by
  have within : (index % 12).toNat + 1 ≤ 12 := by omega
  have lengths := daysInMonth_bounds (index / 12) (Nat.le_add_left 1 _) within
  simp only [daysInMonth] at lengths
  by_cases lastMonth : index % 12 = 11
  · have yearEq : (index + 1) / 12 = index / 12 + 1 := by omega
    have monthEq : (index + 1) % 12 = 0 := by omega
    simp only [monthIndexStart,monthStart,yearEq,monthEq,lastMonth,yearStart_succ]
    simp [monthOffset]
    omega
  · have yearEq : (index + 1) / 12 = index / 12 := by omega
    have monthEq : ((index + 1) % 12).toNat = (index % 12).toNat + 1 := by omega
    simp only [monthIndexStart,monthStart,yearEq,monthEq]
    omega

theorem monthIndex_bounds (date : Int) :
    monthIndexStart (monthIndex date) ≤ date ∧ date < monthIndexStart (monthIndex date + 1) := by
  obtain ⟨positive,within,started,notOver⟩ := monthOf_bounds date
  have yearEq : monthIndex date / 12 = yearOf date := by
    unfold monthIndex
    omega
  have monthEq : (monthIndex date % 12).toNat + 1 = monthOf date := by
    unfold monthIndex
    omega
  refine ⟨by simpa only [monthIndexStart,yearEq,monthEq] using started,?_⟩
  by_cases lastMonth : monthOf date = 12
  · have nextYear : (monthIndex date + 1) / 12 = yearOf date + 1 := by omega
    have january : (monthIndex date + 1) % 12 = 0 := by omega
    have upper := lt_yearStart_yearOf_succ date
    simpa [monthIndexStart,monthStart,nextYear,january,monthOffset] using upper
  · have sameYear : (monthIndex date + 1) / 12 = yearOf date := by omega
    have nextMonth : ((monthIndex date + 1) % 12).toNat + 1 = monthOf date + 1 := by omega
    simpa only [monthIndexStart,sameYear,nextMonth] using notOver

theorem monthIndex_eq_iff {index : Int} :
    monthIndex date = index ↔ yearOf date = index / 12 ∧ monthOf date = (index % 12).toNat + 1 := by
  obtain ⟨positive,within,-,-⟩ := monthOf_bounds date
  unfold monthIndex
  omega

theorem monthIndexStart_mono (ordered : first ≤ second) :
    monthIndexStart first ≤ monthIndexStart second := by
  obtain ⟨steps,rfl⟩ := Int.le.dest ordered
  induction steps with
  | zero => simp
  | succ steps ih =>
    have := (monthIndexStart_succ_bounds (first + steps)).1
    push_cast
    rw [← add_assoc]
    omega

theorem monthIndex_mono (ordered : first ≤ second) : monthIndex first ≤ monthIndex second := by
  by_contra notLe
  have later := monthIndexStart_mono (Int.add_one_le_of_lt (not_le.mp notLe))
  have := (monthIndex_bounds first).1
  have := (monthIndex_bounds second).2
  omega

theorem lt_of_monthIndex_lt (laterMonth : monthIndex first < monthIndex second) :
    first < second := by
  by_contra notLt
  have := monthIndex_mono (not_lt.mp notLt)
  omega

theorem daysInMonth_consecutive (index : Int) :
    daysInMonth (index / 12) ((index % 12).toNat + 1) = 31 ∨
      daysInMonth ((index + 1) / 12) (((index + 1) % 12).toNat + 1) = 31 := by
  have cases : index % 12 = 0 ∨ index % 12 = 1 ∨ index % 12 = 2 ∨ index % 12 = 3 ∨
      index % 12 = 4 ∨ index % 12 = 5 ∨ index % 12 = 6 ∨ index % 12 = 7 ∨ index % 12 = 8 ∨
      index % 12 = 9 ∨ index % 12 = 10 ∨ index % 12 = 11 := by
    omega
  rcases cases with h | h | h | h | h | h | h | h | h | h | h | h
  all_goals
    have next : (index + 1) % 12 = (index % 12 + 1) % 12 := by omega
    rw [next,h]
    simp [daysInMonth,monthOffset]

end CivilCalendar

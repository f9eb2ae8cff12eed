import Croniq.JobRequests

/-!
# Schedules within the range of dates

Dates and times end with the year 262142, and arithmetic beyond it panics.
-/

namespace Croniq

open CivilCalendar Config DecimalText List Option PiecewiseClock Schedule

def representable (date : Int) : Bool :=
  decide (yearStart (-262143) ≤ date ∧ date < yearStart 262143)

def checkedDate (date : Int) : Option Int :=
  if representable date then some date else none

/-- The result of an addition, unless it panics. -/
def checkedTime (time : Int) : Option Int :=
  if representable (dateNaive time) then some time else none

def durationSeconds (seconds : Int) : Option Int :=
  if seconds.natAbs ≤ 9223372036854775 then some (seconds * oneSecond) else none

def resolveLocalOrPanic (tz : Tz) (naive : Int) : Option (Option Int) :=
  match (tz.fromLocal naive).earliest with
  | some instant => some (some instant)
  | none =>
    (range 180).findSomeM? fun (minute : Nat) =>
      (checkedTime (naive + (minute + 1) * oneMinute)).map fun later =>
        (tz.fromLocal later).earliest

/-- The date of an ordinal. The last day of a month precedes the first of the next month, which has
to exist. -/
def MonthDay.resolveOrPanic (ordinal : MonthDay) (year : Int) (month : Nat) : Option (Option Int) :=
  match ordinal with
  | .day number => some ((fromYmdOpt year month number).filter representable)
  | .last =>
    let (nextYear, nextMonth) := if month = 12 then (year + 1, 1) else (year, month + 1)
    ((fromYmdOpt nextYear nextMonth 1).filter representable).map fun first =>
      (fromYmdOpt year month (dayOf (first - 1))).filter representable

/-- The next fire, or nothing where its computation panics.  The seconds of an
interval are cast to a signed number. -/
def Schedule.nextFireOrPanic (schedule : Schedule) (after : Int) (tz : Tz) : Option (Option Int) :=
  let today := dateNaive (tz.toLocal after)
  match schedule with
  | .disabled => some none
  | .interval seconds =>
    (durationSeconds ((seconds : Int).bmod (2 ^ 64))).bind fun duration =>
      (checkedTime (after + duration)).map some
  | .daily time =>
    (resolveLocalOrPanic tz (andTime today time)).bind fun candidate =>
      match candidate.filter (after < ·) with
      | some fire => some (some fire)
      | none => (checkedDate (today + 1)).bind fun tomorrow =>
        resolveLocalOrPanic tz (andTime tomorrow time)
  | .weekdays days time =>
    (range 8).findSomeM? fun (offset : Nat) =>
      (checkedDate (today + offset)).bind fun date =>
        if weekday date ∈ days then
          (resolveLocalOrPanic tz (andTime date time)).map (·.filter (after < ·))
        else some none
  | .monthly ordinals time =>
    (range 3).findSomeM? fun monthOffset =>
      let (year, month) := addMonths (yearOf today) (monthOf today) monthOffset
      (ordinals.mapM fun (ordinal : MonthDay) =>
        (ordinal.resolveOrPanic year month).bind fun date =>
          date.elim (some none) fun date => resolveLocalOrPanic tz (andTime date time)).map
        fun found => ((found.filterMap id).filter (after < ·)).min?
  | .once instant => some (if after < instant then some instant else none)

variable (expression : String)

/-- The seconds of the short forms `300`, `30s`, `5m`, `1h` and `*/5 * * * *`; another entry in the
last four fields is none of them. -/
def shorthandSeconds : Option Nat :=
  let text := (trim expression).toList
  (parseUnsigned 64 text).or <|
    match text.getLast? with
    | some 's' => parseUnsigned 64 text.dropLast
    | some 'm' => (parseUnsigned 64 text.dropLast).map (· * 60)
    | some 'h' => (parseUnsigned 64 text.dropLast).map (· * 3600)
    | _ =>
      match text with
      | '*' :: '/' :: rest =>
        let others := rest.dropWhile fun c => !isWhitespace c
        if (others.splitOnP isWhitespace).filter (· ≠ []) = replicate 4 ['*'] then
          (parseUnsigned 64 (rest.takeWhile fun c => !isWhitespace c)).map (· * 60)
        else none
      | _ => none

/-- The seconds that an expression for an interval denotes. One that is read as a short form is no
line of a file. -/
def denotedSeconds : Option Nat :=
  if (parseIntervalSeconds expression).isSome then shorthandSeconds expression
  else
    match parseScheduleExpr expression with
    | .ok (.interval count unit) => some (unit.toSeconds count)
    | _ => none

section Evaluation

variable {Item Value : Type} {items : List Item}

theorem findSomeM?_eq_some {check : Item → Option (Option Value)} {choose : Item → Option Value}
    (same : ∀ item ∈ items, check item = some (choose item)) :
    items.findSomeM? check = some (items.findSome? choose) := by
  induction items with
  | nil => rfl
  | cons item items ih =>
    obtain ⟨here,rest⟩ := forall_mem_cons.mp same
    have later := ih rest
    rw [findSomeM?_cons,here,findSome?_cons]
    cases choose item with
    | none => exact later
    | some value => rfl

theorem mapM_eq_some {check : Item → Option Value} (choose : Item → Value)
    (same : ∀ item ∈ items, check item = some (choose item)) :
    items.mapM check = some (items.map choose) := by
  induction items with
  | nil => rfl
  | cons item items ih =>
    obtain ⟨here,rest⟩ := forall_mem_cons.mp same
    rw [mapM_cons,here,ih rest]
    rfl

/-- The dates around which all can be computed. -/
def InReach (date : Int) : Prop :=
  yearStart (-262142) - 40 ≤ date ∧ date ≤ yearStart 10000 + 130

variable {tz : Tz} {after date : Int}

theorem InReach.representable (reach : InReach date) : representable date = true := by
  apply decide_eq_true
  simp only [InReach,yearStart] at *
  omega

theorem resolveLocalOrPanic_eq (reach : InReach date) (time : NaiveTime) :
    resolveLocalOrPanic tz (andTime date time) = some (resolveLocal tz (andTime date time)) := by
  have below := time.secondsFromMidnight_lt
  unfold resolveLocalOrPanic resolveLocal
  cases (tz.fromLocal (andTime date time)).earliest with
  | some instant => rfl
  | none =>
    refine findSomeM?_eq_some fun minute member => ?_
    have inLoop := mem_range.mp member
    rw [checkedTime,if_pos]
    · rfl
    apply decide_eq_true
    simp only [InReach,yearStart,dateNaive,andTime,oneDay,oneSecond,oneMinute] at *
    omega

theorem bounds_of_fromYmdOpt {index : Int} {day : Nat}
    (found : fromYmdOpt (index / 12) ((index % 12).toNat + 1) day = some date) :
    monthIndexStart index ≤ date ∧ date < monthIndexStart (index + 1) := by
  obtain ⟨isYear,isMonth,-⟩ := fromYmdOpt_eq_some_iff.mp found
  rw [← monthIndex_eq_iff.mpr ⟨isYear,isMonth⟩]
  exact monthIndex_bounds date

theorem MonthDay.resolveOrPanic_eq (ordinal : MonthDay) {index : Int}
    (started : InReach (monthIndexStart index)) (ended : InReach (monthIndexStart (index + 1))) :
    ordinal.resolveOrPanic (index / 12) ((index % 12).toNat + 1) =
      some (ordinal.resolve (index / 12) ((index % 12).toNat + 1)) := by
  have inside (day : Nat) : (fromYmdOpt (index / 12) ((index % 12).toNat + 1) day).filter
      Croniq.representable = fromYmdOpt (index / 12) ((index % 12).toNat + 1) day := by
    cases found : fromYmdOpt (index / 12) ((index % 12).toNat + 1) day with
    | none => rfl
    | some date =>
      have bounds := bounds_of_fromYmdOpt found
      refine filter_some_pos (InReach.representable ?_)
      exact ⟨started.1.trans bounds.1,bounds.2.le.trans ended.2⟩
  cases ordinal with
  | day number => exact congrArg some (inside number)
  | last =>
    have isNext : (if (index % 12).toNat + 1 = 12 then (index / 12 + 1, 1)
        else (index / 12, (index % 12).toNat + 1 + 1)) =
        ((index + 1) / 12, ((index + 1) % 12).toNat + 1) := by
      split <;> simp only [Prod.mk.injEq] <;> omega
    have first : fromYmdOpt ((index + 1) / 12) (((index + 1) % 12).toNat + 1) 1 =
        some (monthIndexStart (index + 1)) := by
      have lengths := daysInMonth_bounds ((index + 1) / 12) (Nat.le_add_left 1 _)
        (show ((index + 1) % 12).toNat + 1 ≤ 12 by omega)
      rw [fromYmdOpt,if_pos (by omega),monthIndexStart]
      simp
    simp only [resolveOrPanic,resolve,lastDayOfMonth,isNext,first,inside,
      filter_some_pos ended.representable,map_some,getD_some]

/-- A zone less than a day ahead or behind. -/
def Tz.Near (tz : Tz) : Prop :=
  ∀ instant, (tz.toLocal instant - instant).natAbs < oneDay

def Supported (instant : Int) : Prop :=
  yearStart (-262142) ≤ dateNaive instant ∧ dateNaive instant < yearStart 10000

theorem Schedule.nextFireOrPanic_eq {schedule : Schedule} (near : tz.Near)
    (supported : Supported after) (notInterval : ∀ seconds, schedule ≠ .interval seconds) :
    schedule.nextFireOrPanic after tz = some (schedule.nextFireAfter after tz) := by
  unfold nextFireOrPanic nextFireAfter
  have shift := near after
  have todayIs : dateNaive (tz.toLocal after) = tz.toLocal after / oneDay := rfl
  generalize dateNaive (tz.toLocal after) = today at *
  have reach (date : Int) (notBefore : today - 31 ≤ date) (notAfter : date ≤ today + 124) :
      InReach date := by
    simp only [Supported,InReach,dateNaive,oneDay] at *
    omega
  have dated (offset : Nat) (inWeek : offset < 8) : checkedDate (today + offset) =
      some (today + offset) :=
    if_pos (reach _ (by omega) (by omega)).representable
  cases schedule with
  | interval seconds => exact absurd rfl (notInterval seconds)
  | once | disabled => rfl
  | daily time =>
    have tomorrow := dated 1 (by decide)
    simp only [resolveLocalOrPanic_eq (reach today (by omega) (by omega)),bind_some]
    cases (resolveLocal tz (andTime today time)).filter (after < ·) with
    | some fire => rfl
    | none =>
      simp only [Nat.cast_one] at tomorrow
      rw [tomorrow]
      exact resolveLocalOrPanic_eq (reach _ (by omega) (by omega)) time
  | weekdays days time =>
    refine findSomeM?_eq_some fun offset member => ?_
    have inWeek := mem_range.mp member
    rw [dated offset inWeek,bind_some,
      resolveLocalOrPanic_eq (reach (today + offset) (by omega) (by omega))]
    split <;> rfl
  | monthly ordinals time =>
    refine findSomeM?_eq_some fun offset member => ?_
    have inLoop := mem_range.mp member
    obtain ⟨notBefore,notAfter⟩ := monthIndex_bounds today
    have month (offset : Nat) := monthIndexStart_succ_bounds (monthIndex today + offset)
    have months : today - 31 ≤ monthIndexStart (monthIndex today + offset) ∧
        monthIndexStart (monthIndex today + offset + 1) ≤ today + 124 := by
      have := month 0
      have := month 1
      have := month 2
      interval_cases offset <;> simp [add_assoc] at * <;> omega
    have ordered := (month offset).1
    simp only [addMonths_eq]
    rw [mapM_eq_some fun ordinal => (ordinal.resolve
      ((monthIndex today + offset) / 12) (((monthIndex today + offset) % 12).toNat + 1)).bind
        fun date => resolveLocal tz (andTime date time)]
    · simp [filterMap_map]
    intro ordinal _
    rw [ordinal.resolveOrPanic_eq (reach _ (by omega) (by omega)) (reach _ (by omega) (by omega))]
    cases found : ordinal.resolve _ _ with
    | none => rfl
    | some date =>
      have bounds := bounds_of_fromYmdOpt found
      exact resolveLocalOrPanic_eq (reach _ (by omega) (by omega)) time

theorem parseIntervalSeconds_of_shorthand {expression : String} {seconds : Nat}
    (short : shorthandSeconds expression = some seconds) :
    parseIntervalSeconds expression = some (seconds % 2 ^ 64) := by
  unfold parseIntervalSeconds
  unfold shorthandSeconds at short
  generalize (trim expression).toList = text at short ⊢
  cases plain : parseUnsigned 64 text with
  | some read =>
    simp only [plain,some_or,some.injEq] at short ⊢
    rw [← short,Nat.mod_eq_of_lt (of_decide_eq_true (filter_eq_some_iff.mp plain).2)]
  | none =>
    simp only [plain,Option.none_or] at short ⊢
    generalize text.getLast? = last at short ⊢
    split at short
    · simp [scaledSeconds,short]
    · obtain ⟨count,isCount,rfl⟩ := map_eq_some_iff.mp short
      simp [scaledSeconds,isCount]
    · obtain ⟨count,isCount,rfl⟩ := map_eq_some_iff.mp short
      simp [scaledSeconds,isCount]
    split at short
    · rename_i rest
      obtain ⟨-,short⟩ := ite_none_right_eq_some.mp short
      obtain ⟨count,isCount,rfl⟩ := map_eq_some_iff.mp short
      -- The minutes are no blank, so that nothing is skipped before them.
      cases rest with
      | nil => cases isCount
      | cons first rest =>
        cases blank : isWhitespace first with
        | true =>
          rw [takeWhile_cons,blank] at isCount
          cases isCount
        | false =>
          rw [takeWhile_cons,blank] at isCount
          simp_all [scaledSeconds]
    · cases short

/-- What is read as a short form is one. -/
def Documented : Prop :=
  (parseIntervalSeconds expression).isSome → (shorthandSeconds expression).isSome

/-- What an accepted expression is, by whether it denotes an interval. -/
theorem interval_of_denotedSeconds {parsers : DateParsers} {expression : String}
    {schedule : Schedule} (reads : scheduleFromExpr parsers expression = some schedule) :
    match denotedSeconds expression with
    | some denoted => Documented expression ∧ ∃ seconds, schedule = .interval seconds ∧
        (seconds : Int).bmod (2 ^ 64) = (denoted : Int).bmod (2 ^ 64)
    | none => ¬Documented expression ∧ (∃ seconds, schedule = .interval seconds) ∨
        Documented expression ∧ ∀ seconds, schedule ≠ .interval seconds := by
  unfold scheduleFromExpr at reads
  unfold denotedSeconds Documented
  cases short : parseIntervalSeconds expression with
  | some read =>
    simp only [short,some.injEq] at reads
    simp only [isSome_some,if_true,true_imp_iff]
    cases documented : shorthandSeconds expression with
    | none => exact .inl ⟨by simp,read,reads.symm⟩
    | some denoted =>
      cases short.symm.trans (parseIntervalSeconds_of_shorthand documented)
      exact ⟨rfl,_,reads.symm,by simp [Int.bmod_def]⟩
  | none =>
    simp only [short,isSome_none,Bool.false_eq_true,if_false,false_imp_iff,not_true_eq_false,
      false_and,true_and,false_or] at reads ⊢
    cases parsed : parseScheduleExpr expression with
    | error => simp [parsed,Except.toOption] at reads
    | ok kind =>
      simp only [parsed,Except.toOption,bind_some] at reads ⊢
      cases kind with
      | interval count unit =>
        by_cases zero : unit.toSeconds count = 0 <;> simp [fromAst,zero] at reads
        exact ⟨_,reads.symm,rfl⟩
      | daily time | weekdays _ time | monthly _ time =>
        rintro seconds rfl
        cases made : scheduleTime time <;> simp [fromAst,made,Except.map] at reads
      | once text =>
        rintro seconds rfl
        cases made : parseDatetime parsers text.value <;>
          simp [fromAst,made,Except.map] at reads
      | disabled =>
        cases reads
        rintro _ ⟨⟩

theorem near_utc : Tz.utc.Near :=
  fun instant => by simp [Tz.toLocal,Tz.utc,Zone.toLocal,Zone.offsetAt,offsetFrom,oneDay]

end Evaluation

end Croniq

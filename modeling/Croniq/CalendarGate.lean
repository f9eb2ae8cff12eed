import Croniq.IntervalLists
import Croniq.ScheduleFires

/-!
# Calendars and the scan for their next opening

A calendar allows a local date and time when all of its include rules match and
none of its exclude rules do.
-/

namespace Croniq

open CivilCalendar IntervalLists List

abbrev DaySet := List (Nat × Nat)

def daySecs : Nat := 86400

def maxScanDays : Nat := 4 * 365 + 2

/-- Half-open, and wrapping over midnight when it starts after it ends. -/
def windowContains (start stop : NaiveTime) (time : Int) : Bool :=
  let startNanos := start.secondsFromMidnight * oneSecond
  let stopNanos := stop.secondsFromMidnight * oneSecond
  if startNanos ≤ stopNanos then decide (startNanos ≤ time) && decide (time < stopNanos)
  else decide (startNanos ≤ time) || decide (time < stopNanos)

inductive CalendarRule where
  | weekly (days : List Weekday)
  | window (start stop : NaiveTime)
  | monthly (days : List Nat)
  | annual (days : List (Nat × Nat))
  | dates (days : List Int)
deriving DecidableEq

structure Calendar where
  name : String
  tz : Tz
  (includes excludes : List CalendarRule)
deriving DecidableEq

def CalendarRule.matchesAt (rule : CalendarRule) (date time : Int) : Bool :=
  match rule with
  | .weekly days => days.contains (weekday date)
  | .window start stop => windowContains start stop time
  | .monthly days => days.contains (dayOf date)
  | .annual days => days.any fun (month, day) => monthOf date == month && dayOf date == day
  | .dates days => days.contains date

variable (calendar : Calendar)

def Calendar.isAllowed (date time : Int) : Bool :=
  calendar.includes.all (·.matchesAt date time) &&
    !calendar.excludes.any (·.matchesAt date time)

def Calendar.isAllowedAt (instant : Int) : Bool :=
  let naive := calendar.tz.toLocal instant
  calendar.isAllowed (dateNaive naive) (timeOfDay naive)

def windowIntervals (start stop : NaiveTime) : DaySet :=
  let startSecs := start.secondsFromMidnight
  let stopSecs := stop.secondsFromMidnight
  if startSecs < stopSecs then [(startSecs, stopSecs)]
  else if startSecs = stopSecs then []
  else (if 0 < stopSecs then [(0, stopSecs)] else []) ++ [(startSecs, daySecs)]

def intersectIntervals (first second : DaySet) : DaySet :=
  intersect first second

def subtractIntervals (first second : DaySet) : DaySet :=
  intersectIntervals first (complementFrom daySecs 0 second)

/-- A rule on the date that does not match leaves the empty set. -/
def includeRule (date : Int) (set : DaySet) (rule : CalendarRule) : Option DaySet :=
  match rule with
  | .window start stop => some (intersectIntervals set (windowIntervals start stop))
  | dateRule => if dateRule.matchesAt date 0 then some set else none

def excludeRule (date : Int) (set : DaySet) (rule : CalendarRule) : Option DaySet :=
  match rule with
  | .window start stop => some (subtractIntervals set (windowIntervals start stop))
  | dateRule => if dateRule.matchesAt date 0 then none else some set

def Calendar.allowedIntervalsOn (date : Int) : DaySet :=
  ((calendar.includes.foldlM (includeRule date) [(0, daySecs)]).bind fun set =>
    calendar.excludes.foldlM (excludeRule date) set).getD []

/-- Scan consecutive days, the first from the second `lower` on. -/
def scanDays (intervalsOn : Int → DaySet) : Nat → Int → Nat → Option Int
  | 0, _, _ => none
  | days + 1, date, lower =>
    match firstFrom lower (intervalsOn date) with
    | some second =>
      if second < daySecs then some (date * oneDay + second * oneSecond) else none
    | none => scanDays intervalsOn days (date + 1) 0

def ceilSeconds (naive : Int) : Nat :=
  (timeOfDay naive / oneSecond).toNat +
    if timeOfDay naive % oneSecond = 0 then 0 else 1

def nextInstantIn (naive : Int) (intervalsOn : Int → DaySet) : Option Int :=
  scanDays intervalsOn (maxScanDays + 1) (dateNaive naive) (ceilSeconds naive)

def Calendar.nextOpenAtOrAfter (instant : Int) : Option Int :=
  (nextInstantIn (calendar.tz.toLocal instant) calendar.allowedIntervalsOn).bind fun openLocal =>
    resolveLocalAtOrAfter calendar.tz openLocal instant

theorem ordered_windowIntervals (start stop : NaiveTime) :
    Ordered (windowIntervals start stop) := by
  have startLt := start.secondsFromMidnight_lt
  simp only [windowIntervals]
  split
  · rename_i before
    exact ordered_cons.mpr ⟨before,by simp,ordered_nil⟩
  split
  · exact ordered_nil
  have lastPart : Ordered [(start.secondsFromMidnight, daySecs)] :=
    ordered_cons.mpr ⟨startLt,by simp,ordered_nil⟩
  split
  · rename_i stopPositive
    refine ordered_cons.mpr ⟨stopPositive,?_,lastPart⟩
    intro later member
    rw [mem_singleton.mp member]
    omega
  · exact lastPart

theorem within_windowIntervals (start stop : NaiveTime) :
    Within daySecs (windowIntervals start stop) := by
  have stopLt := stop.secondsFromMidnight_lt
  intro interval member
  simp only [windowIntervals] at member
  simp only [daySecs] at member ⊢
  split at member
  · rw [mem_singleton.mp member]
    omega
  split at member
  · cases member
  rcases mem_append.mp member with first | last
  · split at first
    · rw [mem_singleton.mp first]
      omega
    · cases first
  · rw [mem_singleton.mp last]

variable {start stop : NaiveTime} {second first set : DaySet}

theorem windowContains_iff {time : Int} : windowContains start stop time = true ↔
      if start.secondsFromMidnight ≤ stop.secondsFromMidnight then
        start.secondsFromMidnight * oneSecond ≤ time ∧
          time < stop.secondsFromMidnight * oneSecond
      else
        start.secondsFromMidnight * oneSecond ≤ time ∨
          time < stop.secondsFromMidnight * oneSecond := by
  have sameOrder : (start.secondsFromMidnight : Int) * oneSecond ≤
        stop.secondsFromMidnight * oneSecond ↔
      start.secondsFromMidnight ≤ stop.secondsFromMidnight := by
    simp only [oneSecond]
    omega
  by_cases ordered : start.secondsFromMidnight ≤ stop.secondsFromMidnight
  · simp [windowContains,sameOrder,ordered]
  · simp [windowContains,sameOrder,ordered]

theorem covers_windowIntervals {time : Int} (nonneg : 0 ≤ time) (withinDay : time < oneDay) :
    Covers (windowIntervals start stop) (time / oneSecond).toNat ↔
      windowContains start stop time = true := by
  rw [windowContains_iff]
  simp only [oneSecond,oneDay] at withinDay ⊢
  rcases lt_trichotomy start.secondsFromMidnight stop.secondsFromMidnight with
    before | same | after
  · rw [if_pos before.le]
    simp only [windowIntervals,if_pos before,covers_cons,not_covers_nil,or_false]
    omega
  · rw [if_pos same.le]
    simp only [windowIntervals,same,lt_irrefl,if_false,if_true,not_covers_nil,false_iff]
    omega
  rw [if_neg (not_le.mpr after)]
  simp only [windowIntervals,if_neg (not_lt.mpr after.le),if_neg after.ne',daySecs]
  split
  · simp only [cons_append,nil_append,covers_cons,not_covers_nil,or_false]
    omega
  · simp only [nil_append,covers_cons,not_covers_nil,or_false]
    omega

/-- A well-formed set of the seconds of a day. -/
structure DaySetOk (set : DaySet) : Prop where
  ordered : Ordered set
  within : Within daySecs set

theorem daySetOk_fullDay : DaySetOk [(0, daySecs)] :=
  ⟨ordered_cons.mpr ⟨by decide,by simp,ordered_nil⟩,by simp [Within]⟩

theorem covers_fullDay {second : Nat} : Covers [(0, daySecs)] second ↔ second < daySecs := by
  simp

theorem DaySetOk.intersect (firstOk : DaySetOk first) (secondOk : DaySetOk second) :
    DaySetOk (intersectIntervals first second) := by
  have ordered := ordered_intersect firstOk.ordered secondOk.ordered
  refine ⟨ordered,within_of_covers_subset ordered firstOk.within ?_⟩
  intro point covered
  exact ((covers_intersect firstOk.ordered secondOk.ordered).mp covered).1

theorem daySetOk_windowIntervals (start stop : NaiveTime) : DaySetOk (windowIntervals start stop) :=
  ⟨ordered_windowIntervals start stop,within_windowIntervals start stop⟩

theorem daySetOk_complement (ok : DaySetOk set) : DaySetOk (complementFrom daySecs 0 set) := by
  have ordered : Ordered (complementFrom daySecs 0 set) := ordered_complementFrom ok.ordered
  refine ⟨ordered,within_of_covers_subset ordered daySetOk_fullDay.within ?_⟩
  intro point covered
  exact covers_fullDay.mpr ((covers_complementFrom ok.ordered ok.within).mp covered).2.1

theorem covers_subtractIntervals {point : Nat}
    (firstOk : DaySetOk first) (secondOk : DaySetOk second) :
    Covers (subtractIntervals first second) point ↔ Covers first point ∧ ¬Covers second point := by
  have belowDay : Covers first point → point < daySecs := by
    rintro ⟨interval,member,-,notOver⟩
    exact lt_of_lt_of_le notOver (firstOk.within interval member)
  rw [subtractIntervals,intersectIntervals,
    covers_intersect firstOk.ordered (daySetOk_complement secondOk).ordered,
    covers_complementFrom secondOk.ordered secondOk.within]
  constructor
  · rintro ⟨inFirst,-,-,notSecond⟩
    exact ⟨inFirst,notSecond⟩
  · rintro ⟨inFirst,notSecond⟩
    exact ⟨inFirst,Nat.zero_le _,belowDay inFirst,notSecond⟩

/-- The seconds of a set at which a condition holds, or none if it fails throughout. -/
def Restricts (second : Nat) (condition : Prop) (set : DaySet) : Option DaySet → Prop
  | some result => DaySetOk result ∧ (Covers result second ↔ Covers set second ∧ condition)
  | none => ¬condition

variable {outcome : Option DaySet}

theorem Restricts.bind {second : Nat} {earlier later : Prop}
    {next : DaySet → Option DaySet} (first : Restricts second earlier set outcome)
    (goesOn : ∀ result, DaySetOk result → Restricts second later result (next result)) :
    Restricts second (earlier ∧ later) set (outcome.bind next) := by
  cases outcome with
  | none => exact fun both => first both.1
  | some result =>
    have rest := goesOn result first.1
    rw [Option.bind_some]
    cases ended : next result with
    | none =>
      rw [ended] at rest
      exact fun both => rest both.2
    | some =>
      rw [ended] at rest
      refine ⟨rest.1,?_⟩
      rw [rest.2,first.2,and_assoc]

theorem restricts_foldlM {second : Nat} {applyRule : DaySet → CalendarRule → Option DaySet}
    {holds : CalendarRule → Prop}
    (step : ∀ set rule, DaySetOk set → Restricts second (holds rule) set (applyRule set rule))
    (rules : List CalendarRule) (ok : DaySetOk set) :
    Restricts second (∀ rule ∈ rules, holds rule) set (rules.foldlM applyRule set) := by
  induction rules generalizing set with
  | nil => exact ⟨ok,by simp⟩
  | cons rule rules ih =>
    rw [foldlM_cons,forall_mem_cons]
    exact (step set rule ok).bind fun _ => ih

theorem Restricts.getD {second : Nat} {condition : Prop}
    (restricts : Restricts second condition set outcome) : DaySetOk (outcome.getD []) ∧
      (Covers set second → (Covers (outcome.getD []) second ↔ condition)) := by
  cases outcome with
  | none =>
    have fails : ¬condition := restricts
    exact ⟨⟨ordered_nil,by simp [Within]⟩,fun _ => by simp [not_covers_nil,fails]⟩
  | some => exact ⟨restricts.1,fun covered => restricts.2.trans (and_iff_right covered)⟩

theorem restricts_ite (second : Nat) (condition : Prop) [Decidable condition] (ok : DaySetOk set) :
    Restricts second condition set (if condition then some set else none) := by
  split
  next holds => exact ⟨ok,by simp [holds]⟩
  next fails => exact fails

section

variable {date time : Int} (nonneg : 0 ≤ time) (withinDay : time < oneDay)
include nonneg withinDay

theorem restricts_includeRule {set : DaySet} (rule : CalendarRule) (ok : DaySetOk set) :
    Restricts (time / oneSecond).toNat (rule.matchesAt date time = true) set
      (includeRule date set rule) := by
  cases rule with
  | window start stop =>
    have windowOk := daySetOk_windowIntervals start stop
    refine ⟨ok.intersect windowOk,?_⟩
    rw [intersectIntervals,covers_intersect ok.ordered windowOk.ordered,
      covers_windowIntervals nonneg withinDay]
    rfl
  | weekly days | monthly | annual | dates => exact restricts_ite _ _ ok

theorem restricts_excludeRule {set : DaySet} (rule : CalendarRule) (ok : DaySetOk set) :
    Restricts (time / oneSecond).toNat (¬rule.matchesAt date time = true) set
      (excludeRule date set rule) := by
  have dateRule := restricts_ite (time / oneSecond).toNat (¬rule.matchesAt date 0 = true) ok
  rw [ite_not] at dateRule
  cases rule with
  | window start stop =>
    have windowOk := daySetOk_windowIntervals start stop
    refine ⟨ok.intersect (daySetOk_complement windowOk),?_⟩
    rw [covers_subtractIntervals ok windowOk,covers_windowIntervals nonneg withinDay]
    rfl
  | weekly days | monthly | annual | dates => exact dateRule

theorem Calendar.restricts_allowed :
    Restricts (time / oneSecond).toNat (calendar.isAllowed date time = true) [(0, daySecs)]
      ((calendar.includes.foldlM (includeRule date) [(0, daySecs)]).bind
        fun set => calendar.excludes.foldlM (excludeRule date) set) := by
  have allowedIff : calendar.isAllowed date time = true ↔
      (∀ rule ∈ calendar.includes, rule.matchesAt date time = true) ∧
        ∀ rule ∈ calendar.excludes, ¬rule.matchesAt date time = true := by
    simp [Calendar.isAllowed]
  rw [allowedIff]
  refine Restricts.bind ?_ fun set ok => ?_
  · exact restricts_foldlM (fun _ rule => restricts_includeRule nonneg withinDay rule)
      calendar.includes daySetOk_fullDay
  · exact restricts_foldlM (fun _ rule => restricts_excludeRule nonneg withinDay rule)
      calendar.excludes ok

theorem Calendar.covers_allowedIntervalsOn :
    Covers (calendar.allowedIntervalsOn date) (time / oneSecond).toNat ↔
      calendar.isAllowed date time = true := by
  have belowDay : (time / oneSecond).toNat < daySecs := by
    simp only [oneSecond,oneDay,daySecs] at *
    omega
  exact (calendar.restricts_allowed nonneg withinDay).getD.2 (covers_fullDay.mpr belowDay)

end

theorem Calendar.daySetOk_allowedIntervalsOn (date : Int) :
    DaySetOk (calendar.allowedIntervalsOn date) :=
  (calendar.restricts_allowed le_rfl (by decide : (0 : Int) < oneDay)).getD.1

/-- The local instant lies in a second of its day's set. -/
def OpenIn (intervalsOn : Int → DaySet) (naive : Int) : Prop :=
  Covers (intervalsOn (dateNaive naive)) (timeOfDay naive / oneSecond).toNat

theorem timeOfDay_bounds (naive : Int) : 0 ≤ timeOfDay naive ∧ timeOfDay naive < oneDay :=
  ⟨Int.emod_nonneg _ (by decide),Int.emod_lt_of_pos _ (by decide)⟩

theorem Calendar.openIn_allowedIntervalsOn (naive : Int) :
    OpenIn calendar.allowedIntervalsOn naive ↔
      calendar.isAllowed (dateNaive naive) (timeOfDay naive) = true :=
  calendar.covers_allowedIntervalsOn (timeOfDay_bounds _).1 (timeOfDay_bounds _).2

def secondOf (date : Int) (second : Nat) : Int :=
  date * oneDay + second * oneSecond

variable {second : Nat} {naive : Int}

theorem dateNaive_secondOf {date : Int} (belowDay : second < daySecs) :
    dateNaive (secondOf date second) = date := by
  simp only [dateNaive,secondOf,oneDay,oneSecond,daySecs] at *
  omega

theorem openIn_secondOf {intervalsOn : Int → DaySet} {date : Int} (belowDay : second < daySecs) :
    OpenIn intervalsOn (secondOf date second) ↔ Covers (intervalsOn date) second := by
  have timeEq : (timeOfDay (secondOf date second) / oneSecond).toNat = second := by
    simp only [timeOfDay,secondOf,oneDay,oneSecond,daySecs] at *
    omega
  rw [OpenIn,dateNaive_secondOf belowDay,timeEq]

theorem exists_secondOf (wholeSecond : oneSecond ∣ naive) :
    ∃ second < daySecs, naive = secondOf (dateNaive naive) second := by
  refine ⟨(timeOfDay naive / oneSecond).toNat,?_,?_⟩
  all_goals
    simp only [timeOfDay,dateNaive,secondOf,oneDay,oneSecond,daySecs] at *
    omega

theorem ceilSeconds_le_iff : ceilSeconds naive ≤ second ↔ timeOfDay naive ≤ second * oneSecond := by
  have nonneg : 0 ≤ timeOfDay naive := Int.emod_nonneg _ (by decide)
  unfold ceilSeconds
  by_cases whole : timeOfDay naive % oneSecond = 0
  · rw [if_pos whole]
    simp only [oneSecond] at *
    omega
  · rw [if_neg whole]
    simp only [oneSecond] at *
    omega

section

variable {intervalsOn : Int → DaySet} (ok : ∀ date, DaySetOk (intervalsOn date))
include ok

variable {days lower : Nat} {opening naive : Int}

/-- The scan stops at the first open second, on its first day from `lower` on. -/
theorem scanDays_eq_some {date : Int}
    (found : scanDays intervalsOn days date lower = some opening) :
    ∃ openDate second, opening = secondOf openDate second ∧ second < daySecs ∧
      Covers (intervalsOn openDate) second ∧ date ≤ openDate ∧
      (openDate = date → lower ≤ second) ∧
      ∀ otherDate other, Covers (intervalsOn otherDate) other → date ≤ otherDate →
        (otherDate = date → lower ≤ other) →
        openDate < otherDate ∨ (openDate = otherDate ∧ second ≤ other) := by
  induction days generalizing date lower with
  | zero => cases found
  | succ days ih =>
    simp only [scanDays] at found
    cases first : firstFrom lower (intervalsOn date) with
    | some second =>
      rw [first] at found
      simp only [Option.ite_none_right_eq_some,Option.some.injEq] at found
      obtain ⟨belowDay,rfl⟩ := found
      obtain ⟨⟨covered,above⟩,least⟩ := isLeast_of_firstFrom (ok date).ordered first
      refine ⟨date,second,rfl,belowDay,covered,le_rfl,fun _ => above,?_⟩
      intro otherDate other otherCovered notEarlier otherAbove
      rcases eq_or_lt_of_le notEarlier with rfl | later
      · exact .inr ⟨rfl,least ⟨otherCovered,otherAbove rfl⟩⟩
      · exact .inl later
    | none =>
      rw [first] at found
      obtain ⟨openDate,second,openingEq,belowDay,covered,notEarlier,-,least⟩ := ih found
      refine ⟨openDate,second,openingEq,belowDay,covered,by omega,by omega,?_⟩
      intro otherDate other otherCovered otherNotEarlier otherAbove
      rcases eq_or_lt_of_le otherNotEarlier with rfl | later
      · exact absurd first (firstFrom_ne_none otherCovered (otherAbove rfl))
      · exact least otherDate other otherCovered later fun _ => Nat.zero_le _

theorem scanDays_ne_none {other : Nat} {date otherDate : Int}
    (covered : Covers (intervalsOn otherDate) other) (notEarlier : date ≤ otherDate)
    (inReach : otherDate < date + days) (above : otherDate = date → lower ≤ other) :
    scanDays intervalsOn days date lower ≠ none := by
  induction days generalizing date lower with
  | zero => omega
  | succ days ih =>
    simp only [scanDays]
    cases first : firstFrom lower (intervalsOn date) with
    | some second =>
      obtain ⟨⟨⟨interval,member,-,notOver⟩,-⟩,-⟩ := isLeast_of_firstFrom (ok date).ordered first
      have belowDay : second < daySecs := lt_of_lt_of_le notOver ((ok date).within interval member)
      simp [belowDay]
    | none =>
      rcases eq_or_lt_of_le notEarlier with rfl | later
      · exact absurd first (firstFrom_ne_none covered (above rfl))
      · exact ih later (by push_cast at inReach; omega) fun _ => Nat.zero_le _

theorem nextInstantIn_eq_some (found : nextInstantIn naive intervalsOn = some opening) :
    oneSecond ∣ opening ∧ naive ≤ opening ∧ OpenIn intervalsOn opening ∧
      ∀ other, oneSecond ∣ other → naive ≤ other → OpenIn intervalsOn other → opening ≤ other := by
  obtain ⟨date,second,rfl,belowDay,covered,notEarlier,above,least⟩ := scanDays_eq_some ok found
  refine ⟨?_,?_,(openIn_secondOf belowDay).mpr covered,?_⟩
  · simp only [secondOf,oneDay,oneSecond]
    omega
  · simp only [ceilSeconds_le_iff,timeOfDay,dateNaive,secondOf,oneDay,oneSecond] at *
    omega
  · intro other wholeSecond notBefore isOpen
    obtain ⟨otherSecond,otherBelow,otherEq⟩ := exists_secondOf wholeSecond
    rw [otherEq,openIn_secondOf otherBelow] at isOpen
    have order := least (dateNaive other) otherSecond isOpen (dateNaive_mono notBefore)
    have otherAbove : dateNaive other = dateNaive naive → ceilSeconds naive ≤ otherSecond := by
      intro sameDate
      simp only [ceilSeconds_le_iff,timeOfDay,dateNaive,secondOf,oneDay,oneSecond] at *
      omega
    simp only [secondOf,oneDay,oneSecond,daySecs] at *
    omega

theorem nextInstantIn_ne_none {other : Int} (wholeSecond : oneSecond ∣ other)
    (notBefore : naive ≤ other) (isOpen : OpenIn intervalsOn other)
    (inReach : dateNaive other ≤ dateNaive naive + maxScanDays) :
    nextInstantIn naive intervalsOn ≠ none := by
  obtain ⟨otherSecond,otherBelow,otherEq⟩ := exists_secondOf wholeSecond
  apply scanDays_ne_none ok isOpen (dateNaive_mono notBefore)
  · omega
  · intro sameDate
    simp only [ceilSeconds_le_iff,timeOfDay,dateNaive,secondOf,oneDay,oneSecond] at *
    omega

end

end Croniq

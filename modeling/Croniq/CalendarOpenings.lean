import Croniq.GatedFireExactness

/-!
# The openings of a calendar around clock changes

The search for the next opening runs on the local clock: it scans the local
times from the present one on and turns the first open one into an instant.
-/

namespace Croniq

open CivilCalendar OpeningSearch Option PiecewiseClock

def Tz.Settles (tz : Tz) : Prop :=
  tz.zone.Settles

theorem resolveLocalAtOrAfter_of_skipped {tz : Tz} {naive : Int}
    (skipped : (tz.fromLocal naive).earliest = none) (floor : Int) :
    resolveLocalAtOrAfter tz naive floor = resolveLocal tz naive := by
  unfold resolveLocalAtOrAfter
  cases mapped : tz.fromLocal naive with
  | ambiguous =>
    rw [mapped] at skipped
    cases skipped
  | single => rfl
  | none => rfl

theorem Tz.exists_isLeast_shown {tz : Tz} {naive floor later : Int} (notBefore : floor ≤ later)
    (shown : tz.toLocal later = naive) :
    ∃ instant, IsLeast {other | floor ≤ other ∧ tz.toLocal other = naive} instant := by
  obtain ⟨instant,isShown,least⟩ := Int.exists_least_of_bdd
    (P := fun other => floor ≤ other ∧ tz.toLocal other = naive)
    ⟨floor,fun _ isShown => isShown.1⟩ ⟨later,notBefore,shown⟩
  exact ⟨instant,isShown,least⟩

theorem Tz.Orderly.not_shown_of_jump {tz : Tz} (orderly : tz.Orderly) {naive jump : Int}
    (before : tz.toLocal (jump - 1) < naive) (jumped : naive < tz.toLocal jump) (other : Int) :
    tz.toLocal other ≠ naive :=
  (orderly.gaps jump (by unfold Tz.toLocal at before jumped; omega)).2.2 naive before jumped other

section

variable {tz : Tz} (settles : tz.Settles)
include settles

variable {naive floor instant : Int}

theorem Tz.Settles.resolveLocalAtOrAfter_eq
    (least : IsLeast {shown | floor ≤ shown ∧ tz.toLocal shown = naive} instant) :
    resolveLocalAtOrAfter tz naive floor = some instant := by
  obtain ⟨⟨notBefore,shown⟩,isLower⟩ := least
  unfold resolveLocalAtOrAfter
  cases mapped : tz.fromLocal naive with
  | ambiguous earliest latest =>
    obtain ⟨earliestShown,latestShown⟩ := Zone.toLocal_of_fromLocal_ambiguous mapped
    have isEarliest : (tz.zone.fromLocal naive).earliest = some earliest := by
      rw [show tz.zone.fromLocal naive = _ from mapped]
      rfl
    have notEarlier := (Zone.earliest_eq_some_iff.mp isEarliest).2 instant shown
    have notLater := Zone.le_of_fromLocal_ambiguous mapped shown
    simp only [some.injEq]
    split
    · rename_i inTime
      exact le_antisymm notEarlier (isLower ⟨inTime,earliestShown⟩)
    -- between the two answers there would be a third
    by_contra other
    exact Zone.Settles.not_shown_thrice settles (by omega) (by omega)
      (shown.trans earliestShown.symm) (latestShown.trans earliestShown.symm)
  | single only =>
    rw [← Zone.eq_of_fromLocal_single mapped shown]
    simp only [resolveLocal,mapped,MappedLocalTime.earliest]
  | none =>
    have unshown : (tz.zone.fromLocal naive).earliest = none := by
      rw [show tz.zone.fromLocal naive = _ from mapped]
      rfl
    exact absurd shown (Zone.earliest_eq_none_iff.mp unshown instant)

theorem Tz.Settles.le_of_resolved (notOver : tz.toLocal floor ≤ naive)
    (resolved : resolveLocalAtOrAfter tz naive floor = some instant) : floor ≤ instant := by
  by_contra earlier
  obtain ⟨minutes,shownLater⟩ := toLocal_of_resolveLocalAtOrAfter resolved
  have reached : naive ≤ tz.toLocal instant := by
    simp only [oneMinute] at shownLater
    omega
  obtain ⟨later,notEarlier,shown⟩ :=
    Zone.Settles.shown_again settles (not_le.mp earlier) notOver reached
  obtain ⟨first,least⟩ := Tz.exists_isLeast_shown notEarlier shown
  rw [settles.resolveLocalAtOrAfter_eq least] at resolved
  cases resolved
  exact earlier least.1.1

theorem Tz.Settles.jump_unique (orderly : tz.Orderly) {naive first jump : Int}
    (isFirst : ∀ earlier < first, tz.toLocal earlier < naive) (beyond : naive < tz.toLocal first)
    (before : tz.toLocal (jump - 1) < naive) (jumped : naive < tz.toLocal jump) : first = jump := by
  have firstLe : first ≤ jump := by
    by_contra later
    have := isFirst jump (by omega)
    omega
  by_contra other
  have apart : first ≠ jump - 1 := by
    rintro rfl
    omega
  obtain ⟨later,-,shown⟩ :=
    Zone.Settles.shown_again settles (by omega : first < jump - 1) before.le beyond.le
  exact orderly.not_shown_of_jump before jumped later shown

theorem openIn_of_scan_fixed {intervalsOn : Int → DaySet}
    (ok : ∀ date, DaySetOk (intervalsOn date)) {instant opening : Int}
    (found : ((nextInstantIn (tz.toLocal instant) intervalsOn).bind fun openLocal =>
      resolveLocalAtOrAfter tz openLocal instant) = some opening) (fixed : opening ≤ instant) :
    OpenIn intervalsOn (tz.toLocal instant) := by
  obtain ⟨openLocal,scanned,resolved⟩ := bind_eq_some_iff.mp found
  obtain ⟨-,notBefore,isOpen,-⟩ := nextInstantIn_eq_some ok scanned
  have same : opening = instant := le_antisymm fixed (settles.le_of_resolved notBefore resolved)
  obtain ⟨minutes,shown⟩ := toLocal_of_resolveLocalAtOrAfter resolved
  rw [same] at shown
  have atOpening : tz.toLocal instant = openLocal := by
    simp only [oneMinute] at shown
    omega
  rwa [atOpening]

end

theorem CalendarRule.matchesAt_sameMinute (rule : CalendarRule) (date : Int) {time other : Int}
    (sameMinute : time / oneMinute = other / oneMinute) :
    rule.matchesAt date time = rule.matchesAt date other := by
  cases rule with
  | window start stop =>
    have bound (at_ : NaiveTime) : at_.secondsFromMidnight * oneSecond ≤ time ↔
        at_.secondsFromMidnight * oneSecond ≤ other := by
      simp only [NaiveTime.secondsFromMidnight,oneSecond,oneMinute] at *
      omega
    simp only [matchesAt,windowContains,bound,← not_le]
  | weekly _ | monthly _ | annual _ | dates _ => rfl

def Calendar.OpenLocally (calendar : Calendar) (naive : Int) : Prop :=
  calendar.isAllowed (dateNaive naive) (timeOfDay naive) = true

theorem Calendar.openLocally_iff {calendar : Calendar} {naive : Int} :
    calendar.OpenLocally naive ↔ OpenIn calendar.allowedIntervalsOn naive :=
  (calendar.openIn_allowedIntervalsOn _).symm

theorem Calendar.OpenLocally.sameMinute {calendar : Calendar} {naive other : Int}
    (isOpen : calendar.OpenLocally naive) (sameMinute : naive / oneMinute = other / oneMinute) :
    calendar.OpenLocally other := by
  have sameDate : dateNaive naive = dateNaive other := by
    simp only [dateNaive,oneDay,oneMinute] at *
    omega
  have sameTime : timeOfDay naive / oneMinute = timeOfDay other / oneMinute := by
    simp only [timeOfDay,oneDay,oneMinute] at *
    omega
  simp only [OpenLocally,isAllowed,← sameDate,← CalendarRule.matchesAt_sameMinute _ _ sameTime]
  exact isOpen

section

variable (calendar : Calendar)

def Calendar.openings (start : Int) : Set Int :=
  {instant | oneSecond ∣ instant ∧ start ≤ instant ∧ calendar.isAllowedAt instant = true}

/-- The open local times from that of the start on. -/
def Calendar.localOpenings (start : Int) : Set Int :=
  {naive | oneSecond ∣ naive ∧ calendar.tz.toLocal start ≤ naive ∧ calendar.OpenLocally naive}

/-- The clock jumps over the first open local time to a closed one. -/
def Calendar.SkipsOpening (start : Int) : Prop :=
  ∃ naive jump, IsLeast (calendar.localOpenings start) naive ∧
    calendar.tz.toLocal (jump - 1) < naive ∧ naive < calendar.tz.toLocal jump ∧
    calendar.isAllowedAt jump = false

end

theorem Calendar.wholeMinute_of_isLeast {calendar : Calendar} {start naive : Int}
    (whole : oneSecond ∣ calendar.tz.toLocal start)
    (least : IsLeast (calendar.localOpenings start) naive)
    (later : calendar.tz.toLocal start ≠ naive) : oneMinute ∣ naive := by
  obtain ⟨⟨naiveWhole,notBefore,isOpen⟩,isLower⟩ := least
  by_contra within
  -- the second before lies in the same minute and would be open as well
  have sameMinute : naive / oneMinute = (naive - oneSecond) / oneMinute := by
    simp only [oneSecond,oneMinute] at *
    omega
  have before := isLower (a := naive - oneSecond)
    ⟨by simp only [oneSecond] at *; omega,by simp only [oneSecond] at *; omega,
      isOpen.sameMinute sameMinute⟩
  simp only [oneSecond] at before
  omega

theorem Calendar.isLeast_of_nextInstantIn {calendar : Calendar} {start naive : Int}
    (scanned : nextInstantIn (calendar.tz.toLocal start) calendar.allowedIntervalsOn = some naive) :
    IsLeast (calendar.localOpenings start) naive := by
  obtain ⟨whole,notBefore,isOpen,least⟩ :=
    nextInstantIn_eq_some calendar.daySetOk_allowedIntervalsOn scanned
  exact ⟨⟨whole,notBefore,openLocally_iff.mpr isOpen⟩,fun other ⟨otherWhole,otherNotBefore,
    otherOpen⟩ => least other otherWhole otherNotBefore (openLocally_iff.mp otherOpen)⟩

section

variable {calendar : Calendar} (orderly : calendar.tz.Orderly) (settles : calendar.tz.Settles)
  {start naive : Int}
include orderly settles

theorem Calendar.resolved_of_skipped (whole : oneSecond ∣ calendar.tz.toLocal start)
    (least : IsLeast (calendar.localOpenings start) naive)
    (unshown : ∀ instant, calendar.tz.toLocal instant ≠ naive) :
    ∃ jump, resolveLocalAtOrAfter calendar.tz naive start = some jump ∧ start < jump ∧
      (∀ earlier < jump, calendar.tz.toLocal earlier < naive) ∧
      naive < calendar.tz.toLocal jump := by
  have skipped : (calendar.tz.fromLocal naive).earliest = none :=
    Zone.earliest_eq_none_iff.mpr unshown
  obtain ⟨jump,resolved,first,beyond⟩ := orderly.resolveLocal_of_skipped
    (wholeMinute_of_isLeast whole least (unshown start)) skipped
  refine ⟨jump,(resolveLocalAtOrAfter_of_skipped skipped start).trans resolved,?_,first,beyond⟩
  have notOver : calendar.tz.toLocal start ≤ naive := least.1.2.1
  by_contra notBefore
  have differs : jump ≠ start := by
    rintro rfl
    omega
  obtain ⟨later,-,shown⟩ := Zone.Settles.shown_again settles
    (lt_of_le_of_ne (not_lt.mp notBefore) differs) notOver beyond.le
  exact unshown later shown

/-- A first open local time that is shown comes with the earliest open instant, unless that is of a
second pass. -/
theorem Calendar.isLeast_shown {opening other : Int}
    (least : IsLeast (calendar.localOpenings start) naive)
    (earliest : IsLeast (calendar.openings start) opening)
    (inOrder : calendar.tz.toLocal start ≤ calendar.tz.toLocal opening)
    (shown : calendar.tz.toLocal other = naive) :
    IsLeast {instant | start ≤ instant ∧ calendar.tz.toLocal instant = naive} opening := by
  obtain ⟨⟨naiveWhole,notOver,isOpen⟩,isLower⟩ := least
  obtain ⟨⟨openingWhole,notBefore,openingOpen⟩,isEarliest⟩ := earliest
  have comes : ∃ later, start ≤ later ∧ calendar.tz.toLocal later = naive := by
    by_cases before : other < start
    · exact Zone.Settles.shown_again settles before notOver shown.ge
    · exact ⟨other,not_lt.mp before,shown⟩
  obtain ⟨later,laterNotBefore,laterShown⟩ := comes
  obtain ⟨first,firstLeast⟩ := Tz.exists_isLeast_shown laterNotBefore laterShown
  have firstOpen : calendar.isAllowedAt first = true := by
    rw [← firstLeast.1.2] at isOpen
    exact isOpen
  have openingLe : opening ≤ first := isEarliest ⟨(calendar.tz.oneSecond_dvd_toLocal_iff
    first).mp (firstLeast.1.2 ▸ naiveWhole),firstLeast.1.1,firstOpen⟩
  have naiveLe : naive ≤ calendar.tz.toLocal opening := isLower
    ⟨(calendar.tz.oneSecond_dvd_toLocal_iff opening).mpr openingWhole,inOrder,openingOpen⟩
  suffices opening = first from this ▸ firstLeast
  by_contra differs
  -- the clock would have jumped over the local time on its way to the earlier opening
  obtain ⟨reached,⟨reachedNotBefore,atLeast⟩,isReached⟩ := Int.exists_least_of_bdd
    (P := fun instant => start ≤ instant ∧ naive ≤ calendar.tz.toLocal instant)
    ⟨start,fun _ bounds => bounds.1⟩ ⟨opening,notBefore,naiveLe⟩
  have reachedLe : reached ≤ opening := isReached opening ⟨notBefore,naiveLe⟩
  have notYet : calendar.tz.toLocal reached ≠ naive := fun atReached => by
    have := firstLeast.2 ⟨reachedNotBefore,atReached⟩
    omega
  have afterStart : reached ≠ start := by
    rintro rfl
    omega
  have before : calendar.tz.toLocal (reached - 1) < naive := by
    by_contra notBelow
    have := isReached (reached - 1) ⟨by omega,not_lt.mp notBelow⟩
    omega
  exact orderly.not_shown_of_jump before (lt_of_le_of_ne atLeast notYet.symm) first firstLeast.1.2

end

/-- A calendar that is open in the given minutes after two. -/
def nightCalendar (tz : Tz) (start stop : NaiveTime) : Calendar :=
  ⟨"nights",tz,[.window start stop],[]⟩

theorem nightCalendar_isAllowedAt {tz : Tz} {start stop : NaiveTime}
    (inOrder : start.secondsFromMidnight ≤ stop.secondsFromMidnight) (instant : Int) :
    (nightCalendar tz start stop).isAllowedAt instant = true ↔
      start.secondsFromMidnight * oneSecond ≤ timeOfDay (tz.toLocal instant) ∧
        timeOfDay (tz.toLocal instant) < stop.secondsFromMidnight * oneSecond := by
  simp [nightCalendar,Calendar.isAllowedAt,Calendar.isAllowed,CalendarRule.matchesAt,
    windowContains_iff,inOrder]

theorem Tz.settles_of_single {tz : Tz} {turn : Transition} (only : tz.zone.transitions = [turn]) :
    tz.Settles := by
  intro earlier isEarlier later isLater before
  rw [only,List.mem_singleton] at isEarlier isLater
  rw [isEarlier,isLater] at before
  omega

end Croniq

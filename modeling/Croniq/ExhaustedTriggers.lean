import Croniq.GatedFireExactness

/-!
# When a trigger without a next fire is exhausted

A search that ends without a fire leaves its trigger exhausted.
-/

namespace Croniq

open CivilCalendar OpeningSearch Option PiecewiseClock

def floorSecond (instant : Int) : Int :=
  instant / oneSecond * oneSecond

theorem floorSecond_spec (instant : Int) :
    oneSecond ∣ floorSecond instant ∧ floorSecond instant ≤ instant ∧
      instant < floorSecond instant + oneSecond := by
  simp only [floorSecond,oneSecond]
  omega

theorem openIn_congr {intervalsOn : Int → DaySet} {naive other : Int}
    (sameSecond : naive / oneSecond = other / oneSecond) :
    OpenIn intervalsOn naive ↔ OpenIn intervalsOn other := by
  have sameDate : dateNaive naive = dateNaive other := by
    simp only [dateNaive,oneDay,oneSecond] at *
    omega
  have sameTime : timeOfDay naive / oneSecond = timeOfDay other / oneSecond := by
    simp only [timeOfDay,oneDay,oneSecond] at *
    omega
  rw [OpenIn,OpenIn,sameDate,sameTime]

theorem Tz.Constant.toLocal_div_second {tz : Tz} (constant : tz.Constant) {instant other : Int}
    (sameSecond : instant / oneSecond = other / oneSecond) :
    tz.toLocal instant / oneSecond = tz.toLocal other / oneSecond := by
  have offsetWhole : oneSecond ∣ tz.zone.first := tz.wholeSeconds.1
  rw [constant.toLocal_eq,constant.toLocal_eq,Int.add_ediv_of_dvd_right offsetWhole,
    Int.add_ediv_of_dvd_right offsetWhole,sameSecond]

namespace FireRule

section

variable {rule : FireRule} (constant : rule.Constant)
include constant
variable {instant target : Int}

theorem gateAllows_congr {other : Int}
    (sameSecond : instant / oneSecond = other / oneSecond)
    (allowed : rule.gateAllows instant = true) :
    rule.gateAllows other = true := by
  have ⟨calendar,window⟩ := both_gates (fun _ isOpen => isOpen instant → isOpen other)
    constant.job constant.calendar (fun _ => trivial)
    fun tz intervalsOn constant _ => (openIn_congr (constant.toLocal_div_second sameSecond)).mp
  exact gateAllows_iff.mpr ((gateAllows_iff.mp allowed).imp calendar window)

/-- From any instant both gates lead to a whole second not beyond an opening, unless they are
not set. -/
theorem gates_lead_towards (targetWhole : oneSecond ∣ target)
    (notPast : instant ≤ target) (inReach : target ≤ instant + scanReach) :
    let Leads := fun (openFrom : Int → Option Int) (isOpen : Int → Prop) => isOpen target →
      ∃ opening, openFrom instant = some opening ∧ instant ≤ opening ∧ opening ≤ target ∧
        (oneSecond ∣ opening ∨ opening = instant ∧ isOpen instant)
    Leads rule.calendarOpenFrom (rule.calendarAllows · = true) ∧
      Leads rule.windowOpenFrom (rule.windowAllows · = true) := by
  intro Leads
  apply both_gates Leads constant.job constant.calendar
  · exact fun _ => ⟨instant,rfl,le_rfl,notPast,.inr ⟨rfl,trivial⟩⟩
  · intro tz intervalsOn constant ok isOpen
    obtain ⟨opening,found⟩ := ne_none_iff_exists'.mp
      (scan_ne_none constant ok targetWhole notPast inReach isOpen)
    obtain ⟨⟨whole,notBefore,-⟩,least⟩ := scan_isLeast constant ok found
    exact ⟨opening,found,notBefore,least ⟨targetWhole,notPast,isOpen⟩,.inl whole⟩

theorem exists_nextGateOpen_of_closed
    (closed : rule.gateAllows instant = false) (notPast : instant ≤ target)
    (inReach : target ≤ instant + scanReach) (allowed : rule.gateAllows target = true) :
    ∃ opening, rule.nextGateOpen instant = some opening ∧ opening ≤ target ∧
      rule.gateAllows opening = true := by
  obtain ⟨secondWhole,secondLe,inSecond⟩ := floorSecond_spec target
  have secondAllowed : rule.gateAllows (floorSecond target) = true := by
    refine gateAllows_congr constant ?_ allowed
    simp only [oneSecond] at *
    omega
  have notPastSecond : instant ≤ floorSecond target := by
    by_contra past
    have isOpen : rule.gateAllows instant = true := by
      refine gateAllows_congr constant ?_ allowed
      simp only [oneSecond] at *
      omega
    rw [closed] at isOpen
    cases isOpen
  have secondInReach : floorSecond target ≤ instant + scanReach := le_trans secondLe inReach
  by_cases whole : oneSecond ∣ instant
  · obtain ⟨opening,found,openingLe,openingAllowed⟩ := exists_nextGateOpen constant whole
      secondWhole notPastSecond secondAllowed secondInReach
    exact ⟨opening,found,le_trans openingLe secondLe,openingAllowed⟩
  obtain ⟨calendarAllowed,windowAllowed⟩ := gateAllows_iff.mp secondAllowed
  obtain ⟨calendar,window⟩ :=
    gates_lead_towards constant secondWhole notPastSecond secondInReach
  obtain ⟨calendarOpen,calendarFound,calendarGe,calendarLe,calendarWhole⟩ :=
    calendar calendarAllowed
  obtain ⟨windowOpen,windowFound,windowGe,windowLe,windowWhole⟩ := window windowAllowed
  have moved : ¬ max calendarOpen windowOpen ≤ instant := by
    intro fixed
    obtain rfl : calendarOpen = instant := by omega
    obtain rfl : windowOpen = calendarOpen := by omega
    have isOpen := gateAllows_iff.mpr
      ⟨(calendarWhole.resolve_left whole).2,(windowWhole.resolve_left whole).2⟩
    rw [closed] at isOpen
    cases isOpen
  have nextWhole : oneSecond ∣ max calendarOpen windowOpen := by
    rcases le_total calendarOpen windowOpen with below | above
    · rw [max_eq_right below] at moved ⊢
      exact windowWhole.resolve_right fun unset => moved unset.1.le
    · rw [max_eq_left above] at moved ⊢
      exact calendarWhole.resolve_right fun unset => moved unset.1.le
  obtain ⟨opening,found,openingLe,openingAllowed⟩ := exists_alternate constant nextWhole
    secondWhole (max_le calendarLe windowLe) secondAllowed (by omega) (by decide : 10 ≤ 511)
    secondInReach
  refine ⟨opening,?_,le_trans openingLe secondLe,openingAllowed⟩
  have notBeyond : ¬ instant + scanReach < instant := by omega
  rw [← found]
  change alternate _ _ (instant + scanReach) (511 + 1) instant = _
  rw [alternate,if_neg notBeyond,calendarFound,bind_some,windowFound,
    bind_some,if_neg moved]

omit constant in
theorem computeNextFire_interval_ne_none {seconds : Nat}
    (isInterval : rule.schedule = .interval seconds) {after : Int}
    (opens : rule.gateAllows (after + seconds * oneSecond) = false →
      ∃ opening, rule.nextGateOpen (after + seconds * oneSecond) = some opening ∧
        rule.gateAllows opening = true) :
    rule.computeNextFire after ≠ none := by
  cases isOpen : rule.gateAllows (after + seconds * oneSecond) with
  | true =>
    rw [computeNextFire_interval isInterval,guardedJumps_of_allowed _ isOpen]
    exact some_ne_none _
  | false =>
    obtain ⟨opening,found,openingAllowed⟩ := opens isOpen
    rw [computeNextFire_interval_of_closed isInterval isOpen (by simp [found,openingAllowed]),found]
    exact some_ne_none _

end

end FireRule

/-- From three hours before `start` up to `stop` the zone has the offset of `start` and shows each
local time once. -/
def Tz.SteadyOn (tz : Tz) (start stop : Int) : Prop :=
  ∀ instant, start - 180 * oneMinute ≤ instant → instant ≤ stop →
    tz.fromLocal (instant + tz.zone.offsetAt start) = .single instant

/-- The zone that always has the offset of `start`. -/
def Tz.frozenAt (tz : Tz) (start : Int) : Tz where
  zone := { Tz.utc.zone with first := tz.zone.offsetAt start }
  wholeSeconds := ⟨tz.wholeSeconds.dvd_offsetAt start,List.forall_mem_nil _⟩

theorem Tz.frozenAt_constant (tz : Tz) (start : Int) : (tz.frozenAt start).Constant :=
  rfl

section

variable {tz : Tz} {start stop : Int} (steady : tz.SteadyOn start stop)
include steady

variable {instant naive : Int}

theorem Tz.SteadyOn.toLocal_eq (notBefore : start - 180 * oneMinute ≤ instant)
    (notAfter : instant ≤ stop) :
    tz.toLocal instant = instant + tz.zone.offsetAt start := by
  apply Tz.toLocal_of_earliest
  rw [steady instant notBefore notAfter]
  rfl

-- a local time skipped before the instant would have been shown within the three hours
theorem Tz.SteadyOn.resolveLocal_frozenAt (notBefore : start ≤ instant) (notAfter : instant ≤ stop)
    (resolved : resolveLocal tz naive = some instant) :
    resolveLocal (tz.frozenAt start) naive = some instant := by
  have shown := steady.toLocal_eq (by simp only [oneMinute]; omega) notAfter
  rw [(tz.frozenAt_constant start).resolveLocal_eq,some.injEq]
  simp only [Tz.frozenAt]
  unfold resolveLocal at resolved
  split at resolved
  · rename_i isShown
    cases resolved
    rw [Tz.toLocal_of_earliest isShown] at shown
    omega
  · rename_i skipped
    obtain ⟨minute,member,later⟩ := List.exists_of_findSome?_eq_some resolved
    rw [Tz.toLocal_of_earliest later] at shown
    have inRange := List.mem_range.mp member
    have single := steady (instant - (minute + 1) * oneMinute)
      (by simp only [oneMinute] at *; omega) (by simp only [oneMinute]; omega)
    obtain rfl : naive = instant - (minute + 1) * oneMinute + tz.zone.offsetAt start := by
      omega
    rw [single] at skipped
    cases skipped

theorem scan_agrees {intervalsOn : Int → DaySet} (ok : ∀ date, DaySetOk (intervalsOn date)) :
    Agrees start stop
      (fun instant => (nextInstantIn ((tz.frozenAt start).toLocal instant) intervalsOn).bind
        fun openLocal => resolveLocalAtOrAfter (tz.frozenAt start) openLocal instant)
      fun instant => (nextInstantIn (tz.toLocal instant) intervalsOn).bind fun openLocal =>
        resolveLocalAtOrAfter tz openLocal instant := by
  intro instant opening notBefore inTime found
  obtain ⟨openLocal,scanned,resolved⟩ := bind_eq_some_iff.mp found
  have notOver := (nextInstantIn_eq_some ok scanned).2.1
  have constant := tz.frozenAt_constant start
  rw [constant.resolveLocalAtOrAfter_eq,some.injEq] at resolved
  rw [constant.toLocal_eq] at scanned notOver
  simp only [Tz.frozenAt] at scanned notOver resolved
  obtain rfl : openLocal = opening + tz.zone.offsetAt start := by omega
  have single := steady opening (by simp only [oneMinute]; omega) inTime
  have shown := steady.toLocal_eq (by simp only [oneMinute]; omega) (by omega : instant ≤ stop)
  simp only [shown,scanned,bind_some,resolveLocalAtOrAfter,resolveLocal,single,
    MappedLocalTime.earliest]

end

namespace FireRule

/-- Both clocks are steady. -/
structure SteadyOn (rule : FireRule) (start stop : Int) : Prop where
  job : rule.timezone.SteadyOn start stop
  calendar : ∀ calendar, rule.calendar = some calendar → calendar.tz.SteadyOn start stop

def frozenAt (rule : FireRule) (start : Int) : FireRule :=
  { rule with
    timezone := rule.timezone.frozenAt start
    calendar := rule.calendar.map fun calendar =>
      { calendar with tz := calendar.tz.frozenAt start } }

theorem frozenAt_constant (rule : FireRule) (start : Int) : (rule.frozenAt start).Constant where
  job := rfl
  calendar calendar isSet := by
    obtain ⟨_,-,rfl⟩ := map_eq_some_iff.mp isSet
    rfl

section

variable {rule : FireRule} {start stop : Int} (steady : rule.SteadyOn start stop)
include steady

variable {instant : Int}

theorem gateAllows_frozenAt (notBefore : start ≤ instant) (notAfter : instant ≤ stop) :
    (rule.frozenAt start).gateAllows instant = rule.gateAllows instant := by
  have same : ∀ {tz : Tz}, tz.SteadyOn start stop →
      (tz.frozenAt start).toLocal instant = tz.toLocal instant := fun steady =>
    (steady.toLocal_eq (by simp only [oneMinute]; omega) notAfter).symm
  have sameCalendar :
      (rule.frozenAt start).calendarAllows instant = rule.calendarAllows instant := by
    unfold calendarAllows frozenAt
    cases isSet : rule.calendar with
    | none => rfl
    | some calendar =>
      simp only [map_some,Calendar.isAllowedAt,same (steady.calendar calendar isSet)]
      rfl
  rw [gateAllows,sameCalendar]
  simp only [gateAllows,windowAllows,frozenAt,same steady.job]

theorem nextGateOpen_agrees :
    Agrees start stop (rule.frozenAt start).nextGateOpen rule.nextGateOpen := by
  intro instant
  refine alternate_agrees ?_ ?_ instant
  · unfold calendarOpenFrom frozenAt
    cases isSet : rule.calendar with
    | none => exact fun _ _ _ _ => id
    | some calendar =>
      exact scan_agrees (steady.calendar calendar isSet) calendar.daySetOk_allowedIntervalsOn
  · unfold windowOpenFrom frozenAt
    cases rule.window with
    | none => exact fun _ _ _ _ => id
    | some window =>
      exact scan_agrees steady.job fun _ => daySetOk_windowIntervals window.start window.stop

/-- The gates find an opening that the frozen rule finds by `stop`. -/
theorem opens_of_frozenAt (notBefore : start ≤ instant)
    (opens : ∃ opening, (rule.frozenAt start).nextGateOpen instant = some opening ∧
      opening ≤ stop ∧ (rule.frozenAt start).gateAllows opening = true) :
    ∃ opening, rule.nextGateOpen instant = some opening ∧ opening ≤ stop ∧
      rule.gateAllows opening = true := by
  obtain ⟨opening,opened,inTime,allowed⟩ := opens
  have openingGe : instant ≤ opening := (last_of_alternate opened).1
  rw [gateAllows_frozenAt steady (by omega) inTime] at allowed
  exact ⟨opening,nextGateOpen_agrees steady _ _ notBefore inTime opened,inTime,allowed⟩

end

theorem gateAllows_of_ungated {rule : FireRule} (noCalendar : rule.calendar = none)
    (noWindow : rule.window = none) (instant : Int) : rule.gateAllows instant = true := by
  simp [gateAllows,calendarAllows,windowAllows,noCalendar,noWindow]

end FireRule

/-- A daily job at nine on a clock that goes forward on day 0, with a calendar for day 3000. -/
def springTrigger : Trigger :=
  .withBounds "reports:sync" (.daily (.fromHm 9 0)) springZone
    (some ⟨"open-days",springZone,[.dates [3000]],[]⟩) none none none oneDay

theorem springZone_steadyOn (stop : Int) : springZone.SteadyOn oneDay stop := by
  intro instant notBefore _
  have changed : 7200000000000 ≤ instant := by
    simp only [oneDay,oneMinute] at notBefore
    omega
  have offset : springZone.zone.offsetAt oneDay = 3600000000000 := by decide
  have notBoth : ¬ instant + 3600000000000 < 7200000000000 := by omega
  rw [offset]
  simp [Tz.fromLocal,Zone.fromLocal,Zone.preimages,preimagesFrom,springZone,changed,notBoth]

/-- An offset that changes by an hour on day 400. -/
def laterZone : Tz where
  zone := ⟨0,[⟨400 * oneDay,3600 * oneSecond⟩],List.pairwise_singleton _ _⟩
  wholeSeconds := by decide

/-- A daily job at half past ten whose window meets its calendar from day 400 on. -/
def apartTrigger : Trigger :=
  .withBounds "reports:sync" (.daily (.fromHm 10 30)) laterZone
    (some ⟨"mornings",.utc,[.window (.fromHm 9 0) (.fromHm 10 0)],[]⟩)
    (some ⟨.fromHm 10 0,.fromHm 11 0⟩) none none 0

/-- A job every minute that is open from ten to twenty past two on the night the clock goes
back. -/
def onceOpenTrigger : Trigger :=
  .withBounds "reports:sync" (.interval 60) autumnZone
    (some ⟨"nights",autumnZone,[.dates [0],.window (.fromHm 2 10) (.fromHm 2 20)],[]⟩)
    none none none 0

end Croniq

import Croniq.LoadAgreement

/-!
# What the rules of a calendar denote

A rule of a configuration is read argument by argument.
-/

namespace Croniq

open Calendar CalendarRule CivilCalendar Config IntervalLists List

section

variable (host : Host) (dayNumber : String → Int)

/-- The argument is read as a date that recurs every year. -/
def Recurs (arg : String) : Prop :=
  ∃ month day, parseAnnualArg host arg = .ok (.monthDay month day)

/-- A date of one year applies in every year if the rule has a recurring date as well. -/
def Config.CalendarRuleConfig.Denotes (rule : CalendarRuleConfig) (date time : Int) : Prop :=
  match rule.ruleType with
  | "weekly" => ∃ arg ∈ rule.args, ∃ days, parseWeeklyArg arg = .ok days ∧ weekday date ∈ days
  | "window" => ∃ start stop, parseWindowArgs rule.args = .ok (start, stop) ∧
      windowContains start stop time = true
  | "monthly" => ∃ arg ∈ rule.args, parseMonthlyArg arg = .ok (dayOf date)
  | "annual" | "yearly" =>
    (∃ arg ∈ rule.args, parseAnnualArg host arg = .ok (.monthDay (monthOf date) (dayOf date))) ∨
      ∃ arg ∈ rule.args, ∃ text, parseAnnualArg host arg = .ok (.date text) ∧
        (dayNumber text = date ∨ (∃ arg ∈ rule.args, Recurs host arg) ∧
          monthOf (dayNumber text) = monthOf date ∧ dayOf (dayNumber text) = dayOf date)
  | _ => False

end

variable {host : Host} {dayNumber : String → Int} {date time : Int}

theorem mem_iff_of_mapM_eq_ok {Arg Value Error : Type} {parse : Arg → Except Error Value}
    {args : List Arg} {values : List Value} (parsed : args.mapM parse = .ok values)
    (value : Value) : value ∈ values ↔ ∃ arg ∈ args, parse arg = .ok value := by
  induction args generalizing values with
  | nil =>
    cases parsed
    simp
  | cons arg args ih =>
    rw [mapM_cons] at parsed
    cases first : parse arg with
    | error => simp [first,bind,Except.bind] at parsed
    | ok =>
      cases rest : args.mapM parse with
      | error => simp [first,rest,bind,Except.bind] at parsed
      | ok =>
        simp only [first,rest,bind,Except.bind,pure,Except.pure,Except.ok.injEq] at parsed
        simp [← parsed,ih rest,first,eq_comm]

theorem mapError_map_eq_ok {Value Result Error Other : Type} {parsed : Except Error Value}
    {f : Value → Result} {g : Error → Other} {result : Result} :
    (parsed.map f).mapError g = .ok result ↔ ∃ value, parsed = .ok value ∧ f value = result := by
  cases parsed <;> simp [Except.map,Except.mapError]

theorem matchesAt_annualRule {args : List AnnualArg} :
    (annualRule dayNumber args).matchesAt date time = true ↔
      .monthDay (monthOf date) (dayOf date) ∈ args ∨
        ∃ text, .date text ∈ args ∧ (dayNumber text = date ∨
          (∃ month day, .monthDay month day ∈ args) ∧
            monthOf (dayNumber text) = monthOf date ∧ dayOf (dayNumber text) = dayOf date) := by
  have annual (days : List (Nat × Nat)) : (annual days).matchesAt date time = true ↔
      (monthOf date, dayOf date) ∈ days := by
    simp [matchesAt,@eq_comm _ (monthOf date),@eq_comm _ (dayOf date)]
  unfold annualRule
  lift_lets
  intro recurring dates
  have inRecurring (month day : Nat) : (month, day) ∈ recurring ↔ .monthDay month day ∈ args := by
    grind
  have inDates (day : Int) : day ∈ dates ↔ ∃ text, .date text ∈ args ∧ dayNumber text = day := by
    grind
  split
  · rename_i noDates
    simp only [noDates,not_mem_nil,false_iff,not_exists,not_and] at inDates
    rw [annual,inRecurring]
    refine ⟨.inl,?_⟩
    rintro (written | ⟨text,member,-⟩)
    · exact written
    · exact absurd rfl (inDates _ text member)
  split
  · rename_i noneRecurs
    simp only [noneRecurs,not_mem_nil,false_iff] at inRecurring
    simp [matchesAt,inDates,inRecurring]
  · rename_i someRecurs
    obtain ⟨⟨month,day⟩,member⟩ := exists_mem_of_ne_nil _ someRecurs
    rw [annual,mem_append,inRecurring,mem_map]
    grind

theorem matchesAt_compileRule {rule : CalendarRuleConfig} {compiled : CalendarRule}
    (accepted : compileRule host dayNumber rule.ruleType rule.args = .ok compiled) :
    compiled.matchesAt date time = true ↔ rule.Denotes host dayNumber date time := by
  unfold Calendar.compileRule at accepted
  split at accepted <;> rename_i kind <;> simp only [CalendarRuleConfig.Denotes,kind]
  · obtain ⟨days,parsed,rfl⟩ := mapError_map_eq_ok.mp accepted
    simp only [matchesAt,contains_iff_mem,mem_flatten,mem_iff_of_mapM_eq_ok parsed]
    grind
  · obtain ⟨⟨start,stop⟩,parsed,rfl⟩ := mapError_map_eq_ok.mp accepted
    simp [matchesAt,parsed]
  · obtain ⟨days,parsed,rfl⟩ := mapError_map_eq_ok.mp accepted
    simp only [matchesAt,contains_iff_mem,mem_iff_of_mapM_eq_ok parsed]
  · obtain ⟨args,parsed,rfl⟩ := mapError_map_eq_ok.mp accepted
    simp only [matchesAt_annualRule,mem_iff_of_mapM_eq_ok parsed,Recurs]
    grind
  · obtain ⟨args,parsed,rfl⟩ := mapError_map_eq_ok.mp accepted
    simp only [matchesAt_annualRule,mem_iff_of_mapM_eq_ok parsed,Recurs]
    grind
  · cases accepted

theorem isAllowed_compileRules {rules : List CalendarRuleConfig}
    {includes excludes : List CalendarRule}
    (accepted : compileRules host dayNumber rules = .ok (includes, excludes)) :
    ((∀ rule ∈ includes, rule.matchesAt date time = true) ↔
      ∀ rule ∈ rules, rule.kind = "include" → rule.Denotes host dayNumber date time) ∧
    ((∀ rule ∈ excludes, ¬rule.matchesAt date time = true) ↔
      ∀ rule ∈ rules, rule.kind = "exclude" → ¬rule.Denotes host dayNumber date time) := by
  induction rules generalizing includes excludes with
  | nil =>
    cases accepted
    simp
  | cons rule rules ih =>
    unfold compileRules at accepted
    split at accepted
    · cases accepted
    rename_i compiled one
    have denotes := @matchesAt_compileRule _ _ date time _ _ one
    cases rest : compileRules host dayNumber rules with
    | error => split at accepted <;> simp [rest,Except.map] at accepted
    | ok parts =>
      have later := ih rest
      rw [rest] at accepted
      split at accepted
      · rename_i included
        cases accepted
        simp only [forall_mem_cons,included,denotes,later,forall_const,true_and,
          String.reduceEq,false_imp_iff,and_self]
      · rename_i excluded
        cases accepted
        simp only [forall_mem_cons,excluded,denotes,later,forall_const,true_and,
          String.reduceEq,false_imp_iff,and_self]
      · cases accepted

/-- A compiled rule matches what its configuration denotes; a calendar allows what every include
rule and no exclude rule denotes. -/
theorem calendar_denotes (host : Host) (dayNumber : String → Int)
    (parseZone : ZoneParser) (date time : Int) :
    (∀ (rule : CalendarRuleConfig) compiled,
      compileRule host dayNumber rule.ruleType rule.args = .ok compiled →
        (compiled.matchesAt date time = true ↔ rule.Denotes host dayNumber date time)) ∧
      ∀ config calendar, fromConfig host dayNumber parseZone config = .ok calendar →
        (calendar.isAllowed date time = true ↔
          (∀ rule ∈ config.rules, rule.kind = "include" → rule.Denotes host dayNumber date time) ∧
          ∀ rule ∈ config.rules, rule.kind = "exclude" →
            ¬rule.Denotes host dayNumber date time) := by
  refine ⟨fun rule compiled => matchesAt_compileRule,fun config calendar accepted => ?_⟩
  unfold fromConfig at accepted
  cases compiled : compileRules host dayNumber config.rules with
  | error => simp [compiled,Except.map] at accepted
  | ok =>
    simp only [compiled,Except.map,Except.ok.injEq] at accepted
    obtain ⟨included,excluded⟩ := @isAllowed_compileRules _ _ date time _ _ _ compiled
    rw [← included,← excluded,← accepted]
    simp [isAllowed]

/-- Open on Christmas Eve of 2026, a Thursday. -/
def workdays : CalendarConfig :=
  ⟨"workdays",none,[⟨"include","weekly",["weekday"]⟩,⟨"exclude","annual",["12-25"]⟩]⟩

theorem calendar_denotes_workdays :
    ∃ calendar, fromConfig quietHost (fun _ => 0) (fun _ => .ok .utc) workdays = .ok calendar ∧
      calendar.isAllowed 20811 0 = true ∧ calendar.isAllowed 20812 0 = false ∧
      (∀ rule ∈ workdays.rules, rule.kind = "include" →
        rule.Denotes quietHost (fun _ => 0) 20811 0) ∧
      ∀ rule ∈ workdays.rules, rule.kind = "exclude" →
        ¬rule.Denotes quietHost (fun _ => 0) 20811 0 := by
  have compiles : fromConfig quietHost (fun _ => 0) (fun _ => .ok .utc) workdays =
      .ok ⟨"workdays",.utc,[.weekly [.mon,.tue,.wed,.thu,.fri]],[.annual [(12, 25)]]⟩ := rfl
  exact ⟨_,compiles,by decide,by decide,
    ((calendar_denotes _ _ _ 20811 0).2 workdays _ compiles).mp (by decide)⟩

/-- Next to Christmas, the first day of 2026 is also the first day of 2027. -/
theorem calendar_recurs :
    let args := ["12-25","2026-01-01"]
    let host := { quietHost with isDate := fun _ => true }
    args.map (parseAnnualArg host) = [.ok (.monthDay 12 25),.ok (.date "2026-01-01")] ∧
      (monthOf 20454, dayOf 20454) = (1, 1) ∧ (monthOf 20819, dayOf 20819) = (1, 1) ∧
      (compileRule host (fun _ => 20454) "annual" args).map
        (fun rule => rule.matchesAt 20819 0) = .ok true := by
  refine ⟨rfl,by decide,by decide,rfl⟩

def Calendar.nextAllowedAfter (calendar : Calendar) (naive : Int) : Option Int :=
  nextInstantIn naive calendar.allowedIntervalsOn

/-- The intervals of a day are its allowed seconds, in order; the scan finds the least one. -/
theorem Calendar.daySet_factors (calendar : Calendar) (date naive : Int) :
    ((∀ second < daySecs, Covers (calendar.allowedIntervalsOn date) second ↔
        calendar.isAllowed date (second * oneSecond) = true) ∧
      Ordered (calendar.allowedIntervalsOn date) ∧
      Within daySecs (calendar.allowedIntervalsOn date)) ∧
    match calendar.nextAllowedAfter naive with
    | some opening => IsLeast {other | oneSecond ∣ other ∧ naive ≤ other ∧
        calendar.isAllowed (dateNaive other) (timeOfDay other) = true} opening
    | none => ∀ other, oneSecond ∣ other → naive ≤ other →
        dateNaive other ≤ dateNaive naive + maxScanDays →
        calendar.isAllowed (dateNaive other) (timeOfDay other) = false := by
  have ok := calendar.daySetOk_allowedIntervalsOn
  refine ⟨⟨fun second belowDay => ?_,(ok date).ordered,(ok date).within⟩,?_⟩
  · have sameSecond : ((second : Int) * oneSecond / oneSecond).toNat = second := by
      simp [oneSecond]
    rw [← calendar.covers_allowedIntervalsOn,sameSecond] <;>
      simp only [oneSecond,oneDay,daySecs] at * <;> omega
  · cases found : calendar.nextAllowedAfter naive with
    | some =>
      obtain ⟨whole,notBefore,isOpen,least⟩ := nextInstantIn_eq_some ok found
      refine ⟨⟨whole,notBefore,(calendar.openIn_allowedIntervalsOn _).mp isOpen⟩,?_⟩
      rintro other ⟨otherWhole,otherNotBefore,allowed⟩
      exact least other otherWhole otherNotBefore
        ((calendar.openIn_allowedIntervalsOn _).mpr allowed)
    | none =>
      intro other whole notBefore inReach
      rw [Bool.eq_false_iff]
      intro allowed
      exact nextInstantIn_ne_none ok whole notBefore
        ((calendar.openIn_allowedIntervalsOn _).mpr allowed) inReach found

end Croniq

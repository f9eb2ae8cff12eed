import Croniq.FileLoading
import Croniq.JobFields
import Croniq.SyntaxSubstitution
import Mathlib.Data.List.Forall2
import Mathlib.Data.List.Nodup

/-!
# Where the validator and the loader agree

The validator reads the rules of a calendar and the times of a job in the syntax
tree; the scheduler and the loader read their compiled forms.
-/

namespace Croniq.Config

open Calendar Croniqfile List

def HasError (found : List Diagnostic) : Prop :=
  ∃ diagnostic ∈ found, diagnostic.severity = .error

/-- An error about the subject is among the reports. -/
def ReportsError (reports : List Report) (subject : Subject) : Prop :=
  ∃ report ∈ reports, report.subject = subject ∧ report.diagnostic.severity = .error

@[simp]
theorem hasError_nil : ¬ HasError [] := by
  simp [HasError]

@[simp]
theorem hasError_error (message : String) : HasError [.error message] := by
  simp [HasError,Diagnostic.error]

@[simp]
theorem hasError_warning (message : String) : ¬ HasError [.warning message] := by
  simp [HasError,Diagnostic.warning]

theorem hasError_flatMap {Part : Type} {parts : List Part} {check : Part → List Diagnostic} :
    HasError (parts.flatMap check) ↔ ∃ part ∈ parts, HasError (check part) := by
  simp only [HasError,mem_flatMap]
  constructor
  · rintro ⟨diagnostic,⟨part,member,found⟩,isError⟩
    exact ⟨part,member,diagnostic,found,isError⟩
  · rintro ⟨part,member,diagnostic,found,isError⟩
    exact ⟨diagnostic,⟨part,member,found⟩,isError⟩

@[simp]
theorem reportsError_nil (subject : Subject) : ¬ ReportsError [] subject := by
  simp [ReportsError]

@[simp]
theorem reportsError_append (first second : List Report) (subject : Subject) :
    ReportsError (first ++ second) subject ↔
      ReportsError first subject ∨ ReportsError second subject := by
  simp only [ReportsError,mem_append,or_and_right,exists_or]

@[simp]
theorem reportsError_about (pointed subject : Subject) (found : List Diagnostic) :
    ReportsError (about pointed found) subject ↔ pointed = subject ∧ HasError found := by
  constructor
  · rintro ⟨report,reported,rfl,isError⟩
    obtain ⟨same,member⟩ := mem_about.mp reported
    exact ⟨same.symm,report.diagnostic,member,isError⟩
  · rintro ⟨rfl,diagnostic,member,isError⟩
    exact ⟨⟨pointed,diagnostic⟩,mem_about.mpr ⟨rfl,member⟩,rfl,isError⟩

section

variable (host : Host) (parsers : DateParsers) (parseZone : ZoneParser)
  (names : DeclaredNames)

theorem reportsError_validateItem (state : ValidateState) (item : Item) (subject : Subject)
    (notOther : subject ≠ .other) :
    ReportsError (validateItem host parsers parseZone {} names state item) subject ↔
      (∃ block, item = .calendar block ∧ subject = .calendarRule block ∧
        HasError (block.rules.flatMap (validateCalendarRule host))) ∨
      ∃ job, item = .job job ∧ subject = .jobTime job ∧
        HasError (validateJobTimes parsers job) := by
  cases item with
  | calendar => simp [validateItem,validateCalendar,notOther.symm,eq_comm]
  | job => simp [validateItem,validateJob,notOther.symm,eq_comm]
  | _ => simp [validateItem,notOther.symm]

theorem mem_calendars {ast : Croniqfile} {block : CalendarBlock} :
    block ∈ ast.calendars ↔ .calendar block ∈ ast.items := by
  simp only [calendars,mem_filterMap]
  constructor
  · rintro ⟨item,member,same⟩
    cases item <;> cases same
    exact member
  · intro member
    exact ⟨_,member,rfl⟩

theorem mem_jobs {ast : Croniqfile} {job : JobBlock} : job ∈ ast.jobs ↔ .job job ∈ ast.items := by
  simp only [jobs,mem_filterMap]
  constructor
  · rintro ⟨item,member,same⟩
    cases item <;> cases same
    exact member
  · intro member
    exact ⟨_,member,rfl⟩

theorem reportsError_validateItems (state : ValidateState) (items : List Item)
    (subject : Subject) (notOther : subject ≠ .other) :
    ReportsError (validateItems host parsers parseZone {} names state items) subject ↔
      (∃ block, .calendar block ∈ items ∧ subject = .calendarRule block ∧
        HasError (block.rules.flatMap (validateCalendarRule host))) ∨
      ∃ job, .job job ∈ items ∧ subject = .jobTime job ∧
        HasError (validateJobTimes parsers job) := by
  induction items generalizing state with
  | nil => simp [validateItems]
  | cons item items ih =>
    rw [validateItems,reportsError_append,ih,
      reportsError_validateItem host parsers parseZone names state item subject notOther]
    simp only [mem_cons,or_and_right,exists_or,@eq_comm _ item]
    exact or_or_or_comm

theorem reportsError_validate_calendarRule (ast : Croniqfile) (block : CalendarBlock) :
    ReportsError (validate host parsers parseZone ast) (.calendarRule block) ↔
      block ∈ ast.calendars ∧ ∃ rule ∈ block.rules, HasError (validateCalendarRule host rule) := by
  rw [validate,validateWith,reportsError_append,reportsError_about,
    reportsError_validateItems host parsers parseZone _ _ _ _ (by simp),mem_calendars,
    ← hasError_flatMap]
  simp

theorem reportsError_validate_jobTime (ast : Croniqfile) (job : JobBlock) :
    ReportsError (validate host parsers parseZone ast) (.jobTime job) ↔
      job ∈ ast.jobs ∧ jobTimeErrors parsers job ≠ [] := by
  rw [validate,validateWith,reportsError_append,reportsError_about,
    reportsError_validateItems host parsers parseZone _ _ _ _ (by simp),mem_jobs]
  have timesReported : HasError (validateJobTimes parsers job) ↔
      jobTimeErrors parsers job ≠ [] := by
    simp [validateJobTimes,HasError,Diagnostic.error,eq_nil_iff_forall_not_mem]
  simp [timesReported]

end

/-! ### Calendars -/

theorem isOk_mapM {Arg Value : Type} (parse : Arg → Except String Value) (args : List Arg) :
    (args.mapM parse).isOk = args.all fun arg => (parse arg).isOk := by
  induction args with
  | nil => rfl
  | cons arg args ih =>
    rw [mapM_cons,all_cons,← ih]
    cases parse arg with
    | error => rfl
    | ok => cases args.mapM parse <;> rfl

theorem isOk_map_mapError {Value Result : Type} (read : Except String Value)
    (make : Value → Result) :
    ((read.map make).mapError CalendarError.invalidRule).isOk = read.isOk := by
  cases read <;> rfl

def scheduledRuleTypes : List String :=
  ["weekly","window","monthly","annual","yearly"]

theorem isOk_compileRule (host : Host) (dayNumber : String → Int) {ruleType : String}
    (known : ruleType ∈ scheduledRuleTypes) (args : List String) :
    (Calendar.compileRule host dayNumber ruleType args).isOk =
      ruleArgsValid host ruleType args := by
  simp only [scheduledRuleTypes,mem_cons,not_mem_nil,or_false] at known
  obtain rfl | rfl | rfl | rfl | rfl := known <;>
    simp only [Calendar.compileRule,ruleArgsValid,isOk_map_mapError,isOk_mapM]

theorem hasError_validateWeeklyArg (arg : StringValue) :
    HasError (validateWeeklyArg arg) ↔ (parseWeeklyArg arg.value).isOk = false := by
  unfold validateWeeklyArg
  cases parseWeeklyArg arg.value <;> simp [Except.isOk,Except.toBool]

theorem hasError_validateMonthlyArg (arg : StringValue) :
    HasError (validateMonthlyArg arg) ↔ (parseMonthlyArg arg.value).isOk = false := by
  unfold validateMonthlyArg
  cases parseMonthlyArg arg.value with
  | error => simp [Except.isOk,Except.toBool]
  | ok day => by_cases inMonth : 1 ≤ day ∧ day ≤ 31 <;> simp [inMonth,Except.isOk,Except.toBool]

theorem hasError_validateAnnualArg (host : Host) (arg : StringValue) :
    HasError (validateAnnualArg host arg) ↔ (parseAnnualArg host arg.value).isOk = false := by
  unfold validateAnnualArg
  cases parseAnnualArg host arg.value with
  | error => simp [Except.isOk,Except.toBool]
  | ok parsed =>
    cases parsed with
    | monthDay month day =>
      by_cases inYear : (1 ≤ month ∧ month ≤ 12) ∧ 1 ≤ day ∧ day ≤ 31 <;>
        simp [inYear,Except.isOk,Except.toBool]
    | date _ | ignored => simp [Except.isOk,Except.toBool]

section

variable {host : Host} {rule : CalendarRule}

section

variable (literal : ∀ arg ∈ rule.args, arg.isPlaceholder = false)
include literal

theorem hasError_args
    {Value : Type} {check : StringValue → List Diagnostic} {parse : String → Except String Value}
    (checks : ∀ arg, HasError (check arg) ↔ (parse arg.value).isOk = false) :
    HasError ((literalArgs rule).flatMap check) ↔
      ((rule.args.map StringValue.value).all fun arg => (parse arg).isOk) = false := by
  rw [literalArgs,filter_eq_self.mpr (by simpa using literal),hasError_flatMap]
  simp [checks]

theorem hasError_validateWindowArgs :
    HasError (validateWindowArgs rule.args) ↔
      (parseWindowArgs (rule.args.map StringValue.value)).isOk = false := by
  have noPlaceholder : rule.args.any StringValue.isPlaceholder = false := by simpa using literal
  unfold validateWindowArgs
  rw [noPlaceholder]
  cases rule.args with
  | nil => simp [parseWindowArgs,Except.isOk,Except.toBool]
  | cons arg args =>
    cases parseWindowArgs ((arg :: args).map StringValue.value) <;>
      simp [Except.isOk,Except.toBool]

theorem hasError_validateCalendarRule :
    HasError (validateCalendarRule host rule) ↔
      ruleArgsValid host rule.ruleType.value (rule.args.map StringValue.value) = false := by
  unfold validateCalendarRule
  split <;> rename_i typed
  · rw [typed]
    exact hasError_args literal hasError_validateWeeklyArg
  · rw [typed]
    exact hasError_validateWindowArgs literal
  · rw [typed]
    exact hasError_args literal hasError_validateMonthlyArg
  · rw [typed]
    exact hasError_args literal (hasError_validateAnnualArg host)
  · rw [typed]
    exact hasError_args literal (hasError_validateAnnualArg host)
  · simp [typed,ruleArgsValid]
  · -- Neither side objects to the arguments of a rule of unknown type.
    unfold ruleArgsValid
    split <;> simp_all

end

end

section

variable {host : Host} {vars : Vars}

theorem rules_foldl_calendarRule (rules : List CalendarRule) (config : CalendarConfig) :
    (rules.foldl (calendarRule host vars) config).rules =
      config.rules ++ (rules.filter (·.ruleType.value ≠ "timezone")).map
        (compileCalendarRule host vars) := by
  induction rules generalizing config with
  | nil => simp
  | cons rule rules ih =>
    rw [foldl_cons,ih]
    by_cases zone : rule.ruleType.value = "timezone" <;> simp [calendarRule,zone]

theorem resolveStr_of_literal {value : StringValue} (literal : value.isPlaceholder = false) :
    resolveStr host vars value = value.value := by
  simp [resolveStr,literal]

theorem compileCalendarRule_args {rule : CalendarRule}
    (literal : ∀ arg ∈ rule.args, arg.isPlaceholder = false) :
    (compileCalendarRule host vars rule).args = rule.args.map StringValue.value := by
  have noPlaceholder : rule.args.any StringValue.isPlaceholder = false := by simpa using literal
  rw [compileCalendarRule,if_neg (by simp [noPlaceholder])]
  exact map_congr_left fun arg member => resolveStr_of_literal (literal arg member)

variable (dayNumber : String → Int)

theorem isOk_compileRules (rules : List CalendarRule) :
    (compileRules host dayNumber (rules.map (compileCalendarRule host vars))).isOk =
      rules.all fun rule => (Calendar.compileRule host dayNumber rule.ruleType.value
        (compileCalendarRule host vars rule).args).isOk := by
  induction rules with
  | nil => rfl
  | cons rule rules ih =>
    rw [map_cons,compileRules,all_cons,← ih]
    have sameType : (compileCalendarRule host vars rule).ruleType = rule.ruleType.value := rfl
    rw [sameType]
    cases Calendar.compileRule host dayNumber rule.ruleType.value
      (compileCalendarRule host vars rule).args with
    | error _ => rfl
    | ok _ =>
      have written : (compileCalendarRule host vars rule).kind = "include" ∨
          (compileCalendarRule host vars rule).kind = "exclude" := by
        cases kind : rule.kind <;> simp [compileCalendarRule,kind]
      obtain kind | kind := written <;>
        simp only [kind] <;>
        cases compileRules host dayNumber
          (rules.map (compileCalendarRule host vars)) <;> rfl

variable (parseZone : ZoneParser) {block : CalendarBlock}
  (literal : ∀ rule ∈ block.rules, ∀ arg ∈ rule.args, arg.isPlaceholder = false)
include literal

/-- A calendar without placeholders compiles exactly if its rules do; the zone never stops it. -/
theorem isOk_fromConfig_compileCalendar (timezone : Option String) :
    (fromConfig host dayNumber parseZone
        (compileCalendar host vars block timezone)).isOk = true ↔
      ∀ rule ∈ block.rules, rule.ruleType.value ≠ "timezone" →
        (Calendar.compileRule host dayNumber rule.ruleType.value
          (rule.args.map StringValue.value)).isOk = true := by
  have sameOk : ∀ config : CalendarConfig,
      (fromConfig host dayNumber parseZone config).isOk =
        (compileRules host dayNumber config.rules).isOk := by
    intro config
    rw [fromConfig]
    cases compileRules host dayNumber config.rules <;> rfl
  rw [sameOk,compileCalendar,rules_foldl_calendarRule,nil_append,isOk_compileRules]
  simp only [all_eq_true,mem_filter,decide_eq_true_eq,and_imp]
  refine forall_congr' fun rule => forall_congr' fun member => forall_congr' fun _ => ?_
  rw [compileCalendarRule_args (literal rule member)]

theorem reports_iff_compile_fails
    (known : ∀ rule ∈ block.rules, rule.ruleType.value ∈ "timezone" :: scheduledRuleTypes)
    (timezone : Option String) : (∃ rule ∈ block.rules, HasError (validateCalendarRule host rule)) ↔
      (fromConfig host dayNumber parseZone
        (compileCalendar host vars block timezone)).isOk = false := by
  rw [← Bool.not_eq_true,isOk_fromConfig_compileCalendar dayNumber parseZone literal]
  push Not
  refine exists_congr fun rule => and_congr_right fun member => ?_
  rw [hasError_validateCalendarRule (literal rule member),ne_eq]
  obtain zone | scheduled := mem_cons.mp (known rule member)
  · simp [zone,ruleArgsValid]
  · have notZone : rule.ruleType.value ≠ "timezone" := by
      intro zone
      rw [zone] at scheduled
      exact absurd scheduled (by decide)
    rw [isOk_compileRule host dayNumber scheduled]
    simp [notZone]

end

/-! ### Job times -/

/-- A schedule at a time of day names one, as every parsed one does. -/
def ScheduleKind.AtTimeOfDay : ScheduleKind → Prop
  | .daily time | .weekdays _ time | .monthly _ time => time.hour < 24 ∧ time.minute < 60
  | _ => True

theorem mem_valuesOfAll_of_plain {entries : List DirectiveOrBlock} {directive : Directive}
    (plain : directive ∈ plainDirectives entries) {arg : StringValue}
    (written : arg ∈ directive.args) : arg ∈ valuesOfAll entries := by
  induction entries with
  | nil => cases plain
  | cons entry entries ih =>
    rw [valuesOfAll,mem_append]
    cases entry with
    | directive =>
      obtain rfl | plain := mem_cons.mp plain
      · exact .inl (mem_cons_of_mem _ written)
      · exact .inr (ih plain)
    | block name qualifier directives | comment => exact .inr (ih plain)

section

variable {host : Host} {vars : Vars} {limits : String → Option Nat} {parsers : DateParsers}
  {job : JobBlock} {directive : Directive} {node : ScheduleNode}

theorem isOk_of_directiveTimeErrors {Value : Type} {parse : String → Except String Value}
    (literal : ∀ arg ∈ directive.args, arg.isPlaceholder = false)
    (inOrder : directiveTimeErrors parse directive = []) {text : String}
    (read : firstArg host vars directive = some text) : (parse text).isOk = true := by
  obtain ⟨key,args⟩ := directive
  match args with
  | [] => simp [firstArg] at read
  | [arg] =>
    have isLiteral := literal arg mem_cons_self
    have sameText : arg.value = text := by simpa [firstArg,resolveStr,isLiteral] using read
    subst sameText
    cases parsed : parse arg.value with
    | ok => rfl
    | error => simp [directiveTimeErrors,isLiteral,parsed] at inOrder
  | _ :: _ :: _ => simp [directiveTimeErrors] at inOrder

theorem windowErrors_of_plain (inOrder : windowErrors job = [])
    (plain : directive ∈ plainDirectives job.directives)
    (isWindow : directive.key.value = "window") :
    directiveTimeErrors parseJobWindow directive = [] := by
  have written : DirectiveOrBlock.directive directive ∈ job.directives := by
    obtain ⟨entry,member,same⟩ := mem_filterMap.mp plain
    cases entry <;> cases same
    exact member
  simpa [isWindow] using flatMap_eq_nil_iff.mp inOrder _ written

theorem boundErrors_of_option
    (inOrder : scheduleTimeErrors parsers node = []) {option : Directive}
    (written : option ∈ node.options)
    (isBound : option.key.value = "not_before" ∨ option.key.value = "not_after") :
    directiveTimeErrors (parseBound parsers) option = [] := by
  have checked := flatMap_eq_nil_iff.mp (append_eq_nil_iff.mp inOrder).1 _ written
  rw [if_pos isBound] at checked
  exact checked

theorem isOk_fromAst (literal : ∀ value ∈ node.values, value.isPlaceholder = false)
    (inOrder : scheduleTimeErrors parsers node = [])
    (positive : ∀ count unit, node.kind = .interval count unit → count ≠ 0)
    (timeOfDay : node.kind.AtTimeOfDay) : (Schedule.fromAst parsers node.kind).isOk = true := by
  obtain ⟨kind,mode,options⟩ := node
  cases kind with
  | interval count unit =>
    have notZero : IntervalUnit.toSeconds unit count ≠ 0 := by
      have := positive count unit rfl
      cases unit <;> simpa [IntervalUnit.toSeconds] using this
    simp [Schedule.fromAst,notZero,Except.isOk,Except.toBool]
  | daily time | weekdays days time | monthly ordinals time =>
    have inDay : time.hour < 24 ∧ time.minute < 60 := timeOfDay
    simp [Schedule.fromAst,scheduleTime,NaiveTime.fromHmsOpt,inDay,Except.map,Except.isOk,
      Except.toBool]
  | once instant =>
    have isLiteral : instant.isPlaceholder = false := literal instant (by
      simp [ScheduleNode.values,ScheduleKind.values])
    have checked := (append_eq_nil_iff.mp inOrder).2
    simp only [isLiteral,Bool.false_eq_true,if_false] at checked
    -- Both readings of a one-off instant try the same two formats.
    simp only [Schedule.fromAst,parseDatetime]
    unfold parseOnceAt at checked
    cases withOffset : parsers.rfc3339 instant.value with
    | some => rfl
    | none =>
      cases plain : parsers.naiveDateTime instant.value with
      | some => rfl
      | none => simp [withOffset,plain] at checked
  | disabled => rfl

theorem timeFaults_eq_nil_iff_jobTimeErrors
    (literal : ∀ value ∈ job.values, value.isPlaceholder = false)
    (positive : ∀ node, job.schedule = some node →
      ∀ count unit, node.kind = .interval count unit → count ≠ 0)
    (timeOfDay : ∀ node, job.schedule = some node → node.kind.AtTimeOfDay)
    (defaults : JobDefaults) :
    timeFaults parsers job (compileJob host vars limits defaults job) = [] ↔
      jobTimeErrors parsers job = [] := by
  simp only [timeFaults,readTime_faults_eq_nil_iff,readSchedule_faults_eq_nil_iff,and_assoc]
  refine ⟨fun inOrder => inOrder.1,fun inOrder => ⟨inOrder,?_⟩⟩
  obtain ⟨windows,schedules⟩ := append_eq_nil_iff.mp inOrder
  have scheduleInOrder : ∀ node, job.schedule = some node →
      scheduleTimeErrors parsers node = [] := by
    intro node isNode
    simpa [isNode] using schedules
  have scheduleLiteral : ∀ node, job.schedule = some node →
      ∀ value ∈ node.values, value.isPlaceholder = false := by
    intro node isNode value written
    exact literal value (by simp [JobBlock.values,isNode,written])
  -- A bound comes from an option of the schedule, which was found in order.
  have boundReads : ∀ key, key = "not_before" ∨ key = "not_after" → ∀ text,
      (lastWritten (onKey key (firstArg host vars)) job.options).getD none = some text →
        (parseBound parsers text).isOk = true := by
    intro key isBound text compiled
    cases written : lastWritten (onKey key (firstArg host vars)) job.options with
    | none => simp [written] at compiled
    | some =>
      obtain ⟨option,member,writes⟩ := lastWritten_eq_some written
      obtain ⟨sameKey,read⟩ := onKey_eq_some.mp writes
      have isText : firstArg host vars option = some text := by
        simpa [written,← read] using compiled
      cases isNode : job.schedule with
      | none => simp [JobBlock.options,isNode] at member
      | some node =>
        have inOptions : option ∈ node.options := by simpa [JobBlock.options,isNode] using member
        refine isOk_of_directiveTimeErrors ?_
          (boundErrors_of_option (scheduleInOrder node isNode) inOptions (sameKey ▸ isBound))
          isText
        intro arg writtenArg
        refine scheduleLiteral node isNode arg ?_
        simp only [ScheduleNode.values,mem_append,mem_flatMap]
        exact .inr ⟨option,inOptions,mem_cons_of_mem _ writtenArg⟩
  refine ⟨?_,?_,?_,?_⟩
  · intro node isNode
    exact isOk_fromAst (scheduleLiteral node isNode) (scheduleInOrder node isNode)
      (positive node isNode) (timeOfDay node isNode)
  · intro text compiled
    exact boundReads _ (.inl rfl) text
      ((compileJob_bounds host vars limits defaults job).1.symm.trans compiled)
  · intro text compiled
    exact boundReads _ (.inr rfl) text
      ((compileJob_bounds host vars limits defaults job).2.symm.trans compiled)
  · intro text compiled
    have fromDirective := (compileJob_window host vars limits defaults job).symm.trans compiled
    cases written : lastWritten (onKey "window" (firstArg host vars))
        (plainDirectives job.directives) with
    | none => simp [written] at fromDirective
    | some value =>
      obtain ⟨directive,plain,writes⟩ := lastWritten_eq_some written
      obtain ⟨isWindow,read⟩ := onKey_eq_some.mp writes
      refine isOk_of_directiveTimeErrors ?_ (windowErrors_of_plain windows plain isWindow)
        (by simpa [written,← read] using fromDirective)
      intro arg writtenArg
      exact literal arg (mem_append_right _ (mem_valuesOfAll_of_plain plain writtenArg))

end

/-! ### Accepted files -/

def ErrorFree (reports : List Report) : Prop :=
  ∀ report ∈ reports, report.diagnostic.severity ≠ .error

theorem errorFree_append {first second : List Report} :
    ErrorFree (first ++ second) ↔ ErrorFree first ∧ ErrorFree second := by
  simp only [ErrorFree,mem_append,or_imp,forall_and]

theorem errorFree_about {subject : Subject} {found : List Diagnostic} :
    ErrorFree (about subject found) ↔ ¬ HasError found := by
  constructor
  · rintro free ⟨diagnostic,member,isError⟩
    exact free ⟨subject,diagnostic⟩ (mem_about.mpr ⟨rfl,member⟩) isError
  · intro noError report reported isError
    exact noError ⟨report.diagnostic,(mem_about.mp reported).2,isError⟩

theorem hasError_append {first second : List Diagnostic} :
    HasError (first ++ second) ↔ HasError first ∨ HasError second := by
  simp only [HasError,mem_append,or_and_right,exists_or]

section

variable {host : Host} {parsers : DateParsers} {parseZone : ZoneParser}
  {options : Options} {names : DeclaredNames} {items : List Item} {state : ValidateState}

section

variable (free : ErrorFree (validateItems host parsers parseZone options names state items))
include free

theorem errorFree_validateJob {job : JobBlock} (member : .job job ∈ items) :
    ∃ reached, ErrorFree (validateJob parsers parseZone options names reached job) := by
  induction items generalizing state with
  | nil => cases member
  | cons item items ih =>
    obtain ⟨here,later⟩ := errorFree_append.mp free
    obtain rfl | member := mem_cons.mp member
    · exact ⟨state,here⟩
    · exact ih later member

theorem keys_nodup_of_errorFree :
    ((mk items).jobs.map fun job => job.key.raw).Nodup ∧
      ∀ job ∈ (mk items).jobs, job.key.raw ∉ state.jobKeys := by
  induction items generalizing state with
  | nil => exact ⟨.nil,by simp [jobs]⟩
  | cons item items ih =>
    obtain ⟨here,later⟩ := errorFree_append.mp free
    obtain ⟨unique,fresh⟩ := ih later
    cases item with
    | job block =>
      have notKnown : block.key.raw ∉ state.jobKeys := by
        intro known
        have noError := errorFree_about.mp
          (errorFree_append.mp (errorFree_append.mp here).1).1
        apply noError
        refine hasError_append.mpr (.inl (hasError_append.mpr (.inl ?_)))
        rw [validateJobKey,if_pos known,append_assoc]
        exact hasError_append.mpr (.inl (hasError_error _))
      have laterFresh : ∀ job ∈ (mk items).jobs,
          job.key.raw ≠ block.key.raw ∧ job.key.raw ∉ state.jobKeys := by
        intro job member
        have notSeen := fresh job member
        rw [ValidateState.next,mem_cons,not_or] at notSeen
        exact notSeen
      refine ⟨nodup_cons.mpr ⟨?_,unique⟩,?_⟩
      · intro repeated
        obtain ⟨job,member,same⟩ := mem_map.mp repeated
        exact (laterFresh job member).1 same
      · exact forall_mem_cons.mpr ⟨notKnown,fun job member => (laterFresh job member).2⟩
    | _ => exact ⟨unique,fresh⟩

end

theorem errorFree_of_loadErrors {ast : Croniqfile}
    (accepted : loadErrors host parsers parseZone ast = []) :
    ErrorFree (validateWith host parsers parseZone .loader ast) := by
  intro report reported isError
  have kept : report ∈ (validateWith host parsers parseZone .loader ast).filter
      (·.diagnostic.severity = .error) := mem_filter.mpr ⟨reported,by simp [isError]⟩
  have noMessages := map_eq_nil_iff.mp accepted
  rw [noMessages] at kept
  cases kept

theorem positive_of_loadErrors {ast : Croniqfile}
    (accepted : loadErrors host parsers parseZone ast = []) {job : JobBlock}
    (member : job ∈ ast.jobs) {node : ScheduleNode} (isNode : job.schedule = some node)
    (count : Nat) (unit : IntervalUnit) (isInterval : node.kind = .interval count unit) :
    count ≠ 0 := by
  rintro rfl
  obtain ⟨reached,free⟩ := errorFree_validateJob
    (errorFree_append.mp (errorFree_of_loadErrors accepted)).2 (mem_jobs.mp member)
  have noError := errorFree_about.mp (errorFree_append.mp (errorFree_append.mp free).1).1
  apply noError
  refine hasError_append.mpr (.inr ?_)
  simp only [isNode,Option.elim_some,validateScheduleKind,isInterval,if_true]
  exact hasError_append.mpr (.inr (hasError_error _))

end

/-! ### Agreement -/

def Croniqfile.PlaceholderFree (ast : Croniqfile) : Prop :=
  ∀ value ∈ ast.values, value.isPlaceholder = false

section

variable (host : Host) (dayNumber : String → Int) (parsers : DateParsers)
  (parseZone : ZoneParser) (ast : Croniqfile) (now : Int)

/-- The validator reports an error about a rule exactly if its compiled form is rejected. -/
def CalendarAgrees (block : CalendarBlock) (config : CalendarConfig) : Prop :=
  ReportsError (validate host parsers parseZone ast) (.calendarRule block) ↔
    (fromConfig host dayNumber parseZone config).isOk = false

/-- The loader records a fault in the times of the job, after that of its calendar if any. -/
def RecordsTimeFault (loaded : LoadedConfig) (job : JobBlock) (config : JobConfig) : Prop :=
  timeFaults parsers job config ≠ [] ∧
    loaded.calendarFaults config.key = faultOnRecord
      (((ast.compiledFile host dayNumber parsers parseZone).calendars.resolve
        config.calendar).2.toList ++ timeFaults parsers job config)

/-- The validator reports an error about a time of the job exactly if the loader records a time
fault. -/
def TimesAgree (job : JobBlock) (config : JobConfig) : Prop :=
  ReportsError (validate host parsers parseZone ast) (.jobTime job) ↔
    ∃ loaded, ast.load host dayNumber parsers parseZone now = .ok loaded ∧
      RecordsTimeFault host dayNumber parsers parseZone ast loaded job config

end

section

variable {host : Host} {dayNumber : String → Int} {parsers : DateParsers}
  {parseZone : ZoneParser} {ast : Croniqfile} {now : Int}

theorem Croniqfile.PlaceholderFree.calendar (literal : ast.PlaceholderFree)
    (member : block ∈ ast.calendars) :
    ∀ rule ∈ block.rules, ∀ arg ∈ rule.args, arg.isPlaceholder = false := by
  intro rule inBlock arg inRule
  refine literal arg (mem_flatMap.mpr ⟨_,mem_calendars.mp member,?_⟩)
  refine mem_cons_of_mem _ (mem_flatMap.mpr ⟨rule,inBlock,?_⟩)
  exact mem_cons_of_mem _ inRule

theorem Croniqfile.PlaceholderFree.job (literal : ast.PlaceholderFree) {job : JobBlock}
    (member : job ∈ ast.jobs) : ∀ value ∈ job.values, value.isPlaceholder = false := by
  intro value written
  exact literal value (mem_flatMap.mpr ⟨_,mem_jobs.mp member,written⟩)

variable {loaded : LoadedConfig}

theorem loadErrors_of_load (loads : ast.load host dayNumber parsers parseZone now = .ok loaded) :
    loadErrors host parsers parseZone ast = [] := by
  unfold load at loads
  split at loads
  · assumption
  · cases loads

theorem eq_of_find?_key (accepted : loadErrors host parsers parseZone ast = [])
    {job astJob : JobBlock} (member : job ∈ ast.jobs)
    (found : ast.jobs.find? (·.key.raw = job.key.raw) = some astJob) : astJob = job := by
  have sameKey : astJob.key.raw = job.key.raw := by simpa using find?_some found
  have unique := (keys_nodup_of_errorFree
    (errorFree_append.mp (errorFree_of_loadErrors accepted)).2).1
  exact inj_on_of_nodup_map unique (mem_of_find?_eq_some found) member sameKey

section

variable (loads : ast.load host dayNumber parsers parseZone now = .ok loaded)
include loads

theorem keys_nodup_of_load :
    ((ast.compiledFile host dayNumber parsers parseZone).jobs.map JobConfig.key).Nodup := by
  rw [CompiledFile.sameKeys]
  exact (keys_nodup_of_errorFree
    (errorFree_append.mp (errorFree_of_loadErrors (loadErrors_of_load loads))).2).1

theorem loadJobs_of_load :
    loadJobs parsers parseZone (ast.compiledFile host dayNumber parsers parseZone) now
      (ast.compiledFile host dayNumber parsers parseZone).jobs .empty = .ok loaded := by
  rw [load,loadErrors_of_load loads] at loads
  exact loads

theorem faultOnRecord_of_load {job : JobBlock}
    {config : JobConfig} (member : job ∈ ast.jobs) (compiled : config ∈ (compile host ast).jobs)
    (sameKey : config.key = job.key.raw) :
    loaded.calendarFaults config.key = faultOnRecord
      (((ast.compiledFile host dayNumber parsers parseZone).calendars.resolve
        config.calendar).2.toList ++ timeFaults parsers job config) := by
  obtain ⟨astJob,found,recorded⟩ := loadJobs_faultOnRecord (keys_nodup_of_load loads)
    (fun _ _ => rfl) (loadJobs_of_load loads) compiled
  rw [sameKey] at found
  rw [eq_of_find?_key (loadErrors_of_load loads) member found] at recorded
  exact recorded

end

variable (host dayNumber parsers parseZone now)

/-- Without placeholders the validator and the loader agree on every calendar whose rule types the
scheduler knows and, once the file is loaded, on the times of every job whose schedule names a
time of day. -/
theorem validation_agrees_with_loading (literal : ast.PlaceholderFree) :
    List.Forall₂ (fun block config =>
      (∀ rule ∈ block.rules, rule.ruleType.value ∈ "timezone" :: scheduledRuleTypes) →
        CalendarAgrees host dayNumber parsers parseZone ast block config)
      ast.calendars (compile host ast).calendars ∧
    ∀ loaded, ast.load host dayNumber parsers parseZone now = .ok loaded →
      List.Forall₂ (fun job config =>
        (∀ node, job.schedule = some node → node.kind.AtTimeOfDay) →
          TimesAgree host dayNumber parsers parseZone ast now job config)
        ast.jobs (compile host ast).jobs := by
  refine ⟨?_,?_⟩
  · obtain ⟨sameLength,compiled⟩ := forall₂_iff_zip.mp (forall₂_compile_calendars host ast)
    refine forall₂_iff_zip.mpr ⟨sameLength,?_⟩
    intro block config paired known
    obtain ⟨timezone,rfl⟩ := compiled paired
    have member := (of_mem_zip paired).1
    rw [CalendarAgrees,reportsError_validate_calendarRule,and_iff_right member]
    exact reports_iff_compile_fails dayNumber parseZone (literal.calendar member) known timezone
  · intro loaded loads
    obtain ⟨sameLength,compiled⟩ := forall₂_iff_zip.mp (forall₂_compile_jobs host ast)
    refine forall₂_iff_zip.mpr ⟨sameLength,?_⟩
    intro job config paired timeOfDay
    obtain ⟨defaults,isCompiled⟩ := compiled paired
    obtain ⟨member,configMember⟩ := of_mem_zip paired
    have sameKey : config.key = job.key.raw := by
      rw [isCompiled]
      rfl
    have recorded := faultOnRecord_of_load loads member configMember sameKey
    have accepted := loadErrors_of_load loads
    have faultless : timeFaults parsers job config = [] ↔ jobTimeErrors parsers job = [] := by
      rw [isCompiled]
      exact timeFaults_eq_nil_iff_jobTimeErrors (literal.job member)
        (fun node isNode => positive_of_loadErrors accepted member isNode) timeOfDay defaults
    rw [TimesAgree,reportsError_validate_jobTime,and_iff_right member]
    constructor
    · intro errors
      exact ⟨loaded,loads,faultless.not.mpr errors,recorded⟩
    · rintro ⟨_,-,faults,-⟩
      exact faultless.not.mp faults

end

/-! ### Files on which they differ -/

def exampleJob (kind : ScheduleKind) (directives : List Directive) : JobBlock where
  key := { raw := "ops:backup", nameSpace := "ops", name := "backup", variant := none }
  schedule := some { kind, mode := none, options := [] }
  directives := directives.map .directive

def badWindow : Directive :=
  ⟨wordOf "window",[wordOf "8:00-18:00"]⟩

/-- `calendar moon { include lunar full }` -/
def lunarFile : Croniqfile where
  items := [.calendar
    ⟨wordOf "moon",[⟨.include,wordOf "lunar",[wordOf "full"]⟩]⟩]

/-- One key for two jobs, whose window cannot be read. -/
def twiceFile : Croniqfile where
  items := [.job (exampleJob (.interval 1 .hours) [badWindow]),
    .job (exampleJob (.interval 1 .hours) [badWindow])]

def lateFile : Croniqfile where
  items := [.job (exampleJob (.daily { hour := 25, minute := 0, raw := "25:00" }) [])]

/-- An unreadable weekday, and a job with an unreadable window. -/
def fundayFile : Croniqfile where
  items := [.calendar ⟨wordOf "office",[⟨.include,wordOf "weekly",[wordOf "funday"]⟩]⟩,
    .job (exampleJob (.interval 1 .hours) [badWindow])]

theorem validation_agrees_with_loading_funday :
    fundayFile.PlaceholderFree ∧
    List.Forall₂ (CalendarAgrees quietHost (fun _ => 0) undated noZone fundayFile)
      fundayFile.calendars (compile quietHost fundayFile).calendars ∧
    List.Forall₂ (TimesAgree quietHost (fun _ => 0) undated noZone fundayFile 0)
      fundayFile.jobs (compile quietHost fundayFile).jobs := by
  have literal : fundayFile.PlaceholderFree := by
    unfold Croniqfile.PlaceholderFree
    decide
  have ⟨loaded,loads⟩ : ∃ loaded,
      fundayFile.load quietHost (fun _ => 0) undated noZone 0 = .ok loaded := ⟨_,rfl⟩
  have ⟨calendars,times⟩ :=
    validation_agrees_with_loading quietHost (fun _ => 0) undated noZone 0 literal
  refine ⟨literal,.cons ((forall₂_cons.mp calendars).1 (by decide)) .nil,
    .cons ((forall₂_cons.mp (times loaded loads)).1 ?_) .nil⟩
  rintro node ⟨⟩
  trivial

/-- An unknown rule type, a key declared twice and a time past the day are judged differently. -/
theorem validation_differs_from_loading : (lunarFile.PlaceholderFree ∧
      ¬ List.Forall₂ (CalendarAgrees quietHost (fun _ => 0) undated noZone lunarFile)
        lunarFile.calendars (compile quietHost lunarFile).calendars) ∧
    (twiceFile.PlaceholderFree ∧
      ¬ List.Forall₂ (TimesAgree quietHost (fun _ => 0) undated noZone twiceFile 0)
        twiceFile.jobs (compile quietHost twiceFile).jobs) ∧
    lateFile.PlaceholderFree ∧
      ¬ List.Forall₂ (TimesAgree quietHost (fun _ => 0) undated noZone lateFile 0)
        lateFile.jobs (compile quietHost lateFile).jobs := by
  refine ⟨⟨by unfold Croniqfile.PlaceholderFree; decide,?_⟩,
    ⟨by unfold Croniqfile.PlaceholderFree; decide,?_⟩,
    by unfold Croniqfile.PlaceholderFree; decide,?_⟩
  · intro agree
    have reported := (forall₂_cons.mp agree).1.mpr rfl
    obtain ⟨-,rule,member,hasError⟩ :=
      (reportsError_validate_calendarRule _ _ _ _ _).mp reported
    obtain rfl := mem_singleton.mp member
    exact hasError_warning _ hasError
  · intro agree
    have reported : ReportsError (validate quietHost undated noZone twiceFile)
        (.jobTime (exampleJob (.interval 1 .hours) [badWindow])) :=
      (reportsError_validate_jobTime _ _ _ _ _).mpr ⟨mem_cons_self,by decide⟩
    obtain ⟨loaded,loads,-⟩ := (forall₂_cons.mp agree).1.mp reported
    have refused : twiceFile.load quietHost (fun _ => 0) undated noZone 0 =
        .error (.validate ["duplicate job key 'ops:backup'"]) := rfl
    cases loads
  · intro agree
    have reported := (forall₂_cons.mp agree).1.mpr ⟨_,rfl,by decide,rfl⟩
    exact ((reportsError_validate_jobTime _ _ _ _ _).mp reported).2 (by decide)

end Croniq.Config

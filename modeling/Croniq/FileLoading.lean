import Croniq.FileValidation

/-!
# Loading a parsed file

The scheduler compiles the calendars of a configuration with the parsers the
validator uses.
-/

namespace Croniq

open CivilCalendar Function

inductive CalendarError where
  | unknownRuleKind (kind : String)
  | unknownRuleType (ruleType : String)
  | invalidRule (message : String)
deriving DecidableEq

def CalendarError.text : CalendarError → String
  | .unknownRuleKind kind => "unknown rule kind: " ++ kind
  | .unknownRuleType ruleType => "unknown rule type: " ++ ruleType
  | .invalidRule message => "invalid rule: " ++ message

namespace Calendar

open Config

/-- A rule with only dates of one year keeps them; next to recurring ones they recur. -/
def annualRule (dayNumber : String → Int) (args : List AnnualArg) : CalendarRule :=
  let recurring := args.filterMap fun
    | .monthDay month day => some (month, day)
    | _ => none
  let dates := args.filterMap fun
    | .date text => some (dayNumber text)
    | _ => none
  if dates = [] then .annual recurring
  else if recurring = [] then .dates dates
  else .annual (recurring ++ dates.map fun date => (monthOf date, dayOf date))

/-- `dayNumber` is the day of a text the host accepts as a date. -/
def compileRule (host : Host) (dayNumber : String → Int) (ruleType : String)
    (args : List String) : Except CalendarError CalendarRule :=
  match ruleType with
  | "weekly" =>
    ((args.mapM parseWeeklyArg).map fun days => .weekly days.flatten).mapError .invalidRule
  | "window" =>
    ((parseWindowArgs args).map fun (start, stop) => .window start stop).mapError .invalidRule
  | "monthly" => ((args.mapM parseMonthlyArg).map .monthly).mapError .invalidRule
  | "annual" | "yearly" =>
    ((args.mapM (parseAnnualArg host)).map (annualRule dayNumber)).mapError .invalidRule
  | other => .error (.unknownRuleType other)

/-- The rules that include and those that exclude. -/
def compileRules (host : Host) (dayNumber : String → Int) :
    List CalendarRuleConfig → Except CalendarError (List CalendarRule × List CalendarRule)
  | [] => .ok ([], [])
  | rule :: rules =>
    match compileRule host dayNumber rule.ruleType rule.args with
    | .error error => .error error
    | .ok compiled =>
      match rule.kind with
      | "include" => (compileRules host dayNumber rules).map fun (includes, excludes) =>
        (compiled :: includes, excludes)
      | "exclude" => (compileRules host dayNumber rules).map fun (includes, excludes) =>
        (includes, compiled :: excludes)
      | other => .error (.unknownRuleKind other)

/-- A zone that does not parse is UTC. -/
def configZone (parseZone : ZoneParser) (timezone : Option String) : Tz :=
  ((timezone.filter (· ≠ "")).bind fun name => (parseZone name).toOption).getD .utc

def fromConfig (host : Host) (dayNumber : String → Int) (parseZone : ZoneParser)
    (config : CalendarConfig) : Except CalendarError Calendar :=
  (compileRules host dayNumber config.rules).map fun (includes, excludes) =>
    { name := config.name, tz := configZone parseZone config.timezone, includes, excludes }

end Calendar

namespace Config

section

variable (host : Host) (dayNumber : String → Int) (parsers : DateParsers)
  (parseZone : ZoneParser)

/-- A later calendar replaces an earlier one of its name. -/
def resolveCalendar (resolved : ResolvedCalendars) (config : CalendarConfig) : ResolvedCalendars :=
  match Calendar.fromConfig host dayNumber parseZone config with
  | .ok calendar =>
    { resolved with
      calendars := update resolved.calendars config.name (some calendar)
      errors := update resolved.errors config.name none }
  | .error error =>
    { resolved with
      calendars := update resolved.calendars config.name none
      errors := update resolved.errors config.name (some error.text) }

/-- The calendars of a file; the store is not read. -/
def resolveCalendars (configs : List CalendarConfig) (strict : Bool) : ResolvedCalendars :=
  configs.foldl (resolveCalendar host dayNumber parseZone)
    { calendars := fun _ => none, errors := fun _ => none, strict }

/-- The messages for which a file is rejected. -/
def loadErrors (ast : Croniqfile) : List String :=
  ((validateWith host parsers parseZone .loader ast).filter
    (·.diagnostic.severity = .error)).map (·.diagnostic.message)

end

section

variable (host : Host) (vars : Vars) (limits : String → Option Nat) {Block Part : Type}
  {pick : Item → Option Block} {relation : Block → Part → Prop}

/-- What a kind of item adds is compiled from the items of that kind, in order. -/
theorem forall₂_compileItems (get : CompileState → List Part) (empty : get {} = [])
    (adds : ∀ state item, ∃ added : Option Part,
      get (compileItem host vars limits state item) = get state ++ added.toList ∧
        Option.Rel relation (pick item) added) (items : List Item) :
    List.Forall₂ relation (items.filterMap pick)
      (get (items.foldl (compileItem host vars limits) {})) := by
  have walk : ∀ state, ∃ parts,
      get (items.foldl (compileItem host vars limits) state) = get state ++ parts ∧
        List.Forall₂ relation (items.filterMap pick) parts := by
    induction items with
    | nil => exact fun state => ⟨[],by simp,.nil⟩
    | cons item items ih =>
      intro state
      obtain ⟨added,isAdded,ofItem⟩ := adds state item
      obtain ⟨parts,sameParts,related⟩ := ih (compileItem host vars limits state item)
      refine ⟨added.toList ++ parts,by simp [sameParts,isAdded],?_⟩
      rw [List.filterMap_cons]
      generalize pick item = picked at ofItem ⊢
      cases ofItem with
      | some ofBlock => exact .cons ofBlock related
      | none => exact related
  obtain ⟨parts,sameParts,related⟩ := walk {}
  rw [sameParts,empty]
  exact related

end

theorem forall₂_compile_calendars (host : Host) (ast : Croniqfile) :
    List.Forall₂ (fun block config =>
      ∃ timezone, config = compileCalendar host (collectVars host ast) block timezone)
      ast.calendars (compile host ast).calendars := by
  refine forall₂_compileItems _ _ _ CompileState.calendars rfl (fun state item => ?_) ast.items
  cases item with
  | calendar => exact ⟨some _,rfl,.some ⟨_,rfl⟩⟩
  | _ => exact ⟨none,(List.append_nil _).symm,.none⟩

theorem forall₂_compile_jobs (host : Host) (ast : Croniqfile) :
    List.Forall₂ (fun job config => ∃ defaults, config = compileJob host (collectVars host ast)
        (groupLimits (collectConcurrencyGroups host (collectVars host ast) ast)) defaults job)
      ast.jobs (compile host ast).jobs := by
  refine forall₂_compileItems _ _ _ CompileState.jobs rfl (fun state item => ?_) ast.items
  cases item with
  | job => exact ⟨some _,rfl,.some ⟨_,rfl⟩⟩
  | _ => exact ⟨none,(List.append_nil _).symm,.none⟩

theorem compile_keys (host : Host) (ast : Croniqfile) :
    (compile host ast).jobs.map JobConfig.key = ast.jobs.map fun job => job.key.raw := by
  have related := forall₂_compile_jobs host ast
  generalize ast.jobs = jobs, (compile host ast).jobs = configs at related ⊢
  induction related with
  | nil => rfl
  | cons head _ ih =>
    obtain ⟨_,rfl⟩ := head
    simp only [List.map_cons,ih]
    rfl

section

variable (host : Host) (dayNumber : String → Int) (parsers : DateParsers)
  (parseZone : ZoneParser)

def Croniqfile.compiledFile (ast : Croniqfile) : CompiledFile where
  astJobs := ast.jobs
  jobs := (compile host ast).jobs
  calendars := resolveCalendars host dayNumber parseZone (compile host ast).calendars
    (compile host ast).policy.strictCalendars
  otherErrors := loadErrors host parsers parseZone ast
  sameKeys := compile_keys host ast

/-- Validate the file, then load its jobs one by one. -/
def Croniqfile.load (ast : Croniqfile) (now : Int) : Except LoadError LoadedConfig :=
  let file := ast.compiledFile host dayNumber parsers parseZone
  match loadErrors host parsers parseZone ast with
  | [] => loadJobs parsers parseZone file now file.jobs .empty
  | messages => .error (.validate messages)

end

end Config

end Croniq

import Croniq.CroniqfileParser
import Croniq.JobCompile
import Croniq.SyntaxSubstitution
import Croniq.VarsResolution
import Mathlib.Data.List.Chain
import Mathlib.Data.List.Find

/-!
# Compiling with placeholders and with their values

Replacing every placeholder of a file by a quoted literal of its value gives a
file with the same configuration, provided that the entries of the `vars` blocks
are in order and that no placeholder stands where the compiler reads the text of
the file itself.
-/

namespace Croniq.Config

open List NamedBlock TokenKind

/-! ## Settled values -/

section

variable (host : Host) (vars : Vars) (σ : String → String)

/-- A placeholder resolves to the value that replaces it. -/
def StringValue.Settled (value : StringValue) : Prop :=
  value.isPlaceholder = true → resolve host vars value.value = .ok (σ value.value)

structure Directive.Settled (directive : Directive) : Prop where
  plainKey : directive.key.isPlaceholder = false
  args : ∀ arg ∈ directive.args, arg.Settled host vars σ

inductive DirectiveOrBlock.Settled : DirectiveOrBlock → Prop
  | directive {directive : Directive} (settled : directive.Settled host vars σ) :
      Settled (.directive directive)
  | block {name : StringValue} {qualifier : Option StringValue}
      {directives : List DirectiveOrBlock} (plainName : name.isPlaceholder = false)
      (plainQualifier : ∀ value ∈ qualifier, value.isPlaceholder = false)
      (settled : ∀ item ∈ directives, Settled item) :
      Settled (.block name qualifier directives)
  | comment (text : String) : Settled (.comment text)

end

variable {host : Host} {vars : Vars} {σ : String → String} {value : StringValue}

theorem StringValue.substitute_of_plain
    (plain : value.isPlaceholder = false) : value.substitute σ = value := by
  simp [StringValue.substitute,plain]

variable {args : List StringValue}

theorem head?_substitute (plain : ∀ value ∈ args.head?, value.isPlaceholder = false) :
    (args.map (StringValue.substitute σ)).head? = args.head? := by
  cases args with
  | nil => rfl
  | cons arg => simp [StringValue.substitute_of_plain (plain arg rfl)]

theorem StringValue.Settled.resolveStr (settled : value.Settled host vars σ) (others : Vars) :
    resolveStr host others (value.substitute σ) = resolveStr host vars value := by
  cases isPlaceholder : value.isPlaceholder with
  | false => simp [Config.resolveStr,StringValue.substitute,isPlaceholder]
  | true => simp [Config.resolveStr,StringValue.substitute,isPlaceholder,settled isPlaceholder]

namespace Directive.Settled

variable {directive : Directive} (settled : directive.Settled host vars σ) (others : Vars)

include settled

theorem key : (directive.substitute σ).key = directive.key :=
  StringValue.substitute_of_plain settled.plainKey

theorem map_resolveStr : (directive.substitute σ).args.map (resolveStr host others) =
      directive.args.map (resolveStr host vars) := by
  rw [Directive.substitute,map_map]
  exact map_congr_left fun arg member => (settled.args arg member).resolveStr others

theorem firstArg :
    firstArg host others (directive.substitute σ) = firstArg host vars directive := by
  have mapped := congrArg head? (settled.map_resolveStr others)
  simpa only [Config.firstArg,head?_map] using mapped

theorem durationArg :
    durationArg host others (directive.substitute σ) = durationArg host vars directive := by
  rw [Config.durationArg,Config.durationArg,settled.firstArg others]
  congr 1
  funext first
  match written : directive.args with
  | [] | [_] | _ :: _ :: _ :: _ => simp [Directive.substitute,written]
  | [number,unit] =>
    have same : resolveStr host others (unit.substitute σ) = resolveStr host vars unit :=
      (settled.args unit (by simp [written])).resolveStr others
    simp [Directive.substitute,written,same]

end Directive.Settled

theorem foldl_map_of_same {α State : Type} {h : α → α} {items : List α} {f g : State → α → State}
    (same : ∀ state, ∀ item ∈ items, g state (h item) = f state item) (state : State) :
    (items.map h).foldl g state = items.foldl f state := by
  rw [foldl_map]
  exact foldl_ext _ _ _ same

theorem substituteAll_eq_map (σ : String → String) (items : List DirectiveOrBlock) :
    substituteAll σ items = items.map (DirectiveOrBlock.substitute σ) := by
  induction items with
  | nil => rfl
  | cons item items ih => rw [substituteAll,ih,map_cons]

theorem foldl_substituteAll {State : Type} {σ : String → String} {items : List DirectiveOrBlock}
    {f g : State → DirectiveOrBlock → State}
    (same : ∀ state, ∀ item ∈ items, g state (item.substitute σ) = f state item) (state : State) :
    (substituteAll σ items).foldl g state = items.foldl f state := by
  rw [substituteAll_eq_map]
  exact foldl_map_of_same same state

mutual

theorem DirectiveOrBlock.settled_of_values (item : DirectiveOrBlock)
    (resolves : ∀ value ∈ item.values, value.Settled host vars σ)
    (plain : ∀ value ∈ item.rawValues, value.isPlaceholder = false) : item.Settled host vars σ :=
  match item with
  | .directive directive =>
    .directive ⟨plain _ mem_cons_self,fun arg member => resolves arg (mem_cons_of_mem _ member)⟩
  | .block name qualifier directives => by
      simp only [DirectiveOrBlock.values,DirectiveOrBlock.rawValues,cons_append,
        mem_cons,mem_append,Option.mem_toList] at resolves plain
      exact .block (plain name (.inl rfl)) (fun value member => plain value (.inr (.inl member)))
        (settled_of_valuesOfAll directives
          (fun value member => resolves value (.inr (.inr member)))
          fun value member => plain value (.inr (.inr member)))
  | .comment text => .comment text

theorem settled_of_valuesOfAll (items : List DirectiveOrBlock)
    (resolves : ∀ value ∈ valuesOfAll items, value.Settled host vars σ)
    (plain : ∀ value ∈ rawValuesOfAll items, value.isPlaceholder = false) :
    ∀ item ∈ items, item.Settled host vars σ :=
  match items with
  | [] => by simp
  | first :: rest => by
      simp only [valuesOfAll,rawValuesOfAll,mem_append] at resolves plain
      intro item member
      rcases mem_cons.mp member with same | member
      · rw [same]
        exact first.settled_of_values (fun value member => resolves value (.inl member))
          fun value member => plain value (.inl member)
      · exact settled_of_valuesOfAll rest (fun value member => resolves value (.inr member))
          (fun value member => plain value (.inr member)) item member

end

/-! ## One directive at a time -/

/-- Two directives mean the same where no block is read. -/
structure SameDirective (host : Host) (vars others : Vars) (first second : Directive) : Prop where
  server : ∀ config, serverDirective host others config second =
    serverDirective host vars config first
  pullApi : ∀ config, pullApiDirective host others config second =
    pullApiDirective host vars config first
  oidc : ∀ config, oidcDirective host others config second = oidcDirective host vars config first
  smtp : ∀ config, smtpDirective host others config second = smtpDirective host vars config first
  option : ∀ draft, scheduleOption host others draft second = scheduleOption host vars draft first

section

variable {directive : Directive} (settled : directive.Settled host vars σ) (others : Vars)

include settled

theorem sameDirective_substitute :
    SameDirective host vars others directive (directive.substitute σ) := by
  constructor <;> intros <;> simp only [serverDirective,pullApiDirective,oidcDirective,
    smtpDirective,scheduleOption,settled.key,settled.firstArg others,settled.durationArg others]

theorem foldl_pushTag_substitute (tags : List String) :
    (directive.substitute σ).args.foldl (pushTag host others) tags =
      directive.args.foldl (pushTag host vars) tags := by
  refine foldl_map_of_same (fun tags arg member => ?_) tags
  simp only [pushTag,(settled.args arg member).resolveStr others]

theorem jobDirective_substitute (limits : String → Option Nat) (draft : JobDraft) :
    jobDirective host others limits draft (directive.substitute σ) =
      jobDirective host vars limits draft directive := by
  simp only [jobDirective,settled.key,settled.firstArg others,settled.durationArg others,
    foldl_pushTag_substitute settled others]

theorem mcpDirective_substitute
    (plain : ∀ value ∈ mcpRawValues directive, value.isPlaceholder = false) (config : McpConfig) :
    mcpDirective host others config (directive.substitute σ) =
      mcpDirective host vars config directive := by
  have flag : directive.key.value = "enabled" →
      (directive.substitute σ).args.head? = directive.args.head? := by
    intro enabled
    simp only [mcpRawValues,enabled,if_true] at plain
    exact head?_substitute fun value first => plain value (by simp_all)
  simp only [mcpDirective,settled.key,settled.map_resolveStr others]
  split
  · rw [flag ‹_›]
  · rfl
  · rfl

omit settled in
theorem policyDirective_substitute
    (plain : ∀ value ∈ policyRawValues directive, value.isPlaceholder = false)
    (config : PolicyConfig) :
    policyDirective config (directive.substitute σ) = policyDirective config directive := by
  have key : (directive.substitute σ).key = directive.key :=
    StringValue.substitute_of_plain (plain _ mem_cons_self)
  have flag : (directive.substitute σ).args.head? = directive.args.head? :=
    head?_substitute fun value first => plain value (by simp_all [policyRawValues])
  simp only [policyDirective,key,flag]

end

/-- Two items mean the same to what reads directives one by one. -/
structure SameReading (host : Host) (vars others : Vars) (first second : DirectiveOrBlock) :
    Prop where
  authFlag : ∀ key flag, authFlag host others key flag second = authFlag host vars key flag first
  log : ∀ config, logDirective host others config second = logDirective host vars config first
  metrics : ∀ config, metricsDirective host others config second =
    metricsDirective host vars config first
  rule : ∀ parts, ruleDirective host others parts second = ruleDirective host vars parts first
  runner : ∀ config, runnerDirective host others config second =
    runnerDirective host vars config first
  env : ∀ env, envEntry host others env second = envEntry host vars env first
  metadata : ∀ metadata, metadataEntry host others metadata second =
    metadataEntry host vars metadata first
  retry : ∀ config, retryDirective host others config second = retryDirective host vars config first
  deadLetter : ∀ config, deadLetterDirective host others config second =
    deadLetterDirective host vars config first

section

variable {item : DirectiveOrBlock} (settled : item.Settled host vars σ) (others : Vars)

include settled

theorem sameReading_substitute : SameReading host vars others item (item.substitute σ) := by
  cases settled with
  | directive settled =>
    constructor <;> intros <;> simp only [DirectiveOrBlock.substitute,Config.authFlag,logDirective,
      metricsDirective,ruleDirective,runnerDirective,envEntry,metadataEntry,retryDirective,
      deadLetterDirective,settled.key,settled.firstArg others,settled.durationArg others,
      settled.map_resolveStr others]
  | block | comment => constructor <;> intros <;> rfl

theorem channelDirective_substitute (parts : ChannelParts) :
    channelDirective host others parts (item.substitute σ) =
      channelDirective host vars parts item := by
  cases settled with
  | @directive directive settled =>
    simp only [DirectiveOrBlock.substitute,channelDirective,settled.key,
      settled.firstArg others,settled.durationArg others,settled.map_resolveStr others]
    split
    case h_3 =>
      match written : directive.args with
      | [] | [_] => simp [Directive.substitute,written]
      | scheme :: value :: _ =>
        have sameScheme := (settled.args scheme (by simp [written])).resolveStr others
        have sameValue := (settled.args value (by simp [written])).resolveStr others
        simp [Directive.substitute,written,sameScheme,sameValue]
    all_goals rfl
  | block | comment => rfl

theorem runnerExecDirective_substitute (parts : RunnerExecParts) :
    runnerExecDirective host others parts (item.substitute σ) =
      runnerExecDirective host vars parts item := by
  cases settled with
  | directive settled =>
    simp only [DirectiveOrBlock.substitute,runnerExecDirective,settled.key,
      settled.firstArg others,settled.map_resolveStr others]
  | block plainName _ settled =>
    have env := foldl_substituteAll (fun env item member =>
      (sameReading_substitute (settled item member) others).env env) parts.env
    simp only [DirectiveOrBlock.substitute,runnerExecDirective,
      StringValue.substitute_of_plain plainName,env]
  | comment => rfl

end

/-! ## One block at a time -/

/-- A block of a job: its qualifier is read as written. -/
structure NamedBlock.Plain (host : Host) (vars : Vars) (σ : String → String) (block : NamedBlock) :
    Prop where
  plainName : block.name.isPlaceholder = false
  plainQualifier : ∀ value ∈ block.qualifier, value.isPlaceholder = false
  directives : ∀ item ∈ block.directives, item.Settled host vars σ

/-- A block of the top level: its qualifier is resolved. -/
structure NamedBlock.Settled (host : Host) (vars : Vars) (σ : String → String)
    (block : NamedBlock) : Prop where
  plainName : block.name.isPlaceholder = false
  qualifier : ∀ value ∈ block.qualifier, value.Settled host vars σ
  directives : ∀ item ∈ block.directives, item.Settled host vars σ

namespace NamedBlock.Plain

variable {block : NamedBlock} (plain : block.Plain host vars σ) (others : Vars)

include plain

theorem name : (block.substitute σ).name = block.name :=
  StringValue.substitute_of_plain plain.plainName

theorem qualifier : (block.substitute σ).qualifier = block.qualifier := by
  have plainQualifier := plain.plainQualifier
  cases written : block.qualifier with
  | none => simp [substitute,written]
  | some value =>
    simp [substitute,written,StringValue.substitute_of_plain (plainQualifier value written)]

theorem compileRetryBlock (base : RetryConfig) :
    compileRetryBlock host others (block.substitute σ) base =
      compileRetryBlock host vars block base := by
  rw [Config.compileRetryBlock,plain.qualifier]
  exact foldl_substituteAll (fun config item member =>
    (sameReading_substitute (plain.directives item member) others).retry config) _

theorem compileDeadLetterBlock (base : DeadLetterConfig) :
    compileDeadLetterBlock host others (block.substitute σ) base =
      compileDeadLetterBlock host vars block base :=
  foldl_substituteAll (fun config item member =>
    (sameReading_substitute (plain.directives item member) others).deadLetter config) _

theorem compileRunnerBlock :
    compileRunnerBlock host others (block.substitute σ) = compileRunnerBlock host vars block :=
  foldl_substituteAll (fun config item member =>
    (sameReading_substitute (plain.directives item member) others).runner config) _

theorem compileRunnerExecBlock :
    compileRunnerExecBlock host others (block.substitute σ) =
      compileRunnerExecBlock host vars block := by
  have parts : (block.substitute σ).directives.foldl (runnerExecDirective host others) {} =
      block.directives.foldl (runnerExecDirective host vars) {} :=
    foldl_substituteAll (fun parts item member =>
      runnerExecDirective_substitute (plain.directives item member) others parts) _
  simp only [Config.compileRunnerExecBlock,plain.qualifier,parts]

theorem jobBlock (draft : JobDraft) :
    jobBlock host others draft (block.substitute σ) = jobBlock host vars draft block := by
  have metadata : (block.substitute σ).directives.foldl (metadataEntry host others)
      draft.metadata = block.directives.foldl (metadataEntry host vars) draft.metadata :=
    foldl_substituteAll (fun metadata item member =>
      (sameReading_substitute (plain.directives item member) others).metadata metadata) _
  simp only [Config.jobBlock,jobRunner,plain.name,plain.qualifier,
    plain.compileRunnerBlock others,plain.compileRunnerExecBlock others,
    plain.compileRetryBlock others,plain.compileDeadLetterBlock others,metadata]

end NamedBlock.Plain

theorem DirectiveOrBlock.Settled.plain {name : StringValue} {qualifier : Option StringValue}
    {directives : List DirectiveOrBlock}
    (settled : (DirectiveOrBlock.block name qualifier directives).Settled host vars σ) :
    (mk name qualifier directives).Plain host vars σ := by
  cases settled with
  | block plainName plainQualifier settled => exact ⟨plainName,plainQualifier,settled⟩

theorem defaultsDirective_substitute {item : DirectiveOrBlock}
    (settled : item.Settled host vars σ) (others : Vars) (defaults : JobDefaults) :
    defaultsDirective host others defaults (item.substitute σ) =
      defaultsDirective host vars defaults item := by
  cases item with
  | directive directive =>
    cases settled with
    | directive settled =>
      simp only [DirectiveOrBlock.substitute,defaultsDirective,settled.key,
        settled.firstArg others,settled.durationArg others]
  | block =>
    have plain := settled.plain
    have retry := plain.compileRetryBlock others defaults.retry
    have deadLetter := plain.compileDeadLetterBlock others defaults.deadLetter
    simp only [substitute,StringValue.substitute_of_plain plain.plainName] at retry deadLetter
    simp only [DirectiveOrBlock.substitute,defaultsDirective,retry,deadLetter,
      StringValue.substitute_of_plain plain.plainName]
  | comment => rfl

namespace NamedBlock.Settled

variable {block : NamedBlock} (settled : block.Settled host vars σ) (others : Vars)

include settled

theorem name : (block.substitute σ).name = block.name :=
  StringValue.substitute_of_plain settled.plainName

theorem foldl_directives {State : Type} {f g : State → DirectiveOrBlock → State}
    (same : ∀ state item, item.Settled host vars σ → g state (item.substitute σ) = f state item)
    (state : State) :
    (block.substitute σ).directives.foldl g state = block.directives.foldl f state :=
  foldl_substituteAll (fun state item member =>
    same state item (settled.directives item member)) state

theorem observabilityBlock (config : ObservabilityConfig) :
    observabilityBlock host others config (block.substitute σ) =
      observabilityBlock host vars config block := by
  simp only [Config.observabilityBlock,settled.name,
    settled.foldl_directives fun config _ settled =>
      (sameReading_substitute settled others).log config,
    settled.foldl_directives fun config _ settled =>
      (sameReading_substitute settled others).metrics config]

theorem authBlock (config : AuthDslConfig) :
    authBlock host others config (block.substitute σ) = authBlock host vars config block := by
  simp only [Config.authBlock,settled.name,
    settled.foldl_directives fun flag _ settled =>
      (sameReading_substitute settled others).authFlag "enabled" flag,
    settled.foldl_directives fun flag _ settled =>
      (sameReading_substitute settled others).authFlag "required" flag]

theorem alertsBlock (config : AlertsConfig) :
    alertsBlock host others config (block.substitute σ) = alertsBlock host vars config block := by
  have qualifier : (block.substitute σ).qualifier.map (resolveStr host others) =
      block.qualifier.map (resolveStr host vars) := by
    have settledQualifier := settled.qualifier
    cases written : block.qualifier with
    | none => simp [substitute,written]
    | some value => simp [substitute,written,(settledQualifier value written).resolveStr others]
  simp only [Config.alertsBlock,settled.name,qualifier,compileChannelKind,compileRule,
    settled.foldl_directives fun parts _ settled =>
      channelDirective_substitute settled others parts,
    settled.foldl_directives fun parts _ settled =>
      (sameReading_substitute settled others).rule parts]

end NamedBlock.Settled

/-! ## One item at a time -/

/-- The values of an item are settled; those read as written are no placeholders. -/
structure Item.Settled (host : Host) (vars : Vars) (σ : String → String) (item : Item) : Prop where
  resolves : ∀ value ∈ item.values, value.Settled host vars σ
  plain : ∀ value ∈ item.rawValues, value.isPlaceholder = false

/-- The rule accepts the values of its placeholders. -/
def CalendarRule.Accepts (host : Host) (σ : String → String) (rule : CalendarRule) : Prop :=
  rule.args.any StringValue.isPlaceholder = true →
    ruleArgsValid host rule.ruleType.value (rule.args.map (StringValue.meaning σ)) = true

variable {directives : List Directive} {blocks : List NamedBlock} {State : Type} {ast : Croniqfile}
  {state state' : CompileState} {token : TokenKind} {tokens : List TokenKind}

section

variable (resolves : ∀ value ∈ directives.flatMap Directive.values, value.Settled host vars σ)
  (plain : ∀ directive ∈ directives, directive.key.isPlaceholder = false)
include resolves plain

theorem Directive.settled_of_mem (directive : Directive) (member : directive ∈ directives) :
    directive.Settled host vars σ :=
  ⟨plain directive member,fun arg argMember =>
    resolves arg (mem_flatMap.mpr ⟨directive,member,mem_cons_of_mem _ argMember⟩)⟩

theorem Directive.foldl_substitute {f g : State → Directive → State}
    (same : ∀ state, ∀ directive ∈ directives, directive.Settled host vars σ →
      g state (directive.substitute σ) = f state directive) (state : State) :
    (directives.map (Directive.substitute σ)).foldl g state = directives.foldl f state :=
  foldl_map_of_same (fun state directive member =>
    same state directive member (Directive.settled_of_mem resolves plain directive member)) state

end

theorem NamedBlock.foldl_substitute {f g : State → NamedBlock → State}
    (resolves : ∀ value ∈ blocks.flatMap values, value.Settled host vars σ)
    (plain : ∀ value ∈ blocks.flatMap rawValues, value.isPlaceholder = false)
    (same : ∀ state block, block.Settled host vars σ →
      g state (block.substitute σ) = f state block) (state : State) :
    (blocks.map (substitute σ)).foldl g state = blocks.foldl f state := by
  refine foldl_map_of_same (fun state block member => same state block ?_) state
  have resolvesBlock := forall_mem_flatMap.mp resolves block member
  have plainBlock := forall_mem_flatMap.mp plain block member
  simp only [values,rawValues,cons_append,mem_cons,
    mem_append,Option.mem_toList] at resolvesBlock plainBlock
  exact ⟨plainBlock _ (.inl rfl),fun value member => resolvesBlock value (.inr (.inl member)),
    settled_of_valuesOfAll _ (fun value member => resolvesBlock value (.inr (.inr member)))
      fun value member => plainBlock value (.inr member)⟩

theorem compileJob_substitute {job : JobBlock} (settled : (Item.job job).Settled host vars σ)
    (others : Vars) (limits : String → Option Nat) (defaults : JobDefaults) :
    compileJob host others limits defaults (job.substitute σ) =
      compileJob host vars limits defaults job := by
  obtain ⟨resolves,plain⟩ := settled
  simp only [Item.values,Item.rawValues,JobBlock.values,JobBlock.rawValues,mem_append]
    at resolves plain
  have body (draft : JobDraft) :
      (substituteAll σ job.directives).foldl (jobDirectiveOrBlock host others limits) draft =
        job.directives.foldl (jobDirectiveOrBlock host vars limits) draft := by
    have settled := settled_of_valuesOfAll job.directives
      (fun value member => resolves value (.inr member)) fun value member =>
        plain value (.inr member)
    refine foldl_substituteAll (fun draft item member => ?_) draft
    have settled := settled item member
    cases item with
    | directive directive =>
      cases settled with
      | directive settled => exact jobDirective_substitute settled others limits draft
    | block => exact settled.plain.jobBlock others draft
    | comment => rfl
  cases written : job.schedule with
  | none => simp [compileJob,JobBlock.substitute,written,body]
  | some node =>
    simp only [written,Option.toList_some,flatMap_singleton,ScheduleNode.values,
      mem_append] at resolves plain
    have kind : node.kind.substitute σ = node.kind := by
      cases known : node.kind with
      | once instant =>
        have plainInstant := plain instant (.inl (.inl (by simp [known,ScheduleKind.values])))
        simp [ScheduleKind.substitute,StringValue.substitute_of_plain plainInstant]
      | _ => rfl
    have options (draft : JobDraft) :
        (node.options.map (Directive.substitute σ)).foldl (scheduleOption host others) draft =
          node.options.foldl (scheduleOption host vars) draft := by
      refine Directive.foldl_substitute (fun value member => resolves value (.inl (.inr member)))
        (fun directive member => ?_) (fun draft directive _ settled =>
          (sameDirective_substitute settled others).option draft) draft
      exact plain directive.key (.inl (.inr (mem_map.mpr ⟨directive,member,rfl⟩)))
    simp [compileJob,JobBlock.substitute,ScheduleNode.substitute,written,body,kind,options]

theorem map_resolveStr_eq_map_meaning (settled : ∀ arg ∈ args, arg.Settled host vars σ) :
    args.map (resolveStr host vars) = args.map (StringValue.meaning σ) := by
  refine map_congr_left fun arg member => ?_
  cases isPlaceholder : arg.isPlaceholder with
  | false => simp [resolveStr,StringValue.meaning,isPlaceholder]
  | true => simp [resolveStr,StringValue.meaning,isPlaceholder,settled arg member isPlaceholder]

theorem calendarRule_substitute {rule : CalendarRule}
    (settled : ∀ arg ∈ rule.args, arg.Settled host vars σ)
    (plainType : rule.ruleType.isPlaceholder = false) (accepts : rule.Accepts host σ)
    (others : Vars) (config : CalendarConfig) :
    calendarRule host others config (rule.substitute σ) = calendarRule host vars config rule := by
  have args : (rule.args.map (StringValue.substitute σ)).map (resolveStr host others) =
      rule.args.map (resolveStr host vars) := by
    rw [map_map]
    exact map_congr_left fun arg member => (settled arg member).resolveStr others
  have unmasked : ¬ (rule.args.any StringValue.isPlaceholder = true ∧
      ruleArgsValid host rule.ruleType.value (rule.args.map (resolveStr host vars)) = false) := by
    rintro ⟨hasPlaceholder,invalid⟩
    rw [map_resolveStr_eq_map_meaning settled,accepts hasPlaceholder] at invalid
    exact absurd invalid (by decide)
  have noPlaceholder :
      (rule.args.map (StringValue.substitute σ)).any StringValue.isPlaceholder = false := by
    simp only [any_map,any_eq_false,Function.comp_apply,StringValue.substitute]
    intro arg _
    split <;> simp_all
  have head : (rule.args.map (StringValue.substitute σ)).head?.map (resolveStr host others) =
      rule.args.head?.map (resolveStr host vars) := by
    simpa only [head?_map] using congrArg head? args
  simp only [calendarRule,compileCalendarRule,CalendarRule.substitute,
    StringValue.substitute_of_plain plainType,head,args,noPlaceholder,if_neg unmasked]
  simp

theorem concurrencyGroup_substitute {item : Item} (settled : item.Settled host vars σ)
    (others : Vars) (groups : List ConcurrencyGroupConfig) :
    concurrencyGroup host others groups (item.substitute σ) =
      concurrencyGroup host vars groups item := by
  cases item with
  | concurrencyGroup block =>
    obtain ⟨resolves,plain⟩ := settled
    simp only [Item.values,Item.rawValues,mem_cons] at resolves plain
    have each := Directive.settled_of_mem (fun value member => resolves value (.inr member))
      fun directive member => plain _ (mem_map.mpr ⟨directive,member,rfl⟩)
    have name := (resolves block.name (.inl rfl)).resolveStr others
    have found : ((block.directives.map (Directive.substitute σ)).find?
          (·.key.value = "max_concurrent")).bind (fun directive =>
            ((firstArg host others directive).bind parseU32).filter (0 < ·)) =
        (block.directives.find? (·.key.value = "max_concurrent")).bind fun directive =>
            ((firstArg host vars directive).bind parseU32).filter (0 < ·) := by
      have same : block.directives.find?
            ((fun directive => decide (directive.key.value = "max_concurrent")) ∘
              Directive.substitute σ) =
          block.directives.find? (·.key.value = "max_concurrent") :=
        find?_congr fun directive member => by simp [(each directive member).key]
      rw [find?_map,same]
      cases first : block.directives.find? (·.key.value = "max_concurrent") with
      | none => rfl
      | some directive =>
        have member := mem_of_find?_eq_some first
        simp [(each directive member).firstArg others]
    simp only [Item.substitute,concurrencyGroup,ConcurrencyGroupBlock.substitute,name,found]
  | _ => rfl

theorem compileItem_substitute {item : Item} (settled : item.Settled host vars σ)
    (accepts : ∀ rule ∈ item.calendarRules, rule.Accepts host σ) (others : Vars)
    (limits : String → Option Nat) (state : CompileState) :
    compileItem host others limits state (item.substitute σ) =
      compileItem host vars limits state item := by
  cases item with
  | importFile | comment | vars | concurrencyGroup => rfl
  | server | smtp | pullApi | oidc =>
    have plain := by simpa [Item.rawValues] using settled.plain
    simp only [Item.substitute,compileItem,
      Directive.foldl_substitute settled.resolves plain fun config _ _ settled =>
        (sameDirective_substitute settled others).server config,
      Directive.foldl_substitute settled.resolves plain fun config _ _ settled =>
        (sameDirective_substitute settled others).smtp config,
      Directive.foldl_substitute settled.resolves plain fun config _ _ settled =>
        (sameDirective_substitute settled others).pullApi config,
      Directive.foldl_substitute settled.resolves plain fun config _ _ settled =>
        (sameDirective_substitute settled others).oidc config]
  | mcp written =>
    have plain := forall_mem_flatMap.mp settled.plain
    simp only [Item.substitute,compileItem,Directive.foldl_substitute settled.resolves
      (fun directive member => plain directive member _ mem_cons_self)
      fun config directive member settled =>
        mcpDirective_substitute settled others (plain directive member) config]
  | policy written =>
    have plain := forall_mem_flatMap.mp settled.plain
    simp only [Item.substitute,compileItem,Directive.foldl_substitute settled.resolves
      (fun directive member => plain directive member _ mem_cons_self)
      fun config directive member _ => policyDirective_substitute (plain directive member) config]
  | observability | auth | alerts =>
    simp only [Item.substitute,compileItem,compileAlerts,
      foldl_substitute settled.resolves settled.plain fun config _ settled =>
        settled.observabilityBlock others config,
      foldl_substitute settled.resolves settled.plain fun config _ settled =>
        settled.authBlock others config,
      foldl_substitute settled.resolves settled.plain fun config _ settled =>
        settled.alertsBlock others config]
  | defaults written =>
    have each := settled_of_valuesOfAll written settled.resolves settled.plain
    simp only [Item.substitute,compileItem,foldl_substituteAll fun defaults item member =>
      defaultsDirective_substitute (each item member) others defaults]
  | job => simp only [Item.substitute,compileItem,compileJob_substitute settled others]
  | calendar block =>
    obtain ⟨resolves,plain⟩ := settled
    simp only [Item.values,Item.rawValues,mem_cons,mem_flatMap,mem_map] at resolves plain
    have name := StringValue.substitute_of_plain (σ := σ) (plain block.name (.inl rfl))
    have rules (config : CalendarConfig) :
        (block.rules.map (CalendarRule.substitute σ)).foldl (calendarRule host others) config =
          block.rules.foldl (calendarRule host vars) config :=
      foldl_map_of_same (fun config rule member => calendarRule_substitute
        (fun arg argMember => resolves arg
          (.inr ⟨rule,member,mem_cons_of_mem _ argMember⟩))
        (plain _ (.inr ⟨rule,member,rfl⟩)) (accepts rule member) others config) config
    simp only [Item.substitute,compileItem,compileCalendar,CalendarBlock.substitute,name,rules]

/-! ## The whole file -/

theorem mem_values_of_mem_bindings {binding : Binding}
    (member : binding ∈ ast.bindings) : binding.value ∈ ast.values := by
  obtain ⟨entry,inEntries,bound⟩ := mem_filterMap.mp member
  obtain ⟨value,first,rfl⟩ := Option.map_eq_some_iff.mp bound
  obtain ⟨item,inFile,inItem⟩ := mem_flatMap.mp inEntries
  cases item with
  | vars =>
    have inEntry : value ∈ entry.values := mem_cons_of_mem _ (mem_of_head? first)
    exact mem_flatMap.mpr ⟨_,inFile,mem_flatMap.mpr ⟨entry,inItem,inEntry⟩⟩
  | _ => simp at inItem

/-- The state without its calendars, which no block reads. -/
def CompileState.withoutCalendars (state : CompileState) : CompileState :=
  { state with calendars := [] }

theorem compileItem_withoutCalendars (host : Host) (vars : Vars) (limits : String → Option Nat)
    (state : CompileState) {item : Item} (other : ∀ block, item ≠ .calendar block) :
    (compileItem host vars limits state.withoutCalendars item).withoutCalendars =
      (compileItem host vars limits state item).withoutCalendars := by
  cases item with
  | calendar block => exact absurd rfl (other block)
  | _ => rfl

theorem foldl_compileItem_withoutCalendars {items : List Item}
    (settled : ∀ item ∈ items, item.Settled host vars σ) (others : Vars)
    (limits : String → Option Nat) (same : state'.withoutCalendars = state.withoutCalendars) :
    ((items.map (Item.substitute σ)).foldl (compileItem host others limits)
        state').withoutCalendars =
      (items.foldl (compileItem host vars limits) state).withoutCalendars := by
  induction items generalizing state state' with
  | nil => exact same
  | cons item items ih =>
    obtain ⟨settledItem,rest⟩ := forall_mem_cons.mp settled
    refine ih rest ?_
    cases item with
    | calendar => exact same
    | _ =>
      rw [compileItem_substitute settledItem (by simp [Item.calendarRules]),
        ← compileItem_withoutCalendars _ _ _ state' (by simp),same,
        compileItem_withoutCalendars _ _ _ state (by simp)]

/-! ## The tokens of a directive -/

def TokenKind.substitute (σ : String → String) : TokenKind → TokenKind
  | .placeholder text => .quotedString (σ text)
  | token => token

def TokenKind.isPlaceholder : TokenKind → Bool
  | .placeholder _ => true
  | _ => false

def RangesPlain (tokens : List TokenKind) : Prop :=
  tokens.IsChain fun first second =>
    (first.isPlaceholder = true → second ≠ .dotDot) ∧
      (first = .dotDot → second.isPlaceholder = false)

theorem value_substitute (σ : String → String) (token : TokenKind) :
    (token.substitute σ).value? = token.value?.map (StringValue.substitute σ) := by
  cases token <;> rfl

theorem display_substitute (noValue : token.value? = none) :
    (token.substitute σ).display = token.display := by
  cases token <;> simp_all [TokenKind.substitute,TokenKind.value?]

theorem isPlaceholder_of_value
    (isValue : token.value? = some value) : value.isPlaceholder = token.isPlaceholder := by
  cases token <;> simp_all [value?,isPlaceholder] <;> simp [← isValue]

theorem substitute_eq_dotDot : token.substitute σ = .dotDot ↔ token = .dotDot := by
  cases token <;> simp [TokenKind.substitute]

theorem parseArgs_substitute (plain : RangesPlain tokens) : parseArgs (tokens.map (substitute σ)) =
      (parseArgs tokens).map fun (args, rest) =>
        (args.map (StringValue.substitute σ), rest.map (substitute σ)) := by
  have dots : dotDot.substitute σ = .dotDot := rfl
  fun_induction parseArgs tokens with
  | case1 => rfl
  | case2 token rest noValue => simp [parseArgs,value_substitute,noValue,Except.map]
  | case3 token first isValue => simp [parseArgs,value_substitute,isValue,dots,Except.map]
  | case4 token first isValue next rest noValue =>
    simp [parseArgs,value_substitute,isValue,dots,Except.map,noValue,display_substitute noValue]
  | case5 token first isValue next rest second isSecond ih =>
    obtain ⟨⟨plainFirst,-⟩,⟨⟨-,plainSecond⟩,plainRest⟩⟩ : _ ∧ _ ∧ RangesPlain (next :: rest) := by
      simpa only [RangesPlain,isChain_cons_cons] using plain
    have keptFirst : first.substitute σ = first := by
      refine StringValue.substitute_of_plain ?_
      simpa [isPlaceholder_of_value isValue] using plainFirst
    have keptSecond : second.substitute σ = second := by
      refine StringValue.substitute_of_plain ?_
      simpa [isPlaceholder_of_value isSecond] using plainSecond
    have keptRange : (first.to second).substitute σ = first.to second := by
      refine StringValue.substitute_of_plain ?_
      simpa [StringValue.to,isPlaceholder_of_value isValue] using plainFirst
    rw [map_cons,map_cons,map_cons,dots,
      parseArgs_range (by rw [value_substitute,isValue]; rfl)
        (by rw [value_substitute,isSecond]; rfl),ih plainRest.tail]
    cases parseArgs rest <;> simp [Except.map,keptFirst,keptSecond,keptRange]
  | case6 token first isValue rest noSingle noRange ih =>
    have noDots : rest.head? ≠ some .dotDot := by
      rcases rest with _ | ⟨next,_ | ⟨after,rest⟩⟩
      · simp
      · simpa using noSingle
      · intro starts
        exact noRange after rest (by simpa using starts)
    have noDotsAfter : (rest.map (TokenKind.substitute σ)).head? ≠ some .dotDot := by
      cases rest <;> simp_all [substitute_eq_dotDot]
    rw [map_cons,parseArgs_value (by rw [value_substitute,isValue]; rfl) noDotsAfter,ih plain.tail]
    cases parseArgs rest <;> simp [Except.map]

theorem parseDirective_substitute (plain : RangesPlain tokens) :
    parseDirective (tokens.map (substitute σ)) =
      (parseDirective tokens).map fun (directive, rest) =>
        (directive.substitute σ, rest.map (substitute σ)) := by
  have terminators : isTerminator ∘ substitute σ = isTerminator := by
    funext token
    cases token <;> rfl
  cases tokens with
  | nil => rfl
  | cons token rest =>
    have args := parseArgs_substitute (σ := σ) plain.tail
    simp only [tail_cons] at args
    cases isValue : token.value? with
    | none =>
      simp [parseDirective,readStringValue,value_substitute,isValue,displayNext,
        display_substitute isValue,bind,Except.bind,Except.map]
    | some =>
      cases read : parseArgs rest <;>
        simp [parseDirective,readStringValue,value_substitute,isValue,args,read,bind,
          Except.bind,Except.map,pure,Except.pure,Directive.substitute,dropWhile_map,terminators]

/-- A file whose placeholders all have a value compiles like the file with these values written
out, when its `vars` entries are in order and no placeholder stands where the text is read as it
is; calendar rules have to accept the values.  A placeholder that is not an end of a range reaches
the syntax tree as one. -/
theorem compile_eq_compile_substitute (host : Host) (ast : Croniqfile) (σ : String → String)
    (resolves : ∀ value ∈ ast.values, value.isPlaceholder = true →
      Denotes host ast.bindings value.value (σ value.value))
    (ordered : VarsOrdered ast.bindings)
    (plain : ∀ value ∈ ast.rawValues, value.isPlaceholder = false) :
    ({ compile host ast with calendars := [] } =
        { compile host (ast.substitute σ) with calendars := [] } ∧
      ((∀ rule ∈ ast.calendarRules, rule.Accepts host σ) →
        compile host ast = compile host (ast.substitute σ))) ∧
      ∀ tokens, RangesPlain tokens →
        parseDirective (tokens.map (substitute σ)) =
          (parseDirective tokens).map fun (directive, rest) =>
            (directive.substitute σ, rest.map (substitute σ)) := by
  have entries : EntriesDenote host σ ast.bindings := fun binding member =>
    resolves binding.value (mem_values_of_mem_bindings member)
  have settled : ∀ item ∈ ast.items, item.Settled host (collectVars host ast) σ := by
    intro item inFile
    refine ⟨fun value inItem isPlaceholder => ?_,forall_mem_flatMap.mp plain item inFile⟩
    have denotes := forall_mem_flatMap.mp resolves item inFile value inItem isPlaceholder
    refine denotes.resolve_eq entries fun name _ => ?_
    rw [collectVars_eq_recorded ordered entries,recorded_apply]
  have groups : collectConcurrencyGroups host (collectVars host (ast.substitute σ))
      (ast.substitute σ) = collectConcurrencyGroups host (collectVars host ast) ast :=
    foldl_map_of_same (fun groups item member =>
      concurrencyGroup_substitute (settled item member) _ groups) []
  refine ⟨⟨?_,fun accepts => ?_⟩,fun tokens => parseDirective_substitute⟩
  · have items := foldl_compileItem_withoutCalendars settled (collectVars host (ast.substitute σ))
      (groupLimits (collectConcurrencyGroups host (collectVars host ast) ast))
      (rfl : ({} : CompileState).withoutCalendars = ({} : CompileState).withoutCalendars)
    have configs := congrArg (fun state => CompileState.config state
      (collectConcurrencyGroups host (collectVars host ast) ast)) items
    rw [compile,compile,groups]
    exact configs.symm
  · rw [compile,compile,groups]
    congr 1
    refine (foldl_map_of_same (fun state item member => compileItem_substitute
      (settled item member) (fun rule inItem => ?_) _ _ state) _).symm
    exact accepts rule (mem_flatMap.mpr ⟨item,member,inItem⟩)

def portHost : Host :=
  { quietHost with lookup := fun name => if name = "PORT" then some ":80" else none }

/-- A listening address that is looked up in a `vars` block. -/
def addressFile (entries : List Directive) : Croniqfile where
  items := [.vars entries,.server [⟨wordOf "listen",[placeholderOf "vars.address"]⟩]]

theorem listen_addressFile (host : Host) (entries : List Directive) (σ : String → String) :
    (compile host (addressFile entries)).server.listen =
        resolveStr host (collectVars host (addressFile entries)) (placeholderOf "vars.address") ∧
      (compile host ((addressFile entries).substitute σ)).server.listen = σ "vars.address" := by
  constructor
  · simp [compile,CompileState.config,addressFile,compileItem,serverDirective,firstArg,wordOf]
  · simp [compile,CompileState.config,addressFile,compileItem,serverDirective,firstArg,wordOf,
      placeholderOf,Croniqfile.substitute,Item.substitute,Directive.substitute,
      StringValue.substitute,resolveStr]

def portEntry : Directive := ⟨wordOf "port",[placeholderOf "env.PORT"]⟩

def addressEntry : Directive := ⟨wordOf "address",[placeholderOf "vars.port"]⟩

theorem denotes_addressFile {entries : List Directive}
    (order : entries = [portEntry,addressEntry] ∨ entries = [addressEntry,portEntry]) :
    ∀ value ∈ (addressFile entries).values, value.isPlaceholder = true →
      Denotes portHost (addressFile entries).bindings value.value ":80" := by
  have named : lastBinding (addressFile entries).bindings "port" = some (placeholderOf "env.PORT") ∧
      lastBinding (addressFile entries).bindings "address" = some (placeholderOf "vars.port") ∧
      ∀ value ∈ (addressFile entries).values, value.isPlaceholder = true →
        value = placeholderOf "env.PORT" ∨ value = placeholderOf "vars.port" ∨
          value = placeholderOf "vars.address" := by
    rcases order with rfl | rfl <;> decide
  obtain ⟨portBound,addressBound,known⟩ := named
  have port : Denotes portHost (addressFile entries).bindings "env.PORT" ":80" := .outside rfl
  have address : Denotes portHost (addressFile entries).bindings ("vars." ++ "port") ":80" :=
    .chained portBound rfl port
  have listen : Denotes portHost (addressFile entries).bindings ("vars." ++ "address") ":80" :=
    .chained addressBound rfl address
  intro value member isPlaceholder
  rcases known value member isPlaceholder with rfl | rfl | rfl
  · exact port
  · exact address
  · exact listen

theorem compile_eq_compile_substitute_port :
    (compile portHost (addressFile [portEntry,addressEntry])).server.listen = ":80" := by
  have same := (compile_eq_compile_substitute portHost (addressFile [portEntry,addressEntry])
    (fun _ => ":80") (denotes_addressFile (.inl rfl))
    (by simp [VarsOrdered,addressFile,Croniqfile.bindings,Croniqfile.varsEntries,portEntry,
      addressEntry,wordOf,placeholderOf])
    (by decide)).1.2 (by simp [Croniqfile.calendarRules,addressFile,Item.calendarRules])
  rw [same]
  exact (listen_addressFile _ _ _).2

def officeFile : Croniqfile where
  items := [.calendar ⟨wordOf "office",[⟨.include,wordOf "weekly",[placeholderOf "env.PORT"]⟩]⟩]

/-- A variable defined before the one it reads keeps its own text, a calendar shows a placeholder
whose value is no weekday, and the end of a range loses its braces. -/
theorem compile_ne_compile_substitute :
    ((∀ value ∈ (addressFile [addressEntry,portEntry]).values, value.isPlaceholder = true →
        Denotes portHost (addressFile [addressEntry,portEntry]).bindings value.value ":80") ∧
      compile portHost (addressFile [addressEntry,portEntry]) ≠
        compile portHost ((addressFile [addressEntry,portEntry]).substitute fun _ => ":80")) ∧
    ((∀ value ∈ officeFile.values, value.isPlaceholder = true →
        Denotes portHost officeFile.bindings value.value ":80") ∧
      compile portHost officeFile ≠ compile portHost (officeFile.substitute fun _ => ":80")) ∧
    parseDirective [.ident "window",.ident "02:00",.dotDot,.placeholder "env.PORT"] =
      .ok (⟨wordOf "window",[wordOf "02:00..env.PORT"]⟩, []) := by
  refine ⟨⟨denotes_addressFile (.inr rfl),fun same => ?_⟩,⟨?_,fun same => ?_⟩,by decide⟩
  · have entry : collectVars portHost (addressFile [addressEntry,portEntry]) "address" =
        some "vars.port" := by
      simp [collectVars,Croniqfile.varsEntries,addressFile,addressEntry,portEntry,
        collectLiteral,collectPlaceholder,wordOf,placeholderOf,resolveStr,resolve,dropPrefix?,
        portHost,Function.update]
    have resolved : resolve portHost (collectVars portHost (addressFile [addressEntry,portEntry]))
        "vars.address" = .ok "vars.port" :=
      (resolve_vars portHost _ "address").trans (by rw [entry])
    have listens := congrArg (fun config => config.server.listen) same
    rw [(listen_addressFile _ _ fun _ => ":80").1,(listen_addressFile _ _ _).2] at listens
    simp [resolveStr,placeholderOf,resolved] at listens
  · intro value member isPlaceholder
    have known : value = placeholderOf "env.PORT" := by
      revert isPlaceholder value
      decide
    rw [known]
    exact .outside rfl
  · have noWeekday : ruleArgsValid portHost "weekly" [":80"] = false := by decide
    have port (vars : Vars) : resolve portHost vars "env.PORT" = .ok ":80" := rfl
    have calendars := congrArg (fun config => config.calendars) same
    simp [compile,CompileState.config,officeFile,compileItem,compileCalendar,calendarRule,
      compileCalendarRule,resolveStr,wordOf,placeholderOf,Croniqfile.substitute,Item.substitute,
      CalendarBlock.substitute,CalendarRule.substitute,StringValue.substitute,port,noWeekday]
      at calendars

end Croniq.Config

import Croniq.BlockDirectives

/-!
# The fields of a compiled job

A job is compiled by a fold over its directives and then over the options of its
schedule.
-/

namespace Croniq.Config

open JobDraft List Prod

variable {Value : Type} {directives : List Directive} {keys : List String}

/-- A field that every part of a list may overwrite holds what the last part to write it has
written. -/
theorem get_foldl_eq_lastWrite {State Part : Type} {step : State → Part → State}
    {get : State → Value} {write : Part → Option Value} {parts : List Part}
    (writes : ∀ part ∈ parts, ∀ state, get (step state part) = (write part).getD (get state))
    (state : State) :
    get (parts.foldl step state) = (parts.reverse.findSome? write).getD (get state) := by
  induction parts generalizing state with
  | nil => rfl
  | cons part parts ih =>
    obtain ⟨writesPart,rest⟩ := forall_mem_cons.mp writes
    rw [foldl_cons,ih rest,writesPart,reverse_cons,findSome?_append]
    cases parts.reverse.findSome? write with
    | some => rfl
    | none => cases written : write part <;> simp [written]

def lastWritten {Value : Type} (write : Directive → Option Value) (directives : List Directive) :
    Option Value :=
  directives.reverse.findSome? write

def onKey {Value : Type} (key : String) (value : Directive → Value) (directive : Directive) :
    Option Value :=
  if directive.key.value = key then some (value directive) else none

theorem lastWritten_eq_some {write : Directive → Option Value} {value : Value}
    (written : lastWritten write directives = some value) :
    ∃ directive ∈ directives, write directive = some value := by
  obtain ⟨directive,member,writes⟩ := exists_of_findSome?_eq_some written
  exact ⟨directive,mem_reverse.mp member,writes⟩

theorem lastWritten_append (write : Directive → Option Value) (first second : List Directive) :
    lastWritten write (first ++ second) =
      (lastWritten write second).or (lastWritten write first) := by
  rw [lastWritten,reverse_append,findSome?_append]
  rfl

variable {directive : Directive}

theorem onKey_eq_some {key : String} {read : Directive → Value} {value : Value} :
    onKey key read directive = some value ↔ directive.key.value = key ∧ read directive = value := by
  unfold onKey
  split <;> simp [*]

def JobDraft.withoutBlocks (draft : JobDraft) : JobDraft :=
  { draft with runner := {}, retry := {}, deadLetter := {}, metadata := fun _ => none }

def JobDraft.withoutOptions (draft : JobDraft) : JobDraft :=
  { draft with timezone := none, calendar := none, notBefore := none, notAfter := none }

theorem JobDraft.get_elim {Field : Type} (get : JobDraft → Field) {value : Option Value}
    {draft : JobDraft} {change : Value → JobDraft} (kept : ∀ v, get (change v) = get draft) :
    get (value.elim draft change) = get draft := by
  cases value with
  | none => rfl
  | some v => exact kept v

section Fields

variable {host : Host} {vars : Vars} {limits : String → Option Nat}

def JobDraft.bounds (draft : JobDraft) : Option String × Option String :=
  (draft.notBefore, draft.notAfter)

/-- Whether triggers fold, and scheduled fires as well. -/
def JobDraft.folding (draft : JobDraft) : Bool × Bool :=
  (draft.coalesce, draft.coalesceSchedule)

variable (host vars) in
def modeWrite (directive : Directive) : Option ExecutionMode :=
  if directive.key.value = "execution_mode" then
    (firstArg host vars directive).bind ExecutionMode.parse
  else none

variable (host vars) in
/-- The limit a `singleton` or `max_concurrent` declares. -/
def declaredLimit (directive : Directive) : Option Nat :=
  if directive.key.value = "singleton" then some 1
  else (firstArg host vars directive).bind parseU32

/-- What plain directives decide, or leave. -/
structure Decided where
  metadata : String → Option String
  bounds : Option String × Option String
  window : Option String
  executionMode : ExecutionMode
  maxConcurrent : Option Nat
  concurrencyGroup : Option String
  folding : Bool × Bool

def JobDraft.decided (draft : JobDraft) : Decided where
  metadata := draft.metadata
  bounds := draft.bounds
  window := draft.window
  executionMode := draft.executionMode
  maxConcurrent := draft.maxConcurrent
  concurrencyGroup := draft.concurrencyGroup
  folding := draft.folding

theorem decided_jobDirective (draft : JobDraft) (directive : Directive) :
    (jobDirective host vars limits draft directive).decided =
      { draft.decided with
        window := (onKey "window" (firstArg host vars) directive).getD draft.window
        executionMode := (modeWrite host vars directive).getD draft.executionMode
        maxConcurrent := (if directive.key.value ∈ ["singleton","max_concurrent"] then
          some ((declaredLimit host vars directive).filter (0 < ·)) else none).getD
            draft.maxConcurrent
        concurrencyGroup := (if directive.key.value ∈ ["concurrency_group"] then
          some ((firstArg host vars directive).filter fun name => (limits name).isSome)
          else none).getD draft.concurrencyGroup
        folding := (if directive.key.value ∈ ["coalesce"] then
          some (true, decide (firstArg host vars directive = some "schedule"))
          else none).getD draft.folding } := by
  unfold jobDirective modeWrite onKey declaredLimit
  split
  case h_17 => simp_all [decided]
  all_goals rename_i written; simp only [written]
  case h_5 => cases (firstArg host vars directive).bind ExecutionMode.parse <;> rfl
  all_goals first
    | rfl
    | exact get_elim decided fun _ => rfl

theorem withoutBlocks_jobBlock (draft : JobDraft) (block : NamedBlock) :
    (jobBlock host vars draft block).withoutBlocks = draft.withoutBlocks := by
  unfold jobBlock
  split
  · unfold jobRunner
    split
    all_goals first
      | rfl
      | exact get_elim withoutBlocks fun _ => rfl
  all_goals rfl

theorem withoutOptions_foldl_scheduleOption (options : List Directive) (draft : JobDraft) :
    (options.foldl (scheduleOption host vars) draft).withoutOptions = draft.withoutOptions := by
  induction options generalizing draft with
  | nil => rfl
  | cons option options ih =>
    rw [foldl_cons,ih]
    unfold scheduleOption
    split
    all_goals first
      | rfl
      | exact get_elim withoutOptions fun _ => rfl

/-- Only plain directives of a body write. -/
def entryWrite {Field : Type} (write : Directive → Option Field) : DirectiveOrBlock → Option Field
  | .directive directive => write directive
  | _ => none

variable {Field : Type} {write : Directive → Option Field}

theorem findSome?_entryWrite (write : Directive → Option Field) (entries : List DirectiveOrBlock) :
    entries.reverse.findSome? (entryWrite write) = lastWritten write (plainDirectives entries) := by
  induction entries with
  | nil => rfl
  | cons entry entries ih =>
    rw [reverse_cons,findSome?_append,ih]
    cases entry <;> simp [plainDirectives,lastWritten,entryWrite,findSome?_append]

theorem get_foldl_jobDirectiveOrBlock {get : JobDraft → Field}
    (blocksKeep : ∀ draft, get draft.withoutBlocks = get draft) (writes : ∀ draft directive,
      get (jobDirective host vars limits draft directive) = (write directive).getD (get draft))
    (entries : List DirectiveOrBlock) (draft : JobDraft) :
    get (entries.foldl (jobDirectiveOrBlock host vars limits) draft) =
      (lastWritten write (plainDirectives entries)).getD (get draft) := by
  rw [← findSome?_entryWrite]
  apply get_foldl_eq_lastWrite
  intro entry _ draft
  cases entry with
  | directive directive => exact writes draft directive
  | block =>
    rw [jobDirectiveOrBlock,← blocksKeep,withoutBlocks_jobBlock,blocksKeep]
    rfl
  | comment => rfl

theorem bounds_foldl_jobDirectiveOrBlock (entries : List DirectiveOrBlock) (draft : JobDraft) :
    (entries.foldl (jobDirectiveOrBlock host vars limits) draft).bounds = draft.bounds := by
  have writesNone : ∀ draft directive,
      (jobDirective host vars limits draft directive).bounds =
        (none : Option (Option String × Option String)).getD draft.bounds :=
    fun draft directive => congrArg Decided.bounds (decided_jobDirective draft directive)
  rw [get_foldl_jobDirectiveOrBlock (fun _ => rfl) writesNone,lastWritten,
    findSome?_eq_none_iff.mpr fun _ _ => rfl]
  rfl

theorem bounds_scheduleOption (draft : JobDraft) (option : Directive) :
    (scheduleOption host vars draft option).bounds =
      ((onKey "not_before" (firstArg host vars) option).getD draft.notBefore,
        (onKey "not_after" (firstArg host vars) option).getD draft.notAfter) := by
  unfold scheduleOption onKey
  split
  case h_5 => simp_all [bounds]
  all_goals rename_i written; simp only [written]
  all_goals first
    | rfl
    | exact get_elim bounds fun _ => rfl

section

variable {key : String}

section

variable (reserved : isReservedMetadataKey key = true)
include reserved

variable (metadata : String → Option String)

theorem metadata_metadataEntry (entry : DirectiveOrBlock) :
    metadataEntry host vars metadata entry key = metadata key := by
  cases entry with
  | directive directive =>
    simp only [metadataEntry]
    split
    · rfl
    rename_i notReserved
    have differs : key ≠ directive.key.value := by
      rintro rfl
      exact notReserved reserved
    cases firstArg host vars directive with
    | none => rfl
    | some => exact Function.update_of_ne differs _ _
  | block => rfl
  | comment => rfl

theorem metadata_foldl_metadataEntry (entries : List DirectiveOrBlock) :
    entries.foldl (metadataEntry host vars) metadata key = metadata key := by
  induction entries generalizing metadata with
  | nil => rfl
  | cons entry entries ih =>
    rw [foldl_cons,ih]
    exact metadata_metadataEntry reserved metadata entry

variable (host vars key) in
/-- The stamp a part of a body leaves on a key: a `runner shell` or `runner exec` block
records its command. -/
def execStamp : DirectiveOrBlock → Option String
  | .block name qualifier directives =>
    if key = "__runner_exec" ∧ name.value = "runner" then
      match qualifier.map StringValue.value with
      | some "shell" | some "exec" =>
        (compileRunnerExecBlock host vars ⟨name,qualifier,directives⟩).bind host.toJson
      | _ => none
    else none
  | _ => none

theorem metadata_jobDirectiveOrBlock (draft : JobDraft) (entry : DirectiveOrBlock) :
    (jobDirectiveOrBlock host vars limits draft entry).metadata key =
      (execStamp host vars key entry).or (draft.metadata key) := by
  cases entry with
  | directive directive =>
    exact congrFun (congrArg Decided.metadata (decided_jobDirective draft directive)) key
  | block name qualifier directives =>
    have command (json : Option String) : (json.elim draft fun json =>
        { draft with
          metadata := Function.update draft.metadata "__runner_exec" (some json) }).metadata
            key = (if key = "__runner_exec" then json else none).or (draft.metadata key) := by
      cases json <;> by_cases isExec : key = "__runner_exec" <;> simp [isExec]
    simp only [jobDirectiveOrBlock,jobBlock,execStamp]
    split <;> rename_i isName
    · simp only [jobRunner,isName,and_true]
      generalize qualifier.map StringValue.value = kind
      split
      · simp
      · exact command _
      · exact command _
      · simp_all
    · simp [isName]
    · simp [isName]
    · simp [isName,metadata_foldl_metadataEntry reserved]
    · rw [if_neg (by simp_all)]
      rfl
  | comment => rfl

theorem metadata_foldl_jobDirectiveOrBlock (draft : JobDraft) (entries : List DirectiveOrBlock) :
    (entries.foldl (jobDirectiveOrBlock host vars limits) draft).metadata key =
      (entries.reverse.findSome? (execStamp host vars key)).or (draft.metadata key) := by
  induction entries generalizing draft with
  | nil => rfl
  | cons entry entries ih =>
    rw [foldl_cons,ih,metadata_jobDirectiveOrBlock reserved,reverse_cons,
      findSome?_append,Option.or_assoc]
    cases stamp : execStamp host vars key entry <;> simp [stamp]

end

theorem metadata_withoutQueue (draft : JobDraft) :
    draft.withoutQueue.metadata = draft.metadata := by
  unfold withoutQueue
  split <;> rfl

end

def JobBlock.options (job : JobBlock) : List Directive :=
  (job.schedule.map ScheduleNode.options).getD []

variable (host vars limits) (defaults : JobDefaults)

/-- The job after its directives and options, before an ephemeral one loses its queue. -/
def JobBlock.draft (job : JobBlock) : JobDraft :=
  job.options.foldl (scheduleOption host vars)
    (job.directives.foldl (jobDirectiveOrBlock host vars limits)
      (start defaults (job.schedule.bind ScheduleNode.mode)))

theorem compileJob_eq (job : JobBlock) : compileJob host vars limits defaults job =
      (job.draft host vars limits defaults).withoutQueue.config limits job.key
        ((job.schedule.map fun node => CompiledSchedule.fromAst node.kind).getD .disabled) :=
  rfl

/-- A field that neither blocks nor schedule options touch is decided by the plain directives. -/
theorem JobBlock.get_draft (get : JobDraft → Field)
    (blocksKeep : ∀ draft, get draft.withoutBlocks = get draft)
    (optionsKeep : ∀ draft, get draft.withoutOptions = get draft) (writes : ∀ draft directive,
      get (jobDirective host vars limits draft directive) = (write directive).getD (get draft))
    (defaults : JobDefaults) (job : JobBlock) :
    get (job.draft host vars limits defaults) =
      (lastWritten write (plainDirectives job.directives)).getD
        (get (start defaults (job.schedule.bind ScheduleNode.mode))) := by
  rw [JobBlock.draft,← optionsKeep,withoutOptions_foldl_scheduleOption,optionsKeep]
  exact get_foldl_jobDirectiveOrBlock blocksKeep writes _ _

theorem withoutQueue_times (draft : JobDraft) :
    (draft.withoutQueue.window, draft.withoutQueue.bounds) = (draft.window, draft.bounds) := by
  unfold withoutQueue
  split <;> rfl

theorem compileJob_window (job : JobBlock) : (compileJob host vars limits defaults job).window =
      (lastWritten (onKey "window" (firstArg host vars))
        (plainDirectives job.directives)).getD none := by
  refine (congrArg fst (withoutQueue_times _)).trans ?_
  exact JobBlock.get_draft host vars limits window (fun _ => rfl) (fun _ => rfl)
    (fun draft directive => congrArg Decided.window (decided_jobDirective draft directive)) defaults
    job

theorem compileJob_bounds (job : JobBlock) :
    let written := fun key => (lastWritten (onKey key (firstArg host vars)) job.options).getD none
    (compileJob host vars limits defaults job).notBefore = written "not_before" ∧
      (compileJob host vars limits defaults job).notAfter = written "not_after" := by
  have start : (job.directives.foldl (jobDirectiveOrBlock host vars limits)
      (start defaults (job.schedule.bind ScheduleNode.mode))).bounds = (none, none) :=
    bounds_foldl_jobDirectiveOrBlock _ _
  have kept := withoutQueue_times (job.draft host vars limits defaults)
  constructor
  · refine (congrArg (·.2.1) kept).trans ((@get_foldl_eq_lastWrite _ _ _ _ notBefore _ _
      (fun option _ draft => congrArg fst (bounds_scheduleOption draft option)) _).trans ?_)
    exact congrArg _ (congrArg fst start)
  · refine (congrArg (·.2.2) kept).trans ((@get_foldl_eq_lastWrite _ _ _ _ notAfter _ _
      (fun option _ draft => congrArg snd (bounds_scheduleOption draft option)) _).trans ?_)
    exact congrArg _ (congrArg snd start)

end Fields

def lastOf (keys : List String) (directives : List Directive) : Option Directive :=
  directives.reverse.find? (·.key.value ∈ keys)

theorem lastOf_eq_some (last : lastOf keys directives = some directive) :
    directive ∈ directives ∧ directive.key.value ∈ keys := by
  refine ⟨mem_reverse.mp (mem_of_find?_eq_some last),?_⟩
  simpa using find?_some last

theorem lastOf_eq_none :
    lastOf keys directives = none ↔ ∀ directive ∈ directives, directive.key.value ∉ keys := by
  simp [lastOf]

theorem lastWritten_eq_map_lastOf {write : Directive → Option Value} {value : Directive → Value}
    (writes : ∀ directive, write directive =
      if directive.key.value ∈ keys then some (value directive) else none)
    (directives : List Directive) :
    lastWritten write directives = (lastOf keys directives).map value := by
  unfold lastWritten lastOf
  induction directives.reverse with
  | nil => rfl
  | cons directive rest ih =>
    rw [findSome?_cons,find?_cons,writes,ih]
    by_cases known : directive.key.value ∈ keys <;> simp [known]

section

variable {host : Host} {vars : Vars} {limits : String → Option Nat}

theorem executionMode_foldl_defaultsDirective (entries : List DirectiveOrBlock)
    (defaults : JobDefaults) :
    (entries.foldl (defaultsDirective host vars) defaults).executionMode =
      (lastWritten (modeWrite host vars) (plainDirectives entries)).getD
        defaults.executionMode := by
  rw [← findSome?_entryWrite]
  apply get_foldl_eq_lastWrite
  intro entry _ defaults
  cases entry with
  | directive directive =>
    by_cases written : directive.key.value = "execution_mode"
    · simp only [defaultsDirective,entryWrite,written,modeWrite,if_true]
      cases (firstArg host vars directive).bind ExecutionMode.parse <;> rfl
    have unwritten : modeWrite host vars directive = none := by simp [modeWrite,written]
    rw [entryWrite,unwritten]
    have kept : ∀ {Value : Type} {value : Option Value} {change : Value → JobDefaults},
        (∀ v, (change v).executionMode = defaults.executionMode) →
        (value.elim defaults change).executionMode = defaults.executionMode := by
      intro Value value change same
      cases value with
      | none => rfl
      | some v => exact same v
    simp only [defaultsDirective]
    split
    all_goals first
      | rfl
      | exact kept fun _ => rfl
      | contradiction
  | block =>
    simp only [defaultsDirective]
    split <;> rfl
  | comment => rfl

end

end Croniq.Config

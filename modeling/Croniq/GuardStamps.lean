import Croniq.LoadAgreement

/-!
# Guards of a job and their stamps

A job guards its concurrency with a limit of its own, with the shared budget of
a group, or by folding its triggers.
-/

namespace Croniq.Config

open JobDraft List Option

/-! ### What a job declares -/

section

variable (host : Host) (vars : Vars)

def guardKeys : List String :=
  ["singleton","max_concurrent","concurrency_group","coalesce"]

def JobBlock.plain (job : JobBlock) : List Directive :=
  plainDirectives job.directives

def JobBlock.Guarded (job : JobBlock) : Prop :=
  ∃ directive ∈ job.plain, directive.key.value ∈ guardKeys

def ConcurrencyGroupBlock.declaredLimit (block : ConcurrencyGroupBlock) : Option Nat :=
  (block.directives.find? (·.key.value = "max_concurrent")).bind fun directive =>
    (firstArg host vars directive).bind parseU32

/-- The stamp of a `coalesce`, bare or for scheduled fires as well. -/
def declaredFold (directive : Directive) : Option String :=
  match firstArg host vars directive with
  | none => some "1"
  | some "schedule" => some "schedule"
  | some _ => none

/-- The last guard of each kind is on the metadata, as declared. -/
structure GuardsCarried (ast : Croniqfile) (job : JobBlock)
    (metadata : String → Option String) : Prop where
  limit : ∀ directive, lastOf ["singleton","max_concurrent"] job.plain = some directive →
    ∃ limit, declaredLimit host vars directive = some limit ∧
      metadata "__max_concurrent" = some (toString limit)
  group : ∀ directive, lastOf ["concurrency_group"] job.plain = some directive →
    ∃ name limit, firstArg host vars directive = some name ∧
      (∃ block ∈ ast.groups, resolveStr host vars block.name = name ∧
        block.declaredLimit host vars = some limit) ∧
      metadata "__concurrency_group" = some name ∧
      metadata "__concurrency_group_max" = some (toString limit)
  coalesce : ∀ directive, lastOf ["coalesce"] job.plain = some directive →
    ∃ stamp, declaredFold host vars directive = some stamp ∧ metadata "__coalesce" = some stamp

/-- The mode of a job: its own directives, the prefix of its schedule, the defaults above it. -/
def resolvedMode (above : List Directive) (job : JobBlock) : ExecutionMode :=
  (lastWritten (modeWrite host vars) job.plain).getD
    (match job.schedule.bind ScheduleNode.mode with
      | some .ephemeral => .ephemeral
      | some .queued => .queued
      | none => (lastWritten (modeWrite host vars) above).getD .queued)

/-- The placeholders of a job and of the groups resolve to what the guards need,
and a group it names has a name. -/
structure GuardsResolve (ast : Croniqfile) (above : List Directive) (job : JobBlock) : Prop where
  mode : job.Guarded →
    (∃ directive ∈ above ++ job.plain,
      directive.key.value = "execution_mode" ∧ directive.hasPlaceholder = true) →
    resolvedMode host vars above job ≠ .ephemeral
  limit : ∀ directive arg, lastOf ["singleton","max_concurrent"] job.plain = some directive →
    directive.key.value = "max_concurrent" → directive.args.head? = some arg →
    arg.isPlaceholder = true → ∃ limit > 0, parseU32 (resolveStr host vars arg) = some limit
  group : ∀ directive arg, lastOf ["concurrency_group"] job.plain = some directive →
    directive.args.head? = some arg → resolveStr host vars arg ≠ "" ∧
      ∃ block ∈ ast.groups, resolveStr host vars block.name = resolveStr host vars arg ∧
        ∃ limit > 0, block.declaredLimit host vars = some limit
  coalesce : ∀ directive arg, lastOf ["coalesce"] job.plain = some directive →
    directive.args = [arg] → arg.isPlaceholder = true → resolveStr host vars arg = "schedule"

end

/-- The jobs of a file, each with the plain defaults above it. -/
def jobsWithDefaults (above : List Directive) : List Item → List (JobBlock × List Directive)
  | [] => []
  | .defaults directives :: items => jobsWithDefaults (above ++ plainDirectives directives) items
  | .job job :: items => (job, above) :: jobsWithDefaults above items
  | _ :: items => jobsWithDefaults above items

/-! ### What the compiler stamps -/

section Stamps

variable (host : Host) (vars : Vars) (limits : String → Option Nat) (defaults : JobDefaults)
  (job : JobBlock)

theorem executionMode_draft : (job.draft host vars limits defaults).executionMode =
      (lastWritten (modeWrite host vars) job.plain).getD
        (start defaults (job.schedule.bind ScheduleNode.mode)).executionMode :=
  JobBlock.get_draft host vars limits executionMode (fun _ => rfl) (fun _ => rfl)
    (fun draft directive => congrArg Decided.executionMode (decided_jobDirective draft directive))
    defaults job

def priorityWrite (directive : Directive) : Option JobPriority :=
  if directive.key.value = "priority" then (firstArg host vars directive).bind JobPriority.parse
  else none

theorem priority_draft : (job.draft host vars limits defaults).priority =
      (lastWritten (priorityWrite host vars) job.plain).getD defaults.priority := by
  refine JobBlock.get_draft host vars limits priority (fun _ => rfl) (fun _ => rfl)
    (fun draft directive => ?_) defaults job
  unfold jobDirective priorityWrite
  split
  case h_17 => simp_all
  all_goals rename_i written; simp only [written]
  case h_13 => cases (firstArg host vars directive).bind JobPriority.parse <;> rfl
  all_goals first
    | rfl
    | exact get_elim priority fun _ => rfl

theorem draft_eq_lastOf {Field : Type} (get : JobDraft → Field) {keys : List String}
    {value : Directive → Field} (blocksKeep : ∀ draft, get draft.withoutBlocks = get draft)
    (optionsKeep : ∀ draft, get draft.withoutOptions = get draft)
    (writes : ∀ draft directive, get (jobDirective host vars limits draft directive) =
      (if directive.key.value ∈ keys then some (value directive) else none).getD (get draft)) :
    get (job.draft host vars limits defaults) =
      ((lastOf keys job.plain).map value).getD
        (get (start defaults (job.schedule.bind ScheduleNode.mode))) := by
  rw [JobBlock.get_draft host vars limits get blocksKeep optionsKeep writes,
    lastWritten_eq_map_lastOf fun _ => rfl]
  rfl

structure Stamps where
  exec : Option String
  limit : Option Nat
  (group fold : Option String)
  priority : JobPriority

def Stamps.value (stamps : Stamps) : String → Option String
  | "__runner_exec" => stamps.exec
  | "__max_concurrent" => stamps.limit.map toString
  | "__concurrency_group" => stamps.group
  | "__concurrency_group_max" => (stamps.group.bind limits).map toString
  | "__coalesce" => stamps.fold
  | "__priority" => if stamps.priority = .normal then none else some stamps.priority.asStr
  | _ => none

/-- The stamps a job asks for: its last runner block with a command, and the last directive for
each of the others. Without a queue there is nothing to guard. -/
def JobBlock.stamps : Stamps :=
  let mode := (lastWritten (modeWrite host vars) job.plain).getD
    (start defaults (job.schedule.bind ScheduleNode.mode)).executionMode
  { exec := job.directives.reverse.findSome? (execStamp host vars "__runner_exec")
    limit := if mode = .ephemeral then none else
      (lastOf ["singleton","max_concurrent"] job.plain).bind fun directive =>
        (declaredLimit host vars directive).filter (0 < ·)
    group := if mode = .ephemeral then none else
      (lastOf ["concurrency_group"] job.plain).bind fun directive =>
        (firstArg host vars directive).filter fun name => (limits name).isSome
    fold := if mode = .ephemeral then none else
      (lastOf ["coalesce"] job.plain).map fun directive =>
        if firstArg host vars directive = some "schedule" then "schedule" else "1"
    priority := (lastWritten (priorityWrite host vars) job.plain).getD defaults.priority }

def JobDraft.stamps (draft : JobDraft) : Stamps where
  exec := draft.metadata "__runner_exec"
  limit := draft.maxConcurrent
  group := draft.concurrencyGroup.filter fun name => (limits name).isSome
  fold := if draft.coalesce then some (if draft.coalesceSchedule then "schedule" else "1") else none
  priority := draft.priority

theorem stampedMetadata_apply {draft : JobDraft} {key : String}
    (unstamped : key ≠ "__runner_exec" → draft.metadata key = none) :
    draft.stampedMetadata limits key = (draft.stamps limits).value limits key := by
  unfold Stamps.value
  split
  case h_6 => rfl
  all_goals
    simp only [stampedMetadata,stamps]
    cases draft.maxConcurrent <;> cases draft.coalesce <;> cases draft.concurrencyGroup with
    | none => simp_all
    | some group => cases budget : limits group <;> simp_all [filter_some]

theorem metadata_draft {key : String} (reserved : isReservedMetadataKey key = true) :
    (job.draft host vars limits defaults).metadata key =
      job.directives.reverse.findSome? (execStamp host vars key) := by
  refine (congrFun (congrArg metadata
    (withoutOptions_foldl_scheduleOption job.options _)) _).trans ?_
  exact (metadata_foldl_jobDirectiveOrBlock reserved _ _).trans (or_none ..)

theorem stamps_draft : (job.draft host vars limits defaults).withoutQueue.stamps limits =
      job.stamps host vars limits defaults := by
  have exec : _ = _ := @metadata_draft host vars limits defaults job "__runner_exec" (by decide)
  have limit := draft_eq_lastOf host vars limits defaults job maxConcurrent
    (fun _ => rfl) (fun _ => rfl)
    fun draft directive => congrArg Decided.maxConcurrent (decided_jobDirective draft directive)
  have group := draft_eq_lastOf host vars limits defaults job JobDraft.concurrencyGroup
    (fun _ => rfl) (fun _ => rfl)
    fun draft directive => congrArg Decided.concurrencyGroup (decided_jobDirective draft directive)
  have fold := draft_eq_lastOf host vars limits defaults job folding
    (fun _ => rfl) (fun _ => rfl)
    fun draft directive => congrArg Decided.folding (decided_jobDirective draft directive)
  have mode := executionMode_draft host vars limits defaults job
  have priority := priority_draft host vars limits defaults job
  rw [JobBlock.stamps,← mode,← priority,← exec,withoutQueue]
  by_cases ephemeral : (job.draft host vars limits defaults).executionMode = .ephemeral
  · simp only [if_pos ephemeral]
    rfl
  · simp only [if_neg ephemeral,stamps,limit,group,show coalesce _ = _ from
      congrArg Prod.fst fold,show coalesceSchedule _ = _ from congrArg Prod.snd fold]
    congr 1
    · cases lastOf ["singleton","max_concurrent"] job.plain <;> rfl
    · cases lastOf ["concurrency_group"] job.plain <;> simp [start]
    · cases lastOf ["coalesce"] job.plain <;> simp [start,folding]

theorem metadata_compileJob {key : String} (reserved : isReservedMetadataKey key = true) :
    (compileJob host vars limits defaults job).metadata key =
      (job.stamps host vars limits defaults).value limits key := by
  rw [compileJob_eq]
  refine (stampedMetadata_apply limits fun notExec => ?_).trans
    (congrArg (Stamps.value limits · key) (stamps_draft host vars limits defaults job))
  rw [metadata_withoutQueue,metadata_draft host vars limits defaults job reserved,
    findSome?_eq_none_iff]
  intro entry _
  cases entry <;> simp [execStamp,notExec]

variable {host vars limits defaults job} in
theorem metadata_compileJob_of_queued
    (queued : (job.draft host vars limits defaults).executionMode ≠ .ephemeral) :
    let metadata := (compileJob host vars limits defaults job).metadata
    let group := (lastOf ["concurrency_group"] job.plain).bind fun directive =>
      (firstArg host vars directive).filter fun name => (limits name).isSome
    metadata "__max_concurrent" =
      ((lastOf ["singleton","max_concurrent"] job.plain).bind fun directive =>
        (declaredLimit host vars directive).filter (0 < ·)).map toString ∧
    metadata "__concurrency_group" = group ∧
    metadata "__concurrency_group_max" = (group.bind limits).map toString ∧
    metadata "__coalesce" = (lastOf ["coalesce"] job.plain).map fun directive =>
      if firstArg host vars directive = some "schedule" then "schedule" else "1" := by
  rw [executionMode_draft] at queued
  refine ⟨?_,?_,?_,?_⟩ <;>
    exact (metadata_compileJob host vars limits defaults job (by decide)).trans
      (by simp only [Stamps.value,JobBlock.stamps,if_neg queued])

def stampKeys : List String :=
  ["__runner_exec","__max_concurrent","__concurrency_group","__concurrency_group_max","__coalesce",
    "__priority"]

def isMetadataBlock : DirectiveOrBlock → Bool
  | .block name _ _ => name.value = "metadata"
  | _ => false

theorem stamps_congr {other : JobBlock} (sameSchedule : other.schedule = job.schedule)
    (sameRest : other.directives.filter (!isMetadataBlock ·) =
      job.directives.filter (!isMetadataBlock ·)) :
    other.stamps host vars limits defaults = job.stamps host vars limits defaults := by
  have plain (job : JobBlock) :
      job.plain = plainDirectives (job.directives.filter (!isMetadataBlock ·)) := by
    rw [plainDirectives,filterMap_filter]
    refine filterMap_congr fun entry _ => ?_
    cases entry <;> simp [isMetadataBlock]
  have exec (job : JobBlock) :
      job.directives.reverse.findSome? (execStamp host vars "__runner_exec") =
        (job.directives.filter (!isMetadataBlock ·)).reverse.findSome?
          (execStamp host vars "__runner_exec") := by
    rw [← filter_reverse,← head?_filterMap,← head?_filterMap,filterMap_filter]
    congr 1
    refine filterMap_congr fun entry _ => ?_
    cases entry <;> simp +contextual [isMetadataBlock,execStamp]
  rw [JobBlock.stamps,plain,exec,sameSchedule,sameRest,← plain,← exec,JobBlock.stamps]

/-- A reserved key holds what the compiler stamps there, whatever the metadata blocks say. -/
theorem reservedMetadata_eq_stamp {key : String} (reserved : isReservedMetadataKey key = true) :
    let metadata := fun job => (compileJob host vars limits defaults job).metadata key
    metadata job = (job.stamps host vars limits defaults).value limits key ∧
    (metadata job ≠ none → key ∈ stampKeys) ∧
    ∀ other : JobBlock, other.schedule = job.schedule →
      other.directives.filter (!isMetadataBlock ·) = job.directives.filter (!isMetadataBlock ·) →
      metadata other = metadata job := by
  have stamp := fun job => metadata_compileJob host vars limits defaults job reserved
  refine ⟨stamp job,fun present => ?_,fun other sameSchedule sameRest => ?_⟩
  · replace present := (stamp job).symm.trans_ne present
    unfold Stamps.value at present
    split at present <;> simp_all [stampKeys]
  · simp only [stamp,stamps_congr host vars limits defaults job sameSchedule sameRest]

end Stamps

/-! ### Groups -/

theorem foldl_of_mem {State Part : Type} {step : State → Part → State} (holds : State → Prop)
    (kept : ∀ state part, holds state → holds (step state part)) {part : Part}
    (made : ∀ state, holds (step state part)) {parts : List Part} (member : part ∈ parts)
    (state : State) : holds (parts.foldl step state) := by
  have keptAll : ∀ (later : List Part) state, holds state → holds (later.foldl step state) := by
    intro later
    induction later with
    | nil => exact fun _ held => held
    | cons next later ih => exact fun state held => ih _ (kept state next held)
  obtain ⟨before,after,rfl⟩ := append_of_mem member
  rw [foldl_append,foldl_cons]
  exact keptAll after _ (made _)

section

variable {host : Host} {vars : Vars}

theorem foldl_groupLimits (groups : List ConcurrencyGroupConfig) (limits : String → Option Nat)
    (name : String) :
    groups.foldl (fun (known : String → Option Nat) group =>
        Function.update known group.name (some group.maxConcurrent)) limits name =
      ((groups.reverse.find? (·.name = name)).map (·.maxConcurrent)).or (limits name) := by
  induction groups generalizing limits with
  | nil => rfl
  | cons group groups ih =>
    rw [foldl_cons,ih,reverse_cons,find?_append]
    cases groups.reverse.find? (·.name = name) with
    | some => rfl
    | none =>
      by_cases same : group.name = name
      · subst same
        simp
      · simp [same,Function.update_of_ne (Ne.symm same)]

variable {groups : List ConcurrencyGroupConfig} {name : String} {ast : Croniqfile} {limit : Nat}
  {items : List Item}

theorem groupLimits_eq_some (budget : groupLimits groups name = some limit) :
    ⟨name,limit⟩ ∈ groups := by
  rw [groupLimits,foldl_groupLimits,or_none] at budget
  obtain ⟨group,found,rfl⟩ := map_eq_some_iff.mp budget
  have matched := find?_some found
  have sameName : group.name = name := of_decide_eq_true matched
  subst sameName
  exact mem_reverse.mp (mem_of_find?_eq_some found)

variable (host vars) in
/-- The group has a name and a positive limit. -/
def UsableGroup (block : ConcurrencyGroupBlock) (name : String) (limit : Nat) : Prop :=
  name ≠ "" ∧ resolveStr host vars block.name = name ∧
    block.declaredLimit host vars = some limit ∧ 0 < limit

theorem concurrencyGroup_block (groups : List ConcurrencyGroupConfig)
    (block : ConcurrencyGroupBlock) :
    concurrencyGroup host vars groups (.concurrencyGroup block) =
      if resolveStr host vars block.name = "" ∨
          groups.any (·.name = resolveStr host vars block.name) then groups
      else ((block.declaredLimit host vars).filter (0 < ·)).elim groups fun limit =>
        groups ++ [⟨resolveStr host vars block.name,limit⟩] := by
  simp only [concurrencyGroup,ConcurrencyGroupBlock.declaredLimit]
  cases block.directives.find? (·.key.value = "max_concurrent") <;> rfl

theorem mem_foldl_concurrencyGroup {group : ConcurrencyGroupConfig}
    (member : group ∈ items.foldl (concurrencyGroup host vars) groups) :
    group ∈ groups ∨ ∃ block, .concurrencyGroup block ∈ items ∧
      UsableGroup host vars block group.name group.maxConcurrent := by
  induction items generalizing groups with
  | nil => exact .inl member
  | cons item items ih =>
    obtain earlier | ⟨block,later,usable⟩ := ih member
    · cases item with
      | concurrencyGroup block =>
        rw [concurrencyGroup_block] at earlier
        split at earlier
        · exact .inl earlier
        rename_i notKnown
        cases declared : (block.declaredLimit host vars).filter (0 < ·) with
        | none =>
          rw [declared] at earlier
          exact .inl earlier
        | some =>
          rw [declared] at earlier
          obtain old | new := mem_append.mp earlier
          · exact .inl old
          · obtain rfl := mem_singleton.mp new
            obtain ⟨isLimit,positive⟩ := filter_eq_some_iff.mp declared
            exact .inr ⟨block,mem_cons_self,fun empty => notKnown (.inl empty),
              rfl,isLimit,by simpa using positive⟩
      | _ => exact .inl earlier
    · exact .inr ⟨block,mem_cons_of_mem _ later,usable⟩

variable {block : ConcurrencyGroupBlock}

theorem exists_foldl_concurrencyGroup
    (member : .concurrencyGroup block ∈ items) (usable : UsableGroup host vars block name limit) :
    ∃ group ∈ items.foldl (concurrencyGroup host vars) groups, group.name = name := by
  have kept : ∀ groups item, (∃ group ∈ groups, group.name = name) →
      ∃ group ∈ concurrencyGroup host vars groups item, group.name = name := by
    rintro groups item ⟨group,member,same⟩
    refine ⟨group,?_,same⟩
    cases item with
    | concurrencyGroup block =>
      rw [concurrencyGroup_block]
      split
      · exact member
      · cases (block.declaredLimit host vars).filter (0 < ·) with
        | none => exact member
        | some limit => exact mem_append_left _ member
    | _ => exact member
  refine foldl_of_mem _ kept (fun groups => ?_) member groups
  obtain ⟨named,sameName,isLimit,positive⟩ := usable
  by_cases present : groups.any (·.name = name) = true
  · exact kept groups _ (by simpa using present)
  · refine ⟨⟨name,limit⟩,?_,rfl⟩
    rw [concurrencyGroup_block,sameName,if_neg (by simp [named,present]),isLimit]
    simp [filter_some,positive]

theorem mem_groups : block ∈ ast.groups ↔ .concurrencyGroup block ∈ ast.items := by
  simp only [Croniqfile.groups,mem_filterMap]
  constructor
  · rintro ⟨item,member,same⟩
    cases item <;> cases same
    exact member
  · intro member
    exact ⟨_,member,rfl⟩

theorem usable_of_groupLimits
    (budget : groupLimits (collectConcurrencyGroups host vars ast) name = some limit) :
    ∃ block ∈ ast.groups, UsableGroup host vars block name limit := by
  obtain known | ⟨block,member,usable⟩ := mem_foldl_concurrencyGroup (groupLimits_eq_some budget)
  · cases known
  · exact ⟨block,mem_groups.mpr member,usable⟩

theorem isSome_groupLimits_collect :
    (groupLimits (collectConcurrencyGroups host vars ast) name).isSome ↔
      ∃ block ∈ ast.groups, ∃ limit, UsableGroup host vars block name limit := by
  constructor
  · intro budget
    obtain ⟨limit,isLimit⟩ := isSome_iff_exists.mp budget
    obtain ⟨block,member,usable⟩ := usable_of_groupLimits isLimit
    exact ⟨block,member,limit,usable⟩
  · rintro ⟨block,member,limit,usable⟩
    rw [groupLimits,foldl_groupLimits]
    simpa [collectConcurrencyGroups]
      using exists_foldl_concurrencyGroup (mem_groups.mp member) usable

end

/-! ### What the validator has checked -/

/-- An execution mode written out is one of the two modes. -/
def ModeInOrder (directive : Directive) : Prop :=
  directive.key.value = "execution_mode" → directive.hasPlaceholder = false →
    ∃ arg, directive.args = [arg] ∧ (arg.value = "queued" ∨ arg.value = "ephemeral")

theorem modeInOrder_of_checkValue (host : Host) {directive : Directive}
    (checked : ¬ HasError (checkValue host scalarValues directive)) : ModeInOrder directive := by
  intro isMode literal
  have domain : scalarValues.lookup directive.key.value = some (.oneOf ["queued","ephemeral"]) := by
    rw [isMode]
    rfl
  rw [checkValue,domain] at checked
  simp only [literal,Bool.false_or] at checked
  split at checked
  · rename_i accepted
    obtain ⟨key,args⟩ := directive
    match args with
    | [] => simp [Directive.words,Domain.accepts] at accepted
    | [arg] => exact ⟨arg,rfl,by simpa [Directive.words,Domain.accepts] using accepted⟩
    | _ :: _ :: _ => simp [Directive.words,Domain.accepts] at accepted
  · exact absurd (hasError_error _) checked

section

variable {job : JobBlock} {groupNames : List String}

def guardDiagnostics (job : JobBlock) (groupNames : List String) (directive : Directive) :
    List Diagnostic :=
  match directive.key.value with
  | "max_concurrent" => validateMaxConcurrent job directive
  | "coalesce" => validateCoalesce job directive
  | "concurrency_group" => validateGroupReference job groupNames directive
  | _ => []

variable {scan : GuardScan} {directive : Directive}

theorem hasError_guardDirective_of_own (scan : GuardScan)
    (own : HasError (guardDiagnostics job groupNames directive)) :
    HasError (guardDirective job groupNames scan directive).diagnostics := by
  unfold guardDiagnostics at own
  split at own <;> rename_i key
  case h_4 => exact absurd own hasError_nil
  all_goals simp only [guardDirective,key,hasError_append,own,or_true]

def GuardScan.Seen (scan : GuardScan) : Prop :=
  scan.guard.isSome = true ∨ scan.groupSeen = true ∨ scan.coalesceSeen = true

theorem seen_guardDirective (directive : Directive) (seen : scan.Seen) :
    (guardDirective job groupNames scan directive).Seen := by
  unfold GuardScan.Seen at seen ⊢
  unfold guardDirective
  split <;> simp_all

theorem seen_of_guardKey (scan : GuardScan) (isGuard : directive.key.value ∈ guardKeys) :
    (guardDirective job groupNames scan directive).Seen := by
  simp only [guardKeys,mem_cons,not_mem_nil,or_false] at isGuard
  unfold GuardScan.Seen
  obtain key | key | key | key := isGuard <;> simp [guardDirective,key]

theorem hasError_ephemeralGuard (seen : scan.Seen) : HasError (ephemeralGuard job scan) := by
  rw [ephemeralGuard,hasError_append,hasError_append]
  obtain guarded | grouped | folded := seen
  · obtain ⟨guard,isGuard⟩ := isSome_iff_exists.mp guarded
    right
    simp [isGuard]
  · left
    left
    simp [grouped]
  · left
    right
    simp [folded]

/-- Each guard is in order, and a guarded job is not ephemeral as far as the validator can tell. -/
theorem guards_of_validateConcurrency {defaultEphemeral : Bool}
    (checked : ¬ HasError (validateConcurrency job defaultEphemeral groupNames)) :
    (∀ directive ∈ job.plain, ¬ HasError (guardDiagnostics job groupNames directive)) ∧
      (job.Guarded → jobIsEphemeral job defaultEphemeral = false) := by
  rw [validateConcurrency,hasError_append,not_or] at checked
  obtain ⟨scanned,mode⟩ := checked
  refine ⟨?_,?_⟩
  · intro directive member own
    refine scanned (foldl_of_mem (fun scan => HasError scan.diagnostics)
      (fun scan later earlier => ?_) (fun scan => hasError_guardDirective_of_own scan own) member _)
    unfold guardDirective
    split <;> simp only [hasError_append,earlier,true_or]
  · rintro ⟨directive,member,isGuard⟩
    by_contra ephemeral
    rw [Bool.not_eq_false] at ephemeral
    rw [if_pos ephemeral] at mode
    exact mode (hasError_ephemeralGuard (foldl_of_mem GuardScan.Seen
      (fun _ later => seen_guardDirective later) (fun scan => seen_of_guardKey scan isGuard)
      member _))

end

section

variable {host : Host} {vars : Vars}

/-- No execution mode of the list is a placeholder. -/
def ModesLiteral (directives : List Directive) : Prop :=
  ∀ directive ∈ directives, directive.key.value = "execution_mode" →
    directive.hasPlaceholder = false

theorem defaultsMode_of_inOrder {directive : Directive} (inOrder : ModeInOrder directive)
    (literal : directive.key.value = "execution_mode" → directive.hasPlaceholder = false)
    (ephemeral : Bool) :
    defaultsMode ephemeral directive =
      ((modeWrite host vars directive).map fun mode => decide (mode = .ephemeral)).getD
        ephemeral := by
  by_cases isMode : directive.key.value = "execution_mode"
  · obtain ⟨arg,onlyArg,isValue⟩ := inOrder isMode (literal isMode)
    have argLiteral : arg.isPlaceholder = false := by
      simpa [Directive.hasPlaceholder,onlyArg] using literal isMode
    have read : firstArg host vars directive = some arg.value := by
      simp [firstArg,onlyArg,resolveStr_of_literal argLiteral]
    obtain queued | isEphemeral := isValue
    · simp [defaultsMode,modeWrite,isMode,onlyArg,read,queued,ExecutionMode.parse]
    · simp [defaultsMode,modeWrite,isMode,onlyArg,read,isEphemeral,ExecutionMode.parse]
  · simp [defaultsMode,modeWrite,isMode]

variable (host vars)

theorem foldl_defaultsMode {directives : List Directive}
    (inOrder : ∀ directive ∈ directives, ModeInOrder directive)
    (literal : ModesLiteral directives) (ephemeral : Bool) :
    directives.foldl defaultsMode ephemeral =
      ((lastWritten (modeWrite host vars) directives).map fun mode =>
        decide (mode = .ephemeral)).getD ephemeral := by
  rw [lastWritten,map_findSome?]
  have folded : id (directives.foldl defaultsMode ephemeral) =
      (directives.reverse.findSome? fun directive =>
        (modeWrite host vars directive).map fun mode => decide (mode = .ephemeral)).getD
        (id ephemeral) := by
    apply get_foldl_eq_lastWrite
    intro directive member ephemeral
    exact defaultsMode_of_inOrder (inOrder directive member) (literal directive member) ephemeral
  exact folded

theorem jobIsEphemeral_eq {above : List Directive} {job : JobBlock}
    (inOrder : ∀ directive ∈ above ++ job.plain, ModeInOrder directive)
    (literal : ModesLiteral (above ++ job.plain)) :
    jobIsEphemeral job (above.foldl defaultsMode false) =
      decide (resolvedMode host vars above job = .ephemeral) := by
  obtain ⟨aboveInOrder,ownInOrder⟩ := forall_mem_append.mp inOrder
  obtain ⟨aboveLiteral,ownLiteral⟩ := forall_mem_append.mp literal
  have own := foldl_defaultsMode host vars ownInOrder ownLiteral
  have inherited := foldl_defaultsMode host vars aboveInOrder aboveLiteral false
  refine (own _).trans ?_
  rw [inherited,resolvedMode]
  cases lastWritten (modeWrite host vars) job.plain with
  | some => rfl
  | none =>
    cases job.schedule.bind ScheduleNode.mode with
    | some mode => cases mode <;> rfl
    | none => cases lastWritten (modeWrite host vars) above <;> rfl

end

/-! ### The walk over the file -/

theorem mem_plainDirectives {body : List DirectiveOrBlock} {directive : Directive} :
    directive ∈ plainDirectives body ↔ .directive directive ∈ body := by
  simp only [plainDirectives,mem_filterMap]
  constructor
  · rintro ⟨entry,member,same⟩
    cases entry <;> cases same
    exact member
  · intro member
    exact ⟨_,member,rfl⟩

section

variable {host : Host} {vars : Vars} {limits : String → Option Nat}

theorem modesInOrder_of_job {job : JobBlock}
    (checked : ¬ HasError (validateBlock host (.job job))) :
    ∀ directive ∈ job.plain, ModeInOrder directive := by
  intro directive member isMode
  refine modeInOrder_of_checkValue host ?_ isMode
  intro found
  apply checked
  refine hasError_flatMap.mpr ⟨_,mem_plainDirectives.mp member,?_⟩
  have known : Known.job.contains directive.key.value = true := by
    rw [isMode]
    decide
  simpa only [checkJobDirective,known,if_true] using found

theorem modesInOrder_of_defaults {directives : List DirectiveOrBlock}
    (checked : ¬ HasError (validateBlock host (.defaults directives))) :
    ∀ directive ∈ plainDirectives directives, ModeInOrder directive := by
  intro directive member
  refine modeInOrder_of_checkValue host ?_
  intro found
  apply checked
  refine hasError_flatMap.mpr ⟨_,mem_plainDirectives.mp member,?_⟩
  exact hasError_append.mpr (.inr found)

/-- What a validated file says about a job below these defaults. -/
structure JobValidated (groupNames : List String) (above : List Directive) (job : JobBlock) :
    Prop where
  concurrency : ¬ HasError (validateConcurrency job (above.foldl defaultsMode false) groupNames)
  modes : ∀ directive ∈ above ++ job.plain, ModeInOrder directive

variable (host vars limits) in
/-- A compiled job, its inherited mode, and what was validated about it. -/
def CompiledBelow (groupNames : List String) (placed : JobBlock × List Directive)
    (config : JobConfig) : Prop :=
  JobValidated groupNames placed.2 placed.1 ∧
    ∃ defaults : JobDefaults,
      defaults.executionMode = (lastWritten (modeWrite host vars) placed.2).getD .queued ∧
      config = compileJob host vars limits defaults placed.1

/-- The compiler and the validator walk over the items side by side; both know the defaults above.
-/
theorem forall₂_jobsWithDefaults {parsers : DateParsers} {parseZone : ZoneParser}
    {names : DeclaredNames} {items : List Item} {above : List Directive} {state : CompileState}
    {reached : ValidateState} (mode : state.defaults.executionMode =
      (lastWritten (modeWrite host vars) above).getD .queued)
    (ephemeral : reached.defaultEphemeral = above.foldl defaultsMode false)
    (aboveInOrder : ∀ directive ∈ above, ModeInOrder directive)
    (blocks : ∀ item ∈ items, ¬ HasError (validateBlock host item))
    (free : ErrorFree (validateItems host parsers parseZone {} names reached items)) :
    ∃ configs, (items.foldl (compileItem host vars limits) state).jobs = state.jobs ++ configs ∧
      List.Forall₂ (CompiledBelow host vars limits names.groups) (jobsWithDefaults above items)
        configs := by
  induction items generalizing above state reached with
  | nil => exact ⟨[],by simp,.nil⟩
  | cons item items ih =>
    obtain ⟨here,later⟩ := errorFree_append.mp free
    obtain ⟨blockHere,blocksLater⟩ := forall_mem_cons.mp blocks
    rw [foldl_cons]
    cases item with
    | defaults directives =>
      refine ih ?_ ?_ ?_ blocksLater later
      · simp only [compileItem]
        rw [executionMode_foldl_defaultsDirective,mode,lastWritten_append]
        cases lastWritten (modeWrite host vars) (plainDirectives directives) <;> rfl
      · simp only [ValidateState.next,ephemeral,foldl_append]
      · exact forall_mem_append.mpr ⟨aboveInOrder,modesInOrder_of_defaults blockHere⟩
    | job job =>
      obtain ⟨configs,sameConfigs,related⟩ :=
        @ih above (compileItem host vars limits state (.job job))
          (.next parseZone reached (.job job)) mode ephemeral aboveInOrder blocksLater later
      refine ⟨compileJob host vars limits state.defaults job :: configs,?_,.cons ?_ related⟩
      · rw [sameConfigs]
        simp [compileItem]
      · refine ⟨⟨?_,?_⟩,state.defaults,mode,rfl⟩
        · have checked := errorFree_about.mp (errorFree_append.mp here).2
          rw [hasError_append,not_or,ephemeral] at checked
          exact checked.2
        · exact forall_mem_append.mpr ⟨aboveInOrder,modesInOrder_of_job blockHere⟩
    | _ =>
      refine ih ?_ ?_ aboveInOrder blocksLater later
      · exact mode
      · exact ephemeral

end

/-! ### Guards and stamps -/

section Results

variable {host : Host} {vars : Vars} {ast : Croniqfile} {above : List Directive}
  {job : JobBlock} {directive : Directive}

theorem JobBlock.Guarded.of_lastOf {keys : List String} (areGuards : ∀ key ∈ keys, key ∈ guardKeys)
    (last : lastOf keys job.plain = some directive) : job.Guarded := by
  obtain ⟨member,isKey⟩ := lastOf_eq_some last
  exact ⟨directive,member,areGuards _ isKey⟩

theorem resolvedMode_ne_ephemeral {groupNames : List String}
    (validated : JobValidated groupNames above job) (guarded : job.Guarded)
    (resolved : (∃ directive ∈ above ++ job.plain,
      directive.key.value = "execution_mode" ∧ directive.hasPlaceholder = true) →
        resolvedMode host vars above job ≠ .ephemeral) :
    resolvedMode host vars above job ≠ .ephemeral := by
  by_cases literal : ModesLiteral (above ++ job.plain)
  · have static := (guards_of_validateConcurrency validated.concurrency).2 guarded
    rw [jobIsEphemeral_eq host vars validated.modes literal] at static
    exact of_decide_eq_false static
  unfold ModesLiteral at literal
  push Not at literal
  obtain ⟨directive,member,isMode,placeholder⟩ := literal
  exact resolved ⟨directive,member,isMode,by simpa using placeholder⟩

section

variable {groupNames : List String}
  (checked : ¬ HasError (guardDiagnostics job groupNames directive))
include checked

theorem declaredLimit_of_checked (isLimit : directive.key.value ∈ ["singleton","max_concurrent"])
    (resolved : ∀ arg, directive.key.value = "max_concurrent" → directive.args.head? = some arg →
      arg.isPlaceholder = true → ∃ limit > 0, parseU32 (resolveStr host vars arg) = some limit) :
    ∃ limit > 0, declaredLimit host vars directive = some limit := by
  simp only [mem_cons,not_mem_nil,or_false] at isLimit
  obtain single | isMax := isLimit
  · exact ⟨1,Nat.one_pos,by simp [declaredLimit,single]⟩
  · simp only [guardDiagnostics,isMax,validateMaxConcurrent] at checked
    have notSingle : directive.key.value ≠ "singleton" := by simp [isMax]
    cases hasArg : directive.args.head? with
    | none => simp [hasArg] at checked
    | some arg =>
      have read : declaredLimit host vars directive = parseU32 (resolveStr host vars arg) := by
        simp [declaredLimit,notSingle,firstArg,hasArg]
      rw [read]
      by_cases placeholder : arg.isPlaceholder = true
      · exact resolved arg isMax hasArg placeholder
      rw [Bool.not_eq_true] at placeholder
      simp only [hasArg,placeholder,Bool.false_eq_true,if_false] at checked
      rw [resolveStr_of_literal placeholder]
      split at checked
      · exact absurd (hasError_error _) checked
      · rename_i limit notZero isNumber
        exact ⟨limit,Nat.pos_of_ne_zero fun zero => notZero (zero ▸ rfl),isNumber⟩
      · exact absurd (hasError_error _) checked

theorem declaredFold_of_checked (isFold : directive.key.value = "coalesce")
    (resolved : ∀ arg, directive.args = [arg] → arg.isPlaceholder = true →
      resolveStr host vars arg = "schedule") :
    declaredFold host vars directive = some
      (if firstArg host vars directive = some "schedule" then "schedule" else "1") := by
  simp only [guardDiagnostics,isFold,validateCoalesce] at checked
  match args : directive.args with
  | [] => simp [declaredFold,firstArg,args]
  | [arg] =>
    have isSchedule : resolveStr host vars arg = "schedule" := by
      by_cases placeholder : arg.isPlaceholder = true
      · exact resolved arg args placeholder
      rw [Bool.not_eq_true] at placeholder
      rw [resolveStr_of_literal placeholder]
      by_contra other
      simp [args,unexpectedCoalesce,placeholder,other] at checked
    simp [declaredFold,firstArg,args,isSchedule]
  | _ :: _ :: _ => simp [args,unexpectedCoalesce] at checked

theorem head?_of_groupReference (isGroup : directive.key.value = "concurrency_group") :
    ∃ arg, directive.args.head? = some arg := by
  simp only [guardDiagnostics,isGroup,validateGroupReference] at checked
  cases hasArg : directive.args.head? with
  | none => simp [hasArg] at checked
  | some arg => exact ⟨arg,rfl⟩

end

section

variable {limits : String → Option Nat} {defaults : JobDefaults}
  (limitsOf : limits = groupLimits (collectConcurrencyGroups host vars ast))
  (mode : (job.draft host vars limits defaults).executionMode = resolvedMode host vars above job)
include limitsOf mode

theorem GuardsResolve.of_carried
    (carried :
      GuardsCarried host vars ast job (compileJob host vars limits defaults job).metadata) :
    GuardsResolve host vars ast above job := by
  -- a guarded job that lost its queue would have lost the stamp as well
  have queued : job.Guarded → resolvedMode host vars above job ≠ .ephemeral := by
    rintro ⟨guard,member,isGuard⟩ ephemeral
    rw [← mode,executionMode_draft] at ephemeral
    have stamp := fun key => @metadata_compileJob host vars limits defaults job key
    simp only [JobBlock.stamps,if_pos ephemeral] at stamp
    have noLimit := stamp "__max_concurrent" (by decide)
    have noGroup := stamp "__concurrency_group" (by decide)
    have noFold := stamp "__coalesce" (by decide)
    have declared : ∀ keys : List String, guard.key.value ∈ keys →
        ∃ last, lastOf keys job.plain = some last := by
      intro keys isKey
      cases last : lastOf keys job.plain with
      | none => exact absurd isKey (lastOf_eq_none.mp last guard member)
      | some directive => exact ⟨directive,rfl⟩
    simp only [guardKeys,mem_cons,not_mem_nil,or_false] at isGuard
    obtain isLimit | isGroup | isFold := or_assoc.mpr isGuard
    · obtain ⟨last,isLast⟩ := declared ["singleton","max_concurrent"] (by simpa using isLimit)
      obtain ⟨_,-,stamped⟩ := carried.limit last isLast
      simp [noLimit,Stamps.value] at stamped
    · obtain ⟨last,isLast⟩ := declared ["concurrency_group"] (by simp [isGroup])
      obtain ⟨_,_,-,-,stamped,-⟩ := carried.group last isLast
      simp [noGroup,Stamps.value] at stamped
    · obtain ⟨last,isLast⟩ := declared ["coalesce"] (by simp [isFold])
      obtain ⟨_,-,stamped⟩ := carried.coalesce last isLast
      simp [noFold,Stamps.value] at stamped
  refine ⟨fun guarded _ => queued guarded,?_,?_,?_⟩
  · intro directive arg isLast isMax hasArg _
    have kept := queued (.of_lastOf (by decide) isLast)
    rw [← mode] at kept
    obtain ⟨limit,declared,stamped⟩ := carried.limit directive isLast
    have stamp := (metadata_compileJob_of_queued kept).1
    rw [stamped,isLast,bind_some,declared] at stamp
    have positive : 0 < limit := by
      by_contra zero
      simp [filter_some,zero] at stamp
    refine ⟨limit,positive,?_⟩
    simpa [declaredLimit,isMax,firstArg,hasArg] using declared
  · intro directive arg isLast hasArg
    have kept := queued (.of_lastOf (by decide) isLast)
    rw [← mode] at kept
    obtain ⟨name,-,named,-,stamped,-⟩ := carried.group directive isLast
    have stamp := (metadata_compileJob_of_queued kept).2.1
    rw [stamped,isLast,bind_some,named,limitsOf] at stamp
    have isName : resolveStr host vars arg = name := by simpa [firstArg,hasArg] using named
    obtain ⟨-,budget⟩ := filter_eq_some_iff.mp stamp.symm
    obtain ⟨block,member,limit,nonempty,blockName,declared,positive⟩ :=
      isSome_groupLimits_collect.mp budget
    rw [isName]
    exact ⟨nonempty,block,member,blockName,limit,positive,declared⟩
  · intro directive arg isLast hasArg _
    obtain ⟨stamp,declared,-⟩ := carried.coalesce directive isLast
    simp only [declaredFold,firstArg,hasArg,head?_cons,map_some] at declared
    split at declared
    · contradiction
    · rename_i isSchedule
      exact some.inj isSchedule
    · contradiction

theorem GuardsCarried.of_resolve {groupNames : List String}
    (validated : JobValidated groupNames above job)
    (resolved : GuardsResolve host vars ast above job) :
    GuardsCarried host vars ast job (compileJob host vars limits defaults job).metadata := by
  have queued : job.Guarded → (job.draft host vars limits defaults).executionMode ≠ .ephemeral := by
    intro guarded
    rw [mode]
    exact resolvedMode_ne_ephemeral validated guarded (resolved.mode guarded)
  have checked := (guards_of_validateConcurrency validated.concurrency).1
  refine ⟨?_,?_,?_⟩
  · intro directive isLast
    obtain ⟨member,isKey⟩ := lastOf_eq_some isLast
    obtain ⟨limit,positive,declared⟩ := declaredLimit_of_checked (checked directive member) isKey
      fun arg => resolved.limit directive arg isLast
    have stamp := (metadata_compileJob_of_queued (queued (.of_lastOf (by decide) isLast))).1
    rw [isLast,bind_some,declared] at stamp
    exact ⟨limit,declared,by simpa [filter_some,positive] using stamp⟩
  · intro directive isLast
    obtain ⟨member,isKey⟩ := lastOf_eq_some isLast
    obtain ⟨arg,hasArg⟩ :=
      head?_of_groupReference (checked directive member) (mem_singleton.mp isKey)
    obtain ⟨nonempty,block,isBlock,named,limit,positive,declared⟩ :=
      resolved.group directive arg isLast hasArg
    have isName : firstArg host vars directive = some (resolveStr host vars arg) := by
      simp [firstArg,hasArg]
    have budget : (limits (resolveStr host vars arg)).isSome := by
      rw [limitsOf]
      exact isSome_groupLimits_collect.mpr
        ⟨block,isBlock,limit,nonempty,named,declared,positive⟩
    obtain ⟨bound,isBound⟩ := isSome_iff_exists.mp budget
    obtain ⟨_,stamp,maxStamp,_⟩ :=
      metadata_compileJob_of_queued (queued (.of_lastOf (by decide) isLast))
    rw [isLast,bind_some,isName,filter_some,if_pos budget] at stamp maxStamp
    rw [limitsOf] at isBound
    obtain ⟨owner,isOwner,-,ownerName,ownerLimit,-⟩ := usable_of_groupLimits isBound
    refine ⟨_,bound,isName,⟨owner,isOwner,ownerName,ownerLimit⟩,stamp,maxStamp.trans ?_⟩
    rw [bind_some,limitsOf,isBound,map_some]
  · intro directive isLast
    obtain ⟨member,isKey⟩ := lastOf_eq_some isLast
    have declared := declaredFold_of_checked (checked directive member)
      (mem_singleton.mp isKey) fun arg hasArg placeholder =>
        resolved.coalesce directive arg isLast hasArg placeholder
    obtain ⟨_,_,_,stamp⟩ :=
      metadata_compileJob_of_queued (queued (.of_lastOf (by decide) isLast))
    rw [isLast,map_some] at stamp
    exact ⟨_,declared,stamp⟩

end

end Results

/-- **What a validated file keeps of its guards.** Without an error the guards of a job are on its
metadata exactly if the placeholders behind them resolve to what the validator could not see, and
the group has a name. -/
theorem guards_carried_iff {host : Host} {parsers : DateParsers}
    {parseZone : ZoneParser} {ast : Croniqfile}
    (valid : ErrorFree (validate host parsers parseZone ast)) :
    List.Forall₂
      (fun placed config =>
        GuardsCarried host (collectVars host ast) ast placed.1 config.metadata ↔
          GuardsResolve host (collectVars host ast) ast placed.2 placed.1)
      (jobsWithDefaults [] ast.items) (compile host ast).jobs := by
  obtain ⟨fileLevel,items⟩ := errorFree_append.mp valid
  have blocks : ∀ item ∈ ast.items, ¬ HasError (validateBlock host item) := by
    intro item member own
    rw [errorFree_about,hasError_append,hasError_append] at fileLevel
    exact fileLevel (.inr (hasError_flatMap.mpr ⟨item,member,own⟩))
  let limits := groupLimits (collectConcurrencyGroups host (collectVars host ast) ast)
  obtain ⟨configs,compiled,below⟩ := @forall₂_jobsWithDefaults host (collectVars host ast) limits
    parsers parseZone _ _ [] {} _ rfl rfl (by simp) blocks items
  have jobs : (compile host ast).jobs = configs := by
    simpa [compile,CompileState.config] using compiled
  rw [jobs]
  refine below.imp ?_
  rintro ⟨job,above⟩ config ⟨validated,defaults,inherited,rfl⟩
  have mode : (job.draft host (collectVars host ast) limits defaults).executionMode =
      resolvedMode host (collectVars host ast) above job := by
    rw [executionMode_draft,resolvedMode]
    cases job.schedule.bind ScheduleNode.mode with
    | none => exact congrArg _ inherited
    | some mode => cases mode <;> rfl
  exact ⟨.of_carried rfl mode,.of_resolve rfl mode validated⟩

/-! ### Example files -/

def hostWith (lookup : String → Option String) : Host :=
  { quietHost with lookup }

variable (directives : List Directive)

def guardedJob : JobBlock :=
  exampleJob (.interval 5 .minutes) directives

/-- A job with these directives, next to the groups `nightly` and the one without a name. -/
def guardedFile : Croniqfile where
  items :=
    [.concurrencyGroup ⟨wordOf "nightly",[⟨wordOf "max_concurrent",[wordOf "2"]⟩]⟩,
     .concurrencyGroup ⟨wordOf "",[⟨wordOf "max_concurrent",[wordOf "2"]⟩]⟩,
     .job (guardedJob directives)]

/-- A limit and a group from the environment, and a fold of every fire. -/
def promisedGuards : List Directive :=
  [⟨wordOf "max_concurrent",[placeholderOf "env.LIMIT"]⟩,
   ⟨wordOf "concurrency_group",[wordOf "nightly"]⟩,⟨wordOf "coalesce",[wordOf "schedule"]⟩]

def singletonInMode : List Directive :=
  [⟨wordOf "singleton",[]⟩,⟨wordOf "execution_mode",[placeholderOf "env.MODE"]⟩]

def limitFromHost : List Directive :=
  [⟨wordOf "max_concurrent",[placeholderOf "env.LIMIT"]⟩]

def namelessGroup : List Directive :=
  [⟨wordOf "concurrency_group",[wordOf ""]⟩]

def limitOne (name : String) : Option String :=
  if name = "LIMIT" then some "1" else none

def limitZero (name : String) : Option String :=
  if name = "LIMIT" then some "0" else none

def modeEphemeral (name : String) : Option String :=
  if name = "MODE" then some "ephemeral" else none

/-- A job with a limit, next to a block that asks for another. -/
def forgedJob : JobBlock :=
  { guardedJob [] with
    directives :=
      [.directive ⟨wordOf "singleton",[]⟩,
       .block (wordOf "metadata") none
        [.directive ⟨wordOf "__max_concurrent",[wordOf "9"]⟩]] }

theorem reservedMetadata_eq_stamp_forged :
    isReservedMetadataKey "__max_concurrent" = true ∧
      (compileJob quietHost (fun _ => none) (fun _ => none) {} forgedJob).metadata
        "__max_concurrent" = some "1" := by
  have reserved : isReservedMetadataKey "__max_concurrent" = true := by decide
  refine ⟨reserved,(reservedMetadata_eq_stamp _ _ _ _ forgedJob reserved).1.trans ?_⟩
  decide

theorem guards_carried_iff_promised :
    let host := hostWith limitOne
    let file := guardedFile promisedGuards
    ErrorFree (validate host undated noZone file) ∧
      ∀ config ∈ (compile host file).jobs,
        GuardsCarried host (collectVars host file) file (guardedJob promisedGuards)
          config.metadata := by
  intro host file
  have valid : ErrorFree (validate host undated noZone file) := by
    unfold ErrorFree
    decide
  refine ⟨valid,?_⟩
  have resolved :
      GuardsResolve host (collectVars host file) file [] (guardedJob promisedGuards) := by
    refine ⟨fun _ => ?_,?_,?_,?_⟩
    · decide
    · rintro directive arg ⟨⟩ - ⟨⟩ -
      exact ⟨1,Nat.one_pos,by decide⟩
    · rintro directive arg ⟨⟩ ⟨⟩
      exact ⟨by decide,_,mem_cons_self,rfl,2,by decide,by decide⟩
    · rintro directive arg ⟨⟩ ⟨⟩ placeholder
      exact absurd placeholder (by decide)
  obtain ⟨config,later,carried,noMore,jobs⟩ := forall₂_cons_left_iff.mp (guards_carried_iff valid)
  obtain rfl := forall₂_nil_left_iff.mp noMore
  intro other member
  rw [jobs,mem_singleton] at member
  rw [member]
  exact carried.mpr resolved

/-- Files without an error that lose a guard: to a mode or a limit from the environment, and to an
empty group name. -/
theorem guards_dropped :
    (ErrorFree (validate (hostWith modeEphemeral) undated noZone (guardedFile singletonInMode)) ∧
      ∃ config, (compile (hostWith modeEphemeral) (guardedFile singletonInMode)).jobs = [config] ∧
        config.metadata "__max_concurrent" = none) ∧
    (ErrorFree (validate (hostWith limitZero) undated noZone (guardedFile limitFromHost)) ∧
      ∃ config, (compile (hostWith limitZero) (guardedFile limitFromHost)).jobs = [config] ∧
        config.metadata "__max_concurrent" = none) ∧
    (ErrorFree (validate quietHost undated noZone (guardedFile namelessGroup)) ∧
      ∃ config, (compile quietHost (guardedFile namelessGroup)).jobs = [config] ∧
        config.metadata "__concurrency_group" = none) := by
  refine ⟨⟨?_,_,rfl,by decide⟩,⟨?_,_,rfl,by decide⟩,?_,_,rfl,by decide⟩ <;>
    (unfold ErrorFree; decide)

end Croniq.Config

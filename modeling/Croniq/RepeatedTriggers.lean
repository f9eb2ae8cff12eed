import Croniq.CallerScopes
import Croniq.WorkItems

/-!
# Triggers that repeat

A trigger may name an idempotency key.
-/

namespace Croniq

open Config FoldState KeyedTables LabelledRuns List Option

def maxIdempotencyKeyChars : Nat := 200

/-- An empty key counts as none. -/
def TriggerRequest.key (request : TriggerRequest) : Option String :=
  request.idempotencyKey.filter (· ≠ "")

def ExecutionState.isOpen (state : ExecutionState) : Bool :=
  state = .queued || state = .claimed

/-- The latest execution of the job with the key that is open or recent. -/
def Store.findExecutionByIdempotencyKey (store : Store) (jobKey idempotencyKey : String)
    (windowStart : Int) : Option Execution :=
  (store.executions.rows.filter fun row =>
      row.jobKey = jobKey && row.idempotencyKey = some idempotencyKey &&
        (row.state.isOpen || windowStart ≤ row.createdAt)).foldl
    (fun latest row =>
      match latest with
      | none => some row
      | some latest => if latest.createdAt < row.createdAt then some row else some latest) none

inductive TriggerAnswer where
  | forbidden
  | badRequest
  | tooManyRequests
  | internalServerError
  | deduplicated (executionId : Uuid)
  | coalesced (executionId : ExecutionId)
  | queued (executionId : Uuid)
deriving DecidableEq

/-- The execution that answers a trigger taken on. -/
def TriggerAnswer.accepted : TriggerAnswer → Option ExecutionId
  | .coalesced executionId => some executionId
  | .queued executionId => some (.uuid executionId)
  | _ => none

section

variable (state : FoldState) (request : TriggerRequest)

def FoldState.foldTarget (job : Option FoldJob) : Option WorkItem :=
  if job.any FoldJob.declaresCoalesce && request.isBareSignal then
    findForJob state.system.queue request.jobKey WorkItem.isFoldable
  else none

/-- The execution that answers in place of a new one. -/
def FoldState.dedupTarget (window : Int) (request : TriggerRequest)
    (now : Int) : Option Execution :=
  request.key.bind fun key =>
    state.system.store.findExecutionByIdempotencyKey request.jobKey key (now - window)

/-- The answer once nothing was found under the key. -/
def FoldState.triggerAnswer (job : Option FoldJob)
    (now : Int) (id : Uuid) (stamps : Metadata) (fails : Bool) : TriggerAnswer :=
  match state.foldTarget request job with
  | some target => .coalesced target.executionId
  | none =>
    if (job.bind FoldJob.maxQueueDepth).getD 10 ≤ countForJob state.system.queue request.jobKey
    then .tooManyRequests
    else if fails then .internalServerError
    else
      match state.system.store.createExecution
          (newExecution id request.jobKey now now request.key
            (triggerMetadata request job stamps)).execution with
      | .error _ => .internalServerError
      | .ok _ => .queued id

/-- `POST /v1/trigger`, with the job of the request. -/
def FoldState.handleTrigger (window : Int) (caller : Auth.CallerContext)
    (request : TriggerRequest) (job : Option FoldJob) (now : Int) (id : Uuid)
    (stamps : Metadata) (fails : Bool) : TriggerAnswer × FoldState :=
  if !caller.hasScope Auth.Scope.jobsTrigger then (.forbidden, state)
  else if request.key.any (maxIdempotencyKeyChars < ·.length) then (.badRequest, state)
  else if (validateOptionalDuration request.timeout).isNone then (.badRequest, state)
  else
    match state.dedupTarget window request now with
    | some existing => (.deduplicated existing.id, state)
    | none =>
      (state.triggerAnswer request job now id stamps fails,
        state.trigger { request with idempotencyKey := request.key } job now id stamps fails)

end

/-- A trigger with a key that was taken on, and the execution that answered. -/
structure Acceptance where
  (jobKey key : String)
  acceptedAt : Int
  execution : ExecutionId
deriving DecidableEq

/-- `reports` have read their row; `accepted` and `retries` keep the triggers taken on and the
retries made. -/
structure TriggerHistory where
  system : FoldState
  reports : List Report
  accepted : List Acceptance
  retries : List (Uuid × Uuid)

open TriggerHistory

inductive HistoryLabel where
  | trigger (caller : Auth.CallerContext) (request : TriggerRequest) (job : Option FoldJob)
      (now : Int) (id : Uuid) (stamps : Metadata) (fails : Bool)
  | readReport (id : Uuid) (event : CompletionEvent) (now : Int) (job : CompletionJob)
  | createRetry (report : Report) (retryId : Uuid) (nextAttempt delay : Nat)
  | other (label : FoldLabel)

/-- The triggers and the retries have labels of their own. -/
def FoldLabel.isOther : FoldLabel → Bool
  | .trigger _ _ _ _ _ _ => false
  | .createRetry _ _ _ _ => false
  | _ => true

namespace TriggerHistory

def initial : TriggerHistory where
  system := .initial
  reports := []
  accepted := []
  retries := []

def step (window : Int) (history : TriggerHistory) : HistoryLabel → Option TriggerHistory
  | .trigger caller request job now id stamps fails =>
    if history.system.lockFree then
      let handled := history.system.handleTrigger window caller request job now id stamps fails
      some { history with
        system := handled.2
        accepted :=
          match request.key, handled.1.accepted with
          | some key, some execution =>
            { jobKey := request.jobKey, key, acceptedAt := now, execution } :: history.accepted
          | _, _ => history.accepted }
    else none
  | .readReport id event now job =>
    (history.system.system.store.getExecution id).map fun execution =>
      { history with reports := { event, now, execution, job } :: history.reports }
  | .createRetry report retryId nextAttempt delay =>
    if report ∈ history.reports then
      match history.system.system.store.createExecution
          (report.retryExecution retryId nextAttempt delay).execution with
      | .error _ => some history
      | .ok _ =>
        (history.system.act (.createRetry report retryId nextAttempt delay)).map fun system =>
          { history with
            system, retries := (report.execution.id, retryId) :: history.retries }
    else none
  | .other label =>
    if label.isOther then
      (history.system.act label).map fun system => { history with system }
    else none

variable (history : TriggerHistory)

/-- The second execution repeats the first, possibly through others. -/
def Retries : Uuid → Uuid → Prop :=
  Relation.ReflTransGen fun first second => (first, second) ∈ history.retries

/-- An execution or a retry of it is queued or claimed. -/
def StillOpen (execution : ExecutionId) : Prop :=
  ∃ first last row, execution = .uuid first ∧ history.Retries first last ∧
    history.system.system.store.getExecution last = some row ∧ row.state.isOpen = true

/-- A trigger repeats one taken on: within the window, or while its answer is open. -/
def Repeats (window : Int) (request : TriggerRequest) (now : Int) : Prop :=
  ∃ first ∈ history.accepted, first.jobKey = request.jobKey ∧ request.key = some first.key ∧
    (now ≤ first.acceptedAt + window ∨ history.StillOpen first.execution)

/-- No trigger with a new key is folded into the execution of another. -/
def KeepsKey (window : Int) (history : TriggerHistory) : HistoryLabel → Prop
  | .trigger _ request job now _ _ _ =>
    request.key.isSome = true → history.system.dedupTarget window request now = none →
      history.system.foldTarget request job = none
  | _ => True

instance (window : Int) (history : TriggerHistory) :
    (label : HistoryLabel) → Decidable (history.KeepsKey window label)
  | .trigger _ request job now _ _ _ =>
    inferInstanceAs (Decidable (request.key.isSome = true →
      history.system.dedupTarget window request now = none →
        history.system.foldTarget request job = none))
  | .readReport _ _ _ _ => isTrue trivial
  | .createRetry _ _ _ _ => isTrue trivial
  | .other _ => isTrue trivial

end TriggerHistory

theorem isSome_foldl_latest (rows : List Execution) (latest : Option Execution) : (rows.foldl
      (fun latest row =>
        match latest with
        | none => some row
        | some latest => if latest.createdAt < row.createdAt then some row else some latest)
      latest).isSome = (latest.isSome || !rows.isEmpty) := by
  induction rows generalizing latest with
  | nil => simp
  | cons row rows ih =>
    rw [foldl_cons,ih]
    cases latest with
    | none => rfl
    | some =>
      dsimp only
      split <;> rfl

theorem Store.isSome_findExecutionByIdempotencyKey {store : Store} {jobKey key : String}
    {windowStart : Int} {id : Uuid} {row : Execution} (found : store.getExecution id = some row)
    (isJob : row.jobKey = jobKey) (isKey : row.idempotencyKey = some key)
    (matching : row.state.isOpen = true ∨ windowStart ≤ row.createdAt) :
    (store.findExecutionByIdempotencyKey jobKey key windowStart).isSome = true := by
  rw [findExecutionByIdempotencyKey,isSome_foldl_latest,isSome_none,Bool.false_or]
  have member : row ∈ store.executions.rows.filter fun row =>
      row.jobKey = jobKey && row.idempotencyKey = some key &&
        (row.state.isOpen || windowStart ≤ row.createdAt) := by
    refine mem_filter.mpr ⟨(store.executions.find?_eq_some_iff.mp found).1,?_⟩
    simpa [isJob,isKey] using matching
  cases matchings : store.executions.rows.filter _ with
  | nil => simp [matchings] at member
  | cons => rfl

namespace FoldState

variable {state next : FoldState} {request : TriggerRequest} {job : Option FoldJob} {now : Int}
  {id : Uuid} {stamps : Metadata} {fails : Bool}

theorem getExecution_of_queued {answered : Uuid}
    (queued : state.triggerAnswer request job now id stamps fails = .queued answered) :
    answered = id ∧
      (state.trigger { request with idempotencyKey := request.key } job now id stamps
          fails).system.store.getExecution id =
        some (newExecution id request.jobKey now now request.key
          (triggerMetadata request job stamps)).execution := by
  unfold triggerAnswer at queued
  split at queued
  · cases queued
  rename_i notFolded
  split at queued
  · cases queued
  rename_i withinDepth
  split at queued
  · cases queued
  rename_i storeWorks
  split at queued
  · cases queued
  rename_i created creates
  cases queued
  refine ⟨rfl,?_⟩
  change (match state.foldTarget request job with
    | some target => state.fold target
    | none => _).system.store.getExecution id = _
  rw [notFolded]
  simp only [withinDepth,storeWorks,decide_false,Bool.or_self,Bool.false_eq_true,if_false]
  change (state.persist (newExecution id request.jobKey now now request.key
    (triggerMetadata request job stamps)).execution _ _).system.store.getExecution id = _
  rw [persist,creates]
  exact Store.getExecution_createExecution creates

theorem triggerAnswer_of_unfolded {execution : ExecutionId}
    (unfolded : state.foldTarget request job = none)
    (accepts : (state.triggerAnswer request job now id stamps fails).accepted = some execution) :
    ∃ answered, execution = .uuid answered ∧
      state.triggerAnswer request job now id stamps fails = .queued answered := by
  cases answer : state.triggerAnswer request job now id stamps fails with
  | queued answered =>
    rw [answer] at accepts
    exact ⟨answered,(some.inj accepts).symm,rfl⟩
  | coalesced =>
    rw [triggerAnswer,unfolded] at answer
    dsimp only at answer
    split at answer
    · cases answer
    · split at answer
      · cases answer
      · split at answer <;> cases answer
  | _ =>
    rw [answer] at accepts
    cases accepts

end FoldState

/-- The execution was created with what meets a condition. -/
def Store.HasRequest (store : Store) (id : Uuid) (condition : ExecutionRequest → Prop) : Prop :=
  ∃ row, store.getExecution id = some row ∧ condition row.toExecutionRequest

theorem Store.HasRequest.survives {before after : Store} {id : Uuid}
    {condition : ExecutionRequest → Prop} (hasRequest : before.HasRequest id condition)
    (survives : before.Survives after) : after.HasRequest id condition := by
  obtain ⟨row,found,meets⟩ := hasRequest
  obtain ⟨next,foundNext,follows⟩ := survives id row found
  exact ⟨next,foundNext,follows.request ▸ meets⟩

/-- The execution is of the job and carries the key. -/
def ExecutionRequest.Bears (jobKey : String) (key : Option String) (request : ExecutionRequest) :
    Prop :=
  request.jobKey = jobKey ∧ request.idempotencyKey = key

namespace TriggerHistory

/-- The executions that answer triggers carry their keys, and so do their retries. -/
structure Remembers (history : TriggerHistory) : Prop where
  accepted : ∀ first ∈ history.accepted, ∃ id, first.execution = .uuid id ∧
    history.system.system.store.HasRequest id fun request =>
      request.Bears first.jobKey (some first.key) ∧ request.createdAt = first.acceptedAt
  reports : ∀ report ∈ history.reports,
    history.system.system.store.HasRequest report.execution.id
      (· = report.execution.toExecutionRequest)
  retries : ∀ pair ∈ history.retries, ∃ jobKey key,
    history.system.system.store.HasRequest pair.1 (·.Bears jobKey key) ∧
      history.system.system.store.HasRequest pair.2 (·.Bears jobKey key)

theorem Remembers.initial : initial.Remembers where
  accepted := fun _ member => nomatch member
  reports := fun _ member => nomatch member
  retries := fun _ member => nomatch member

variable {history : TriggerHistory}

theorem Remembers.setSystem (remembers : history.Remembers) {system : FoldState}
    (survives : history.system.system.store.Survives system.system.store) :
    { history with system }.Remembers where
  accepted first member := by
    obtain ⟨id,isUuid,hasRequest⟩ := remembers.accepted first member
    exact ⟨id,isUuid,hasRequest.survives survives⟩
  reports report member := (remembers.reports report member).survives survives
  retries pair member := by
    obtain ⟨jobKey,key,bears,alsoBears⟩ := remembers.retries pair member
    exact ⟨jobKey,key,bears.survives survives,alsoBears.survives survives⟩

theorem survives_handleTrigger (state : FoldState) (window : Int) (caller : Auth.CallerContext)
    (request : TriggerRequest) (job : Option FoldJob) (now : Int) (id : Uuid)
    (stamps : Metadata) (fails : Bool) :
    state.system.store.Survives
      (state.handleTrigger window caller request job now id stamps fails).2.system.store := by
  unfold handleTrigger
  repeat' split
  all_goals first
    | exact .refl _
    | exact (@ClaimStep.trigger .enqueueTriggered state _ job now id stamps fails).survives

theorem hasRequest_of_accepted {state : FoldState} {window : Int} {caller : Auth.CallerContext}
    {request : TriggerRequest} {job : Option FoldJob} {now : Int} {id : Uuid}
    {stamps : Metadata} {fails : Bool} {key : String} {execution : ExecutionId}
    (hasKey : request.key = some key) (unfolded : state.dedupTarget window request now = none →
      state.foldTarget request job = none)
    (accepts : (state.handleTrigger window caller request job now id stamps
      fails).1.accepted = some execution) :
    ∃ id', execution = .uuid id' ∧
      (state.handleTrigger window caller request job now id stamps
        fails).2.system.store.HasRequest id' fun created =>
          created.Bears request.jobKey (some key) ∧ created.createdAt = now := by
  unfold handleTrigger at accepts ⊢
  split at accepts
  · cases accepts
  rename_i mayTrigger
  rw [if_neg mayTrigger]
  split at accepts
  · cases accepts
  rename_i shortKey
  rw [if_neg shortKey]
  split at accepts
  · cases accepts
  rename_i readable
  rw [if_neg readable]
  split at accepts
  · cases accepts
  rename_i noneFound
  obtain ⟨answered,rfl,queued⟩ := triggerAnswer_of_unfolded (unfolded noneFound) accepts
  obtain ⟨rfl,created⟩ := getExecution_of_queued queued
  exact ⟨answered,rfl,_,created,⟨rfl,hasKey⟩,rfl⟩

theorem Remembers.step {window : Int} {next : TriggerHistory} {label : HistoryLabel}
    (remembers : history.Remembers) (keeps : history.KeepsKey window label)
    (steps : history.step window label = some next) : next.Remembers := by
  cases label with
  | trigger caller request job now id stamps fails =>
    obtain ⟨-,rfl⟩ := of_guard steps
    have kept := remembers.setSystem (survives_handleTrigger history.system window caller
      request job now id stamps fails)
    refine ⟨?_,kept.reports,kept.retries⟩
    split
    · rename_i key execution hasKey accepts
      exact forall_mem_cons.mpr
        ⟨hasRequest_of_accepted hasKey (keeps (by simp [hasKey])) accepts,kept.accepted⟩
    · exact kept.accepted
  | readReport id =>
    obtain ⟨execution,found,rfl⟩ := map_eq_some_iff.mp steps
    refine ⟨remembers.accepted,?_,remembers.retries⟩
    intro report member
    rcases mem_cons.mp member with rfl | old
    · have isId : execution.id = id := history.system.system.store.executions.key_of_find? found
      exact ⟨execution,isId ▸ found,rfl⟩
    · exact remembers.reports report old
  | createRetry report retryId nextAttempt delay =>
    obtain ⟨isReport,steps⟩ := ite_none_right_eq_some.mp steps
    split at steps
    · cases steps
      exact remembers
    rename_i created creates
    obtain ⟨system,acts,rfl⟩ := map_eq_some_iff.mp steps
    have kept := remembers.setSystem (ClaimStep.of_act acts).survives
    refine ⟨kept.accepted,kept.reports,?_⟩
    intro pair member
    rcases mem_cons.mp member with rfl | old
    · refine ⟨report.execution.jobKey,report.execution.idempotencyKey,?_,?_⟩
      · obtain ⟨row,found,same⟩ := kept.reports report isReport
        exact ⟨row,found,by rw [same]; exact ⟨rfl,rfl⟩⟩
      · cases acts
        refine ⟨(report.retryExecution retryId nextAttempt delay).execution,?_,rfl,rfl⟩
        rw [persist,creates]
        exact Store.getExecution_createExecution creates
    · exact kept.retries pair old
  | other =>
    obtain ⟨-,steps⟩ := ite_none_right_eq_some.mp steps
    obtain ⟨system,acts,rfl⟩ := map_eq_some_iff.mp steps
    exact remembers.setSystem (ClaimStep.of_act acts).survives

theorem Remembers.bears_of_retries (remembers : history.Remembers) {first last : Uuid}
    {jobKey : String} {key : Option String} (retries : history.Retries first last)
    (bears : history.system.system.store.HasRequest first (·.Bears jobKey key)) :
    history.system.system.store.HasRequest last (·.Bears jobKey key) := by
  induction retries with
  | refl => exact bears
  | tail earlier isRetry ih =>
    obtain ⟨row,found,isJob,isKey⟩ := ih
    obtain ⟨otherJob,otherKey,⟨same,foundSame,sameJob,sameKey⟩,alsoBears⟩ :=
      remembers.retries _ isRetry
    rw [found] at foundSame
    cases foundSame
    rw [← isJob,← isKey,sameJob,sameKey]
    exact alsoBears

end TriggerHistory

open TriggerHistory

/-- **Repeated triggers start nothing new** unless a trigger with a key is folded into another
signal's execution. -/
theorem repeated_trigger_starts_nothing {window : Int} {labels : List HistoryLabel}
    {history : TriggerHistory}
    (keeps : Along (step window) (TriggerHistory.KeepsKey window) .initial labels)
    (reaches : run (step window) .initial labels = some history)
    (caller : Auth.CallerContext) (request : TriggerRequest) (job : Option FoldJob) (now : Int)
    (id : Uuid) (stamps : Metadata) (fails : Bool) (repeats : history.Repeats window request now) :
    (history.system.handleTrigger window caller request job now id stamps fails).2 =
      history.system := by
  have remembers : history.Remembers :=
    invariant_of_along (fun _ _ _ remembers meets steps => remembers.step meets steps) .initial
      keeps reaches
  obtain ⟨first,member,isJob,hasKey,inTime⟩ := repeats
  obtain ⟨firstId,isFirst,hasRequest⟩ := remembers.accepted first member
  have found : (history.system.dedupTarget window request now).isSome = true := by
    rw [dedupTarget,hasKey,bind_some]
    obtain recent | ⟨other,last,openRow,isOther,retries,foundOpen,isOpen⟩ := inTime
    · obtain ⟨row,foundRow,⟨sameJob,sameKey⟩,created⟩ := hasRequest
      refine Store.isSome_findExecutionByIdempotencyKey foundRow (sameJob.trans isJob) sameKey
        (.inr ?_)
      omega
    · rw [isFirst] at isOther
      cases isOther
      obtain ⟨row,foundRow,⟨sameJob,sameKey⟩,-⟩ := hasRequest
      obtain ⟨lastRow,foundLast,lastJob,lastKey⟩ :=
        remembers.bears_of_retries retries ⟨row,foundRow,sameJob,sameKey⟩
      rw [foundOpen] at foundLast
      cases foundLast
      exact Store.isSome_findExecutionByIdempotencyKey foundOpen (lastJob.trans isJob) lastKey
        (.inl isOpen)
  obtain ⟨existing,isExisting⟩ := isSome_iff_exists.mp found
  simp only [handleTrigger,isExisting]
  repeat' split
  all_goals rfl

def producer : Auth.CallerContext where
  callerType := .apiKey
  callerId := "producer"
  clientId := "producer"
  userId := none
  role := none
  authMethod := .apiKey
  scopes := [Auth.Scope.jobsTrigger]
  tokenGeneration := none

def tenMinutes : Int := 600 * oneSecond

def keyedSignal : TriggerRequest :=
  { importSignal with idempotencyKey := some "evt-1" }

/-- Take and claim the queued item of the job. -/
def claimWaiting (now : Int) : List HistoryLabel :=
  [.other (.poll (.beginPoll "runner-1" [] 1 now now)),.other (.poll (.examineJob false)),
    .other (.poll (.examineGroup false)),.other (.poll (.finishScan now)),
    .other (.poll (.claimNext .none)),.other (.poll .release)]

def keyedTrigger (now : Int) (id : Uuid) : HistoryLabel :=
  .trigger producer keyedSignal (some importJob) now id [] false

/-- A trigger with a key gets its own execution, which is claimed. -/
def keyedRun : List HistoryLabel :=
  [keyedTrigger 1 7,.other .enqueueTriggered] ++ claimWaiting 2

theorem repeated_trigger_starts_nothing_keyed :
    ∃ history, run (step tenMinutes) .initial keyedRun = some history ∧
      history.Repeats tenMinutes keyedSignal 3 ∧
      (history.system.handleTrigger tenMinutes producer keyedSignal (some importJob) 3 8 []
        false).2 = history.system := by
  have keeps : Along (step tenMinutes) (TriggerHistory.KeepsKey tenMinutes)
      .initial keyedRun := by
    decide
  refine ⟨_,rfl,?_,repeated_trigger_starts_nothing keeps rfl _ _ _ _ _ _ _ ?_⟩
  all_goals
    exact ⟨{ jobKey := "data:import", key := "evt-1", acceptedAt := 1, execution := .uuid 7 },
      by decide,rfl,rfl,.inl (by decide)⟩

/-- A bare trigger waits in the queue, one with a key is folded into its execution, which is
claimed. -/
def foldedRun : List HistoryLabel :=
  [.trigger producer importSignal (some importJob) 1 7 [] false,.other .enqueueTriggered,
    keyedTrigger 2 8] ++ claimWaiting 3

/-- Once the run it was folded into is claimed, a trigger that comes again starts its own. -/
theorem repeated_trigger_starts_another :
    ∃ history, run (step tenMinutes) .initial foldedRun = some history ∧
      history.accepted = [⟨"data:import","evt-1",2,.uuid 7⟩] ∧
      history.Repeats tenMinutes keyedSignal 4 ∧
      (history.system.handleTrigger tenMinutes producer keyedSignal (some importJob) 4 9 []
        false).1 = .queued 9 := by
  refine ⟨_,rfl,by decide,?_,by decide⟩
  exact ⟨{ jobKey := "data:import", key := "evt-1", acceptedAt := 2, execution := .uuid 7 },
    by decide,rfl,rfl,.inl (by decide)⟩

end Croniq

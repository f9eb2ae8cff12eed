import Croniq.CompletionProcessor
import Croniq.GroupBudget
import Croniq.JobCompile
import Croniq.PollSteps

/-!
# Folding triggers into queued executions

A job that coalesces has at most one run waiting: a bare trigger looks for a
queued item of the job and, if there is one, is answered with the execution of
that item instead of a new one.
-/

namespace Croniq

open DispatchState KeyedTables LabelledRuns List Option Store WorkItem

def coalesceMetadataKey : String := "__coalesce"

def coalesceScheduleValue : String := "schedule"

def WorkItem.isFoldable (item : WorkItem) : Bool :=
  (item.metadata.lookup coalesceMetadataKey).isSome

structure FoldJob where
  key : String
  metadata : Metadata
  maxQueueDepth : Option Nat
  require : List String
deriving DecidableEq

variable (job : FoldJob)

def FoldJob.declaresCoalesce : Bool :=
  (job.metadata.lookup coalesceMetadataKey).isSome

def FoldJob.coalescesScheduledFires : Bool :=
  job.metadata.lookup coalesceMetadataKey = some coalesceScheduleValue

/-- None, one value per key, or anything else. -/
inductive TriggerPayload where
  | null
  | object (entries : Metadata)
  | other
deriving DecidableEq

structure TriggerRequest where
  jobKey : String
  payload : TriggerPayload
  (require prefer : List String)
  (timeout idempotencyKey : Option String)
deriving DecidableEq

variable (request : TriggerRequest)

/-- A signal that says nothing about its run. -/
def TriggerRequest.isBareSignal : Bool :=
  request.require.isEmpty && request.prefer.isEmpty &&
    !request.timeout.any (fun text => Config.trim text ≠ "") &&
    match request.payload with
    | .null => true
    | .object entries => entries.all fun (key, _) => Config.isReservedMetadataKey key
    | .other => false

def insertMetadata (metadata : Metadata) (entry : String × String) : Metadata :=
  entry :: metadata.filter (·.1 ≠ entry.1)

/-- Those of the job, the payload and the stamps. A run with instructions of its own is no target.
-/
def triggerMetadata (job : Option FoldJob) (stamps : Metadata) : Metadata :=
  let inherited := (job.map FoldJob.metadata).getD []
  let payload : Metadata :=
    match request.payload with
    | .object entries => entries.filter fun entry => !Config.isReservedMetadataKey entry.1
    | _ => []
  let overlaid := payload.foldl insertMetadata inherited
  stamps.foldl insertMetadata
    (if request.isBareSignal then overlaid else overlaid.filter (·.1 ≠ coalesceMetadataKey))

def itemOfExecution (execution : Execution) (require : List String)
    (metadata : Metadata) : WorkItem where
  executionId := .uuid execution.id
  jobKey := execution.jobKey
  fireAt := execution.fireAt
  require := require
  metadata := metadata.map fun (key, text) => (key, .text text)
  isEphemeral := false

variable (queue : List WorkItem)

def findForJob (jobKey : String) (condition : WorkItem → Bool) : Option WorkItem :=
  queue.find? fun item => item.jobKey = jobKey && condition item

def countForJob (jobKey : String) : Nat :=
  queue.countP (·.jobKey = jobKey)

def Store.rowOf (store : Store) : ExecutionId → Option Execution
  | .uuid id => store.getExecution id
  | .text _ => none

/-- A signal answered with a queued execution: the state of its row then, and whether it was
claimed since. -/
structure Fold where
  target : ExecutionId
  rowState : Option ExecutionState
  claimedSince : Bool
deriving DecidableEq

def Fold.mark (store : Store) (fold : Fold) : Fold :=
  { fold with
    claimedSince :=
      fold.claimedSince || (store.rowOf fold.target).any (·.state = .claimed) }

/-- `locked` is the item of a trigger with the queue lock, `unpublished` those that wait for it;
their rows are written. -/
structure FoldState where
  system : DispatchState
  locked : Option WorkItem
  unpublished : List WorkItem
  folds : List Fold

inductive FoldLabel where
  | poll (label : DispatchLabel)
  | write (op : StoreOp)
  | trigger (request : TriggerRequest) (job : Option FoldJob) (now : Int) (id : Uuid)
      (stamps : Metadata) (fails : Bool)
  | enqueueTriggered
  | scheduledFire (job : FoldJob) (fireAt now : Int) (id : Uuid) (stamps : Metadata)
      (withinQuota fails : Bool)
  | createRetry (report : Report) (retryId : Uuid) (nextAttempt delay : Nat)
  | handBack (item : WorkItem) (fails : Bool)
  | publish (item : WorkItem)
  | cancel (id : Uuid) (now : Int)

namespace FoldState

def initial : FoldState where
  system := .initial
  locked := none
  unpublished := []
  folds := []

variable (state : FoldState)

def lockFree : Bool :=
  state.locked.isNone &&
    match state.system.poll with
    | .idle => true
    | _ => false

def fold (target : WorkItem) : FoldState :=
  { state with
    folds :=
      state.folds ++
        [{ target := target.executionId
           rowState := (state.system.store.rowOf target.executionId).map Execution.state
           claimedSince := false }] }

/-- Write the row of a new item, unless the store fails. -/
def persist (execution : Execution) (item : WorkItem) (locks : Bool) : FoldState :=
  match state.system.store.createExecution execution with
  | .error _ => state
  | .ok created =>
    { state with
      system := state.system.setStore created
      locked := if locks then some item else state.locked
      unpublished := if locks then state.unpublished else state.unpublished ++ [item] }

def trigger (request : TriggerRequest) (job : Option FoldJob) (now : Int)
    (id : Uuid) (stamps : Metadata) (fails : Bool) : FoldState :=
  let mayFold := job.any FoldJob.declaresCoalesce && request.isBareSignal
  match if mayFold then findForJob state.system.queue request.jobKey isFoldable else none
  with
  | some target => state.fold target
  | none =>
    let maxQueueDepth := (job.bind FoldJob.maxQueueDepth).getD 10
    if maxQueueDepth ≤ countForJob state.system.queue request.jobKey || fails then state
    else
      let metadata := triggerMetadata request job stamps
      let fresh := newExecution id request.jobKey now now request.idempotencyKey metadata
      let require :=
        if request.require.isEmpty then (job.map FoldJob.require).getD [] else request.require
      state.persist fresh.execution (itemOfExecution fresh.execution require metadata) mayFold

/-- A due fire of a job that is not ephemeral. -/
def scheduledFire (job : FoldJob) (fireAt now : Int) (id : Uuid)
    (stamps : Metadata) (withinQuota fails : Bool) : FoldState :=
  match
    if job.coalescesScheduledFires then
      findForJob state.system.queue job.key isFoldable
    else none
  with
  | some target => state.fold target
  | none =>
    if job.maxQueueDepth.getD 10 ≤ countForJob state.system.queue job.key || !withinQuota ||
        fails then
      state
    else
      let fresh :=
        newExecution id job.key fireAt now none (stamps.foldl insertMetadata job.metadata)
      state.persist fresh.execution (itemOfExecution fresh.execution job.require job.metadata)
        false

def handBack (item : WorkItem) (fails : Bool) : FoldState :=
  let taken :=
    { state with system := { state.system with refused := state.system.refused.erase item } }
  match item.executionId with
  | .text _ => { taken with unpublished := state.unpublished ++ [item] }
  | .uuid id =>
    if fails then taken
    else
      let requeued := state.system.store.requeueIfClaimed id
      { taken with
        system := taken.system.setStore requeued.1
        unpublished := if requeued.2 then state.unpublished ++ [item] else state.unpublished }

def setQueue (queue : List WorkItem) : FoldState :=
  { state with system := { state.system with queue } }

def act : FoldLabel → Option FoldState
  | .poll label =>
    if label.isPoll && state.locked.isNone then
      (state.system.step label).map fun system => { state with system }
    else none
  | .write op =>
    if op.isClaim || op.isCancel then none
    else some { state with system := state.system.setStore (op.apply state.system.store) }
  | .trigger request job now id stamps fails =>
    if state.lockFree then some (state.trigger request job now id stamps fails) else none
  | .enqueueTriggered =>
    match state.locked, state.system.poll with
    | some item, .idle =>
      some ({ state with locked := none }.setQueue (enqueue state.system.queue item))
    | _, _ => none
  | .scheduledFire job fireAt now id stamps withinQuota fails =>
    if state.lockFree then
      some (state.scheduledFire job fireAt now id stamps withinQuota fails)
    else none
  | .createRetry report retryId nextAttempt delay =>
    some
      (state.persist (report.retryExecution retryId nextAttempt delay).execution
        (report.retryItem retryId delay) false)
  | .handBack item fails =>
    if item ∈ state.system.refused then some (state.handBack item fails) else none
  | .publish item =>
    if state.lockFree && item ∈ state.unpublished then
      some
        ({ state with unpublished := state.unpublished.erase item }.setQueue
          (enqueue state.system.queue item))
    else none
  | .cancel id now =>
    some { state with
      system := state.system.setStore (state.system.store.cancelExecution id now) }

/-- A step, and the folded executions it claims. -/
def step (label : FoldLabel) : Option FoldState :=
  (state.act label).map fun next => { next with folds := next.folds.map (.mark next.system.store) }

end FoldState

/-- A step claims no row, or is the claim of the first item of the batch. -/
inductive ClaimStep (state next : FoldState) (label : FoldLabel) : Prop
  | other (op : StoreOp) (notClaim : op.isClaim = false)
      (rows : RowsStep op state.system.store.executions next.system.store.executions)
  | claim (fault : ClaimFault) (item : WorkItem) (id : Uuid) (runnerId : String) (now : Int)
      (row : Execution) (isClaim : label = .poll (.claimNext fault))
      (isFirst : state.system.poll.batch.head? = some item) (isUuid : item.executionId = .uuid id)
      (claims : state.system.store.claimExecution id runnerId now = .ok (row, next.system.store))

namespace ClaimStep

variable {state next : FoldState} {label : FoldLabel}

theorem of_same (same : next.system.store = state.system.store) : ClaimStep state next label :=
  .other (.requeueIfClaimed 0) rfl (.unchanged (congrArg executions same))

section

variable (state : FoldState)

theorem persist (fresh : FreshExecution) (item : WorkItem)
    (locks : Bool) : ClaimStep state (state.persist fresh.execution item locks) label := by
  unfold FoldState.persist
  split
  · exact .of_same rfl
  · rename_i created creates
    exact .other (.create fresh) rfl (createExecution_rowsStep fresh creates)

theorem trigger (request : TriggerRequest) (job : Option FoldJob)
    (now : Int) (id : Uuid) (stamps : Metadata) (fails : Bool) :
    ClaimStep state (state.trigger request job now id stamps fails) label := by
  unfold FoldState.trigger
  dsimp only
  split
  · exact .of_same rfl
  · split
    · exact .of_same rfl
    · exact .persist state _ _ _

theorem scheduledFire (job : FoldJob) (fireAt now : Int) (id : Uuid)
    (stamps : Metadata) (withinQuota fails : Bool) :
    ClaimStep state (state.scheduledFire job fireAt now id stamps withinQuota fails) label := by
  unfold FoldState.scheduledFire
  split
  · exact .of_same rfl
  · split
    · exact .of_same rfl
    · exact .persist state _ _ _

theorem handBack (item : WorkItem) (fails : Bool) :
    ClaimStep state (state.handBack item fails) label := by
  unfold FoldState.handBack
  split
  · exact .of_same rfl
  rename_i id isUuid
  split
  · exact .of_same rfl
  · exact .other (.requeueIfClaimed id) rfl
      (StoreOp.apply_rowsStep state.system.store (.requeueIfClaimed id))

end

theorem poll {label : DispatchLabel} {system : DispatchState} (isPoll : label.isPoll = true)
    (steps : state.system.step label = some system) :
    ClaimStep state { state with system } (.poll label) := by
  by_cases isClaim : ∃ fault, label = .claimNext fault
  · obtain ⟨fault,rfl⟩ := isClaim
    simp only [step] at steps
    split at steps
    · rename_i runnerId now item remaining kept holder
      cases steps
      rcases claimItem_cases state.system.store runnerId now item fault with
        ⟨sameStore,_⟩ | ⟨_,_,id,row,isUuid,claims⟩
      · exact .of_same sameStore
      · exact .claim fault item id runnerId now row rfl (by rw [holder]; rfl) isUuid claims
    · cases steps
  · exact .of_same (store_of_poll_step isPoll (not_exists.mp isClaim) steps)

theorem of_act (acts : state.act label = some next) : ClaimStep state next label := by
  cases label with
  | poll =>
    obtain ⟨isPoll,acts⟩ := ite_none_right_eq_some.mp acts
    obtain ⟨system,steps,rfl⟩ := map_eq_some_iff.mp acts
    exact .poll (Bool.and_eq_true_iff.mp isPoll).1 steps
  | write op =>
    obtain ⟨isOther,rfl⟩ := of_unless acts
    simp only [Bool.or_eq_true,not_or,Bool.not_eq_true] at isOther
    exact .other op isOther.1 (op.apply_rowsStep _)
  | trigger request job now id stamps fails =>
    obtain ⟨-,rfl⟩ := of_guard acts
    exact .trigger state request job now id stamps fails
  | enqueueTriggered =>
    simp only [FoldState.act] at acts
    split at acts <;> cases acts
    exact .of_same rfl
  | scheduledFire job fireAt now id stamps withinQuota fails =>
    obtain ⟨-,rfl⟩ := of_guard acts
    exact .scheduledFire state job fireAt now id stamps withinQuota fails
  | createRetry =>
    cases acts
    exact .persist state _ _ _
  | handBack item fails =>
    obtain ⟨-,rfl⟩ := of_guard acts
    exact .handBack state item fails
  | publish =>
    obtain ⟨-,rfl⟩ := of_guard acts
    exact .of_same rfl
  | cancel id now =>
    cases acts
    exact .other (.cancel id now) rfl (state.system.store.cancelExecution_rowsStep id now)

theorem survives (step : ClaimStep state next label) :
    state.system.store.Survives next.system.store := by
  cases step with
  | other op notClaim rows => exact survives_of_rowsStep rows
  | claim fault item id runnerId now row isClaim isFirst isUuid claims =>
    exact survives_of_rowsStep (claimExecution_rowsStep claims)

end ClaimStep

/-- The row of an execution is in such a state. -/
def Store.HasRow (store : Store) (id : ExecutionId) (condition : ExecutionState → Prop) : Prop :=
  ∃ row, store.rowOf id = some row ∧ condition row.state

variable {store before after : Store} {id : ExecutionId} {condition : ExecutionState → Prop}

theorem Store.HasRow.isUuid (hasRow : store.HasRow id condition) : ∃ uuid, id = .uuid uuid := by
  obtain ⟨row,found,_⟩ := hasRow
  cases id with
  | uuid uuid => exact ⟨uuid,rfl⟩
  | text => cases found

theorem Store.HasRow.mono {weaker : ExecutionState → Prop} (hasRow : store.HasRow id condition)
    (implies : ∀ state, condition state → weaker state) : store.HasRow id weaker := by
  obtain ⟨row,found,meets⟩ := hasRow
  exact ⟨row,found,implies _ meets⟩

theorem Store.HasRow.unclaimed_of_rowsStep {op : StoreOp}
    (rows : RowsStep op before.executions after.executions) (notClaim : op.isClaim = false)
    (hasRow : before.HasRow id (· ≠ .claimed)) : after.HasRow id (· ≠ .claimed) := by
  obtain ⟨uuid,rfl⟩ := hasRow.isUuid
  obtain ⟨row,found,notClaimed⟩ := hasRow
  obtain ⟨next,foundNext,_⟩ := rows.survives found
  refine ⟨next,foundNext,fun isClaimed => ?_⟩
  have foundBefore : before.rowOf (.uuid uuid) = some next :=
    rows.find?_of_claimed notClaim foundNext isClaimed
  rw [found] at foundBefore
  cases foundBefore
  exact notClaimed isClaimed

/-- The states of the row of a waiting item. -/
structure WaitingStates (allowed : ExecutionState → Prop) : Prop where
  queued : allowed .queued
  unclaimed : ∀ state, allowed state → state ≠ .claimed
  kept : ∀ (store : Store) (op : StoreOp) (id : ExecutionId), op.isClaim = false →
    op.isCancel = false → store.HasRow id allowed → (op.apply store).HasRow id allowed

theorem WaitingStates.onlyQueued : WaitingStates (· = .queued) where
  queued := rfl
  unclaimed := by
    rintro _ rfl
    nofun
  kept := by
    intro store op id notClaim notCancel hasRow
    obtain ⟨uuid,rfl⟩ := hasRow.isUuid
    obtain ⟨row,found,queued⟩ := hasRow
    exact ⟨row,StoreOp.getExecution_apply_of_queued notClaim notCancel found queued,queued⟩

theorem WaitingStates.notClaimed : WaitingStates (· ≠ .claimed) where
  queued := nofun
  unclaimed := fun _ notClaimed => notClaimed
  kept := fun store op _ notClaim _ hasRow =>
    hasRow.unclaimed_of_rowsStep (op.apply_rowsStep store) notClaim

/-- The fold met a queued row, and its run came later unless cancelled. -/
def Fold.Covered (store : Store) (fold : Fold) : Prop :=
  fold.rowState = some .queued ∧
    store.HasRow fold.target fun state =>
      state = .queued ∨ state = .cancelled ∨ fold.claimedSince = true

theorem Fold.Covered.mark (survives : before.Survives after) {fold : Fold}
    (covered : fold.Covered before) : (fold.mark after).Covered after := by
  obtain ⟨wasQueued,hasRow⟩ := covered
  obtain ⟨id,isUuid⟩ := hasRow.isUuid
  obtain ⟨row,found,covers⟩ := hasRow
  rw [isUuid] at found
  obtain ⟨next,foundNext,follows⟩ := survives id row found
  have foundTarget : after.rowOf fold.target = some next := by
    rw [isUuid]
    exact foundNext
  refine ⟨wasQueued,next,foundTarget,?_⟩
  have marked : next.state = .claimed → (fold.mark after).claimedSince = true := by
    intro isClaimed
    simp [Fold.mark,foundTarget,isClaimed]
  have keepsMark : fold.claimedSince = true → (fold.mark after).claimedSince = true := by
    intro isMarked
    simp [Fold.mark,isMarked]
  rcases covers with isQueued | isCancelled | isMarked
  · rcases follows.state with same | change
    · exact .inl (same.trans isQueued)
    · rw [isQueued] at change
      cases isNext : next.state <;> rw [isNext] at change <;> cases change
      · exact .inr (.inr (marked isNext))
      · exact .inr (.inl rfl)
  · rcases follows.state with same | change
    · exact .inr (.inl (same.trans isCancelled))
    · rw [isCancelled] at change
      cases change
  · exact .inr (.inr (keepsMark isMarked))

namespace FoldState

/-- The items a fold can meet now or later: their runs have not started. -/
def waiting (state : FoldState) : List WorkItem :=
  state.system.queue ++ (state.locked.toList ++ state.unpublished)

/-- Only executions whose item is not waiting are cancelled. -/
def CancelsStarted (state : FoldState) : FoldLabel → Prop
  | .cancel id _ => ∀ item ∈ state.waiting, item.executionId ≠ .uuid id
  | _ => True

instance (state : FoldState) (label : FoldLabel) : Decidable (state.CancelsStarted label) := by
  cases label <;> unfold CancelsStarted <;> infer_instance

/-- One item an execution, the row of a waiting item in an allowed state, and no row of the batch
claimed yet. -/
structure Arranged (allowed : ExecutionState → Prop) (state : FoldState) : Prop where
  states : WaitingStates allowed
  within : state.system.poll.Within state.system.queue
  distinct : ((state.waiting ++ state.system.poll.batch).map executionId).Nodup
  waits : ∀ item ∈ state.waiting, state.system.store.HasRow item.executionId allowed
  unclaimed : ∀ item ∈ state.system.poll.batch,
    state.system.store.HasRow item.executionId (· ≠ .claimed)
  handled : ∀ item ∈ state.system.handled, ∃ id, item.executionId = .uuid id

theorem Arranged.initial {allowed : ExecutionState → Prop} (states : WaitingStates allowed) :
    FoldState.initial.Arranged allowed where
  states := states
  within := trivial
  distinct := nodup_nil
  waits := fun _ member => nomatch member
  unclaimed := fun _ member => nomatch member
  handled := fun _ member => nomatch member

variable {state next : FoldState} {allowed : ExecutionState → Prop} {item : WorkItem}
  {locked : Option WorkItem} {unpublished : List WorkItem} {locks : Bool}

theorem perm_await (item : WorkItem) (unlocked : locks = true → locked = none) :
    ((if locks then some item else locked).toList ++
      if locks then unpublished else unpublished ++ [item]).Perm
        (item :: (locked.toList ++ unpublished)) := by
  cases locks with
  | true =>
    rw [unlocked rfl]
    exact .refl _
  | false =>
    rw [if_neg Bool.false_ne_true,if_neg Bool.false_ne_true,← append_assoc]
    exact perm_append_singleton item _

theorem folds_handBack (state : FoldState) (item : WorkItem) (fails : Bool) :
    (state.handBack item fails).folds = state.folds := by
  unfold FoldState.handBack
  split
  · rfl
  · split <;> rfl

theorem lockFree_iff : state.lockFree = true ↔ state.locked = none ∧ state.system.poll = .idle := by
  unfold lockFree
  cases state.locked <;> cases state.system.poll <;> simp

variable (arranged : state.Arranged allowed)
include arranged

theorem Arranged.ne_of_mem_batch {other : WorkItem}
    (isWaiting : item ∈ state.waiting) (inBatch : other ∈ state.system.poll.batch) :
    item.executionId ≠ other.executionId := by
  have distinct := arranged.distinct
  rw [map_append,nodup_append] at distinct
  exact distinct.2.2 _ (mem_map_of_mem isWaiting) _ (mem_map_of_mem inBatch)

theorem Arranged.setStore {store : Store}
    (waits : ∀ item ∈ state.waiting, store.HasRow item.executionId allowed)
    (unclaimed : ∀ item ∈ state.system.poll.batch, store.HasRow item.executionId (· ≠ .claimed)) :
    { state with system := state.system.setStore store }.Arranged allowed := by
  obtain ⟨sameBatch,_,sameWithin⟩ := state.system.poll_setStore store
  refine ⟨arranged.states,sameWithin.mpr arranged.within,?_,waits,?_,?_⟩
  · rw [sameBatch]
    exact arranged.distinct
  · rw [sameBatch]
    exact unclaimed
  · rw [handled_setStore]
    exact arranged.handled

theorem Arranged.write (op : StoreOp)
    (notClaim : op.isClaim = false) (notCancel : op.isCancel = false) : { state with
      system := state.system.setStore (op.apply state.system.store) }.Arranged allowed := by
  refine arranged.setStore ?_ ?_
  · intro item isWaiting
    exact arranged.states.kept _ op _ notClaim notCancel (arranged.waits item isWaiting)
  · intro item inBatch
    exact (arranged.unclaimed item inBatch).unclaimed_of_rowsStep (op.apply_rowsStep _) notClaim

variable {now : Int} {system : DispatchState} {label : FoldLabel}

theorem Arranged.cancel {id : Uuid}
    (started : ∀ item ∈ state.waiting, item.executionId ≠ .uuid id) : { state with
      system := state.system.setStore (state.system.store.cancelExecution id now)
      }.Arranged allowed := by
  refine arranged.setStore ?_ ?_
  · intro item isWaiting
    have hasRow := arranged.waits item isWaiting
    have differs := started item isWaiting
    obtain ⟨other,isUuid⟩ := hasRow.isUuid
    rw [isUuid] at hasRow differs ⊢
    obtain ⟨row,found,isAllowed⟩ := hasRow
    exact ⟨row,getExecution_cancelExecution_of_ne found now fun same =>
      differs (same ▸ rfl),isAllowed⟩
  · intro item inBatch
    exact (arranged.unclaimed item inBatch).unclaimed_of_rowsStep
      (state.system.store.cancelExecution_rowsStep id now) rfl

theorem Arranged.of_perm (within : next.system.poll.Within next.system.queue)
    (sameStore : next.system.store = state.system.store)
    (places : (next.waiting ++ next.system.poll.batch).Perm
      (state.waiting ++ state.system.poll.batch))
    (waiting : next.waiting ⊆ state.waiting)
    (handled : next.system.handled ⊆ state.system.handled) : next.Arranged allowed := by
  refine ⟨arranged.states,within,(places.map _).nodup_iff.mpr arranged.distinct,?_,?_,?_⟩
  · intro item isWaiting
    rw [sameStore]
    exact arranged.waits item (waiting isWaiting)
  · intro item inBatch
    rw [sameStore]
    rcases mem_append.mp (places.subset (mem_append_right _ inBatch)) with
      isWaiting | wasInBatch
    · exact (arranged.waits item isWaiting).mono arranged.states.unclaimed
    · exact arranged.unclaimed item wasInBatch
  · exact fun item isHandled => arranged.handled item (handled isHandled)

/-- The claim of an item of the batch: the row was queued, and no waiting item is for it. -/
theorem Arranged.claim {runnerId : String} {fault : ClaimFault}
    (store : system.store = (claimItem state.system.store runnerId now item fault).store)
    (sameQueue : system.queue = state.system.queue)
    (batch : state.system.poll.batch = item :: system.poll.batch)
    (handled : system.handled ⊆ item :: state.system.handled)
    (within : system.poll.Within system.queue) : { state with system }.Arranged allowed := by
  have sameWaiting : { state with system }.waiting = state.waiting := by
    simp only [waiting,sameQueue]
  have distinct := arranged.distinct
  rw [batch] at distinct
  have inBatch : ∀ other ∈ system.poll.batch, other ∈ state.system.poll.batch :=
    fun other isOther => batch ▸ mem_cons_of_mem item isOther
  have itemInBatch : item ∈ state.system.poll.batch := batch ▸ mem_cons_self
  obtain ⟨id,isUuid⟩ := (arranged.unclaimed item itemInBatch).isUuid
  have itemDiffers : ∀ other ∈ system.poll.batch, other.executionId ≠ .uuid id := by
    rw [map_append,nodup_append,map_cons,nodup_cons] at distinct
    intro other isOther same
    exact distinct.2.1.1 (isUuid ▸ same ▸ mem_map_of_mem isOther)
  have stillDistinct :
      (({ state with system }.waiting ++ system.poll.batch).map executionId).Nodup := by
    rw [sameWaiting]
    exact distinct.sublist (((sublist_cons_self item _).append_left _).map _)
  have stillHandled : ∀ other ∈ system.handled, ∃ id, other.executionId = .uuid id := by
    intro other isHandled
    rcases mem_cons.mp (handled isHandled) with rfl | wasHandled
    · exact ⟨id,isUuid⟩
    · exact arranged.handled other wasHandled
  -- rows of other executions are untouched
  have keeps : ∀ other condition, other ≠ .uuid id → state.system.store.HasRow other condition →
      system.store.HasRow other condition := by
    intro other condition differs hasRow
    rcases claimItem_cases state.system.store runnerId now item fault with
      ⟨sameStore,_⟩ | ⟨_,_,claimedId,row,isClaimed,claims⟩
    · rwa [store,sameStore]
    obtain ⟨otherId,rfl⟩ := hasRow.isUuid
    rw [isUuid] at isClaimed
    cases isClaimed
    obtain ⟨otherRow,found,meets⟩ := hasRow
    refine ⟨otherRow,?_,meets⟩
    rw [store]
    exact (getExecution_claimExecution_of_ne claims fun same => differs (same ▸ rfl)).trans found
  refine ⟨arranged.states,within,stillDistinct,?_,?_,stillHandled⟩
  · intro other isWaiting
    rw [sameWaiting] at isWaiting
    have differs := arranged.ne_of_mem_batch isWaiting itemInBatch
    exact keeps _ _ (isUuid ▸ differs) (arranged.waits other isWaiting)
  · intro other isOther
    exact keeps _ _ (itemDiffers other isOther) (arranged.unclaimed other (inBatch other isOther))

theorem Arranged.poll {label : DispatchLabel}
    (isPoll : label.isPoll = true) (steps : state.system.step label = some system) :
    { state with system }.Arranged allowed := by
  obtain ⟨within,change⟩ := batchChange_of_step isPoll arranged.within steps
  cases change with
  | none sameStore sameQueue sameBatch handled =>
    have sameWaiting : { state with system }.waiting = state.waiting := by
      simp only [waiting,sameQueue]
    refine arranged.of_perm within sameStore ?_ ?_ handled
    · rw [sameWaiting]
      exact .of_eq (congrArg _ sameBatch)
    · rw [sameWaiting]
      exact List.Subset.refl _
  | took item inQueue sameStore queue batch handled =>
    refine arranged.of_perm within sameStore ?_ ?_ handled
    · simp only [waiting,queue,batch]
      rw [← append_assoc]
      refine (perm_append_singleton item _).trans ?_
      exact ((perm_cons_erase inQueue).symm.append_right _).append_right _
    · simp only [waiting,queue]
      intro other isOther
      rcases mem_append.mp isOther with inRest | isLater
      · exact mem_append_left _ (mem_of_mem_erase inRest)
      · exact mem_append_right _ isLater
  | claimed runnerId now item fault store sameQueue batch handled =>
    exact arranged.claim store sameQueue batch handled within

theorem Arranged.await (item : WorkItem) (places : (locked.toList ++ unpublished).Perm
      (item :: (state.locked.toList ++ state.unpublished)))
    (hasRow : state.system.store.HasRow item.executionId (· = .queued)) (isNew : item.executionId ∉
      (state.waiting ++ state.system.poll.batch).map executionId) :
    { state with locked, unpublished }.Arranged allowed := by
  have waits : { state with locked, unpublished }.waiting.Perm (item :: state.waiting) :=
    (places.append_left _).trans perm_middle
  refine { arranged with distinct := ?_, waits := ?_ }
  · refine ((waits.append_right _).map _).nodup_iff.mpr ?_
    exact nodup_cons.mpr ⟨isNew,arranged.distinct⟩
  · intro other isWaiting
    rcases mem_cons.mp (waits.subset isWaiting) with rfl | wasWaiting
    · exact hasRow.mono fun _ isQueued => isQueued ▸ arranged.states.queued
    · exact arranged.waits other wasWaiting

variable (fresh : FreshExecution)

theorem Arranged.persist (isUuid : item.executionId = .uuid fresh.execution.id)
    (unlocked : locks = true → state.locked = none) :
    (state.persist fresh.execution item locks).Arranged allowed := by
  unfold FoldState.persist
  split
  · exact arranged
  rename_i created creates
  have keeps : ∀ other condition, state.system.store.HasRow other condition →
      created.HasRow other condition := by
    intro other condition hasRow
    obtain ⟨id,rfl⟩ := hasRow.isUuid
    obtain ⟨row,found,meets⟩ := hasRow
    exact ⟨row,getExecution_createExecution_of_found creates found,meets⟩
  have noRow : ∀ condition, ¬ state.system.store.HasRow item.executionId condition := by
    rintro condition ⟨row,found,_⟩
    rw [isUuid] at found
    exact nomatch (getExecution_eq_none_of_createExecution creates).symm.trans found
  have written := arranged.setStore
    (fun other isWaiting => keeps _ _ (arranged.waits other isWaiting))
    (fun other inBatch => keeps _ _ (arranged.unclaimed other inBatch))
  refine written.await item (perm_await item unlocked) ?_ ?_
  · rw [isUuid]
    exact ⟨fresh.execution,getExecution_createExecution creates,fresh.queued⟩
  · intro isOld
    obtain ⟨other,isOther,sameId⟩ := mem_map.mp isOld
    rcases mem_append.mp isOther with isWaiting | inBatch
    · exact noRow _ (sameId ▸ arranged.waits other isWaiting)
    · rw [(state.system.poll_setStore created).1] at inBatch
      exact noRow _ (sameId ▸ arranged.unclaimed other inBatch)

theorem Arranged.joinQueue (places : (item :: (locked.toList ++ unpublished)).Perm
      (state.locked.toList ++ state.unpublished)) (isIdle : state.system.poll = .idle) :
    ({ state with locked, unpublished }.setQueue
      (enqueue state.system.queue item)).Arranged allowed := by
  have waits : (state.system.queue ++ [item] ++ (locked.toList ++ unpublished)).Perm
      state.waiting := by
    rw [append_assoc]
    exact places.append_left _
  have isNew : item.executionId ∉ state.system.queue.map executionId := by
    have distinct := ((waits.append_right state.system.poll.batch).map
      executionId).nodup_iff.mpr arranged.distinct
    simp only [map_append,nodup_append] at distinct
    intro isOld
    exact distinct.1.1.2.2 _ isOld _ mem_cons_self rfl
  rw [enqueue_eq,if_neg isNew]
  refine arranged.of_perm (.of_idle isIdle) rfl ?_ ?_ (List.Subset.refl _)
  · exact waits.append_right _
  · exact waits.subset

theorem Arranged.takeRefused (item : WorkItem) : { state with
      system := { state.system with refused := state.system.refused.erase item }
      }.Arranged allowed := by
  refine arranged.of_perm arranged.within rfl (.refl _) (List.Subset.refl _) ?_
  intro other isHandled
  simp only [DispatchState.handled,mem_append] at isHandled ⊢
  exact isHandled.imp_right mem_of_mem_erase

theorem Arranged.handBack (isRefused : item ∈ state.system.refused) (fails : Bool) :
    (state.handBack item fails).Arranged allowed := by
  have taken := arranged.takeRefused item
  obtain ⟨id,isUuid⟩ := arranged.handled item (mem_append_right _ isRefused)
  simp only [FoldState.handBack,isUuid]
  split
  · exact taken
  have written : { state with
      system := { state.system with refused := state.system.refused.erase item }.setStore
        (state.system.store.requeueIfClaimed id).1 }.Arranged allowed :=
    taken.write (.requeueIfClaimed id) rfl rfl
  split
  · rename_i requeued
    obtain ⟨row,found,isClaimed⟩ :=
      (state.system.store.requeueIfClaimed_eq_true_iff id).mp requeued
    have notWaiting : ∀ condition, ¬ condition .claimed →
        ¬ state.system.store.HasRow item.executionId condition := by
      rintro condition unmet ⟨other,foundOther,meets⟩
      rw [isUuid] at foundOther
      cases found.symm.trans foundOther
      exact unmet (isClaimed ▸ meets)
    refine written.await item ?_ ?_ ?_
    · rw [← append_assoc]
      exact perm_append_singleton item _
    · rw [isUuid]
      exact ⟨_,getExecution_requeueIfClaimed found isClaimed,rfl⟩
    · intro isOld
      obtain ⟨other,isOther,sameId⟩ := mem_map.mp isOld
      rcases mem_append.mp isOther with isWaiting | inBatch
      · exact notWaiting allowed (fun isAllowed => arranged.states.unclaimed _ isAllowed rfl)
          (sameId ▸ arranged.waits other isWaiting)
      · rw [(poll_setStore _ _).1] at inBatch
        exact notWaiting (· ≠ .claimed) (by simp) (sameId ▸ arranged.unclaimed other inBatch)
  · exact written

/-- What every step but the record of the folds keeps. -/
structure Follows (allowed : ExecutionState → Prop) (state next : FoldState) : Prop where
  arranged : next.Arranged allowed
  survives : state.system.store.Survives next.system.store
  folds : ∀ fold ∈ next.folds, fold ∈ state.folds ∨
    ∃ rowState, allowed rowState ∧ fold.rowState = some rowState ∧
      next.system.store.HasRow fold.target (· = rowState)

theorem Arranged.stays : state.Follows allowed state :=
  ⟨arranged,.refl _,fun _ => .inl⟩

theorem Arranged.fold {target : WorkItem} {jobKey : String} {condition : WorkItem → Bool}
    (found : findForJob state.system.queue jobKey condition = some target) :
    state.Follows allowed (state.fold target) := by
  refine ⟨{ arranged with },.refl _,?_⟩
  intro fold isFold
  rcases mem_append.mp isFold with old | new
  · exact .inl old
  cases mem_singleton.mp new
  obtain ⟨row,foundRow,isAllowed⟩ := arranged.waits target
    (mem_append_left _ (mem_of_find?_eq_some found))
  exact .inr ⟨row.state,isAllowed,by rw [foundRow,map_some],row,foundRow,rfl⟩

theorem Arranged.follows_persist (isUuid : item.executionId = .uuid fresh.execution.id)
    (unlocked : locks = true → state.locked = none) :
    state.Follows allowed (state.persist fresh.execution item locks) := by
  refine ⟨arranged.persist fresh isUuid unlocked,
    (@ClaimStep.persist .enqueueTriggered state fresh item locks).survives,
    fun fold isFold => .inl ?_⟩
  unfold FoldState.persist at isFold
  split at isFold <;> exact isFold

theorem Arranged.trigger (unlocked : state.locked = none)
    (request : TriggerRequest) (job : Option FoldJob) (now : Int) (id : Uuid)
    (stamps : Metadata) (fails : Bool) :
    state.Follows allowed (state.trigger request job now id stamps fails) := by
  unfold FoldState.trigger
  dsimp only
  split
  · rename_i target isTarget
    split at isTarget
    · exact arranged.fold isTarget
    · cases isTarget
  · split
    · exact arranged.stays
    · exact arranged.follows_persist _ rfl fun _ => unlocked

theorem Arranged.scheduledFire (job : FoldJob) (fireAt now : Int) (id : Uuid)
    (stamps : Metadata) (withinQuota fails : Bool) :
    state.Follows allowed (state.scheduledFire job fireAt now id stamps withinQuota fails) := by
  unfold FoldState.scheduledFire
  split
  · rename_i target isTarget
    split at isTarget
    · exact arranged.fold isTarget
    · cases isTarget
  · split
    · exact arranged.stays
    · exact arranged.follows_persist _ rfl fun locks => nomatch locks

theorem Arranged.act (started : state.CancelsStarted label) (acts : state.act label = some next) :
    state.Follows allowed next := by
  have survives := (ClaimStep.of_act acts).survives
  cases label with
  | poll =>
    obtain ⟨isPoll,acts⟩ := ite_none_right_eq_some.mp acts
    obtain ⟨system,steps,rfl⟩ := map_eq_some_iff.mp acts
    exact ⟨arranged.poll (Bool.and_eq_true_iff.mp isPoll).1 steps,survives,fun _ => .inl⟩
  | write op =>
    obtain ⟨isOther,rfl⟩ := of_unless acts
    simp only [Bool.or_eq_true,not_or,Bool.not_eq_true] at isOther
    exact ⟨arranged.write op isOther.1 isOther.2,survives,fun _ => .inl⟩
  | trigger request job now id stamps fails =>
    obtain ⟨isFree,rfl⟩ := of_guard acts
    exact arranged.trigger (lockFree_iff.mp isFree).1 request job now id stamps fails
  | enqueueTriggered =>
    simp only [FoldState.act] at acts
    split at acts
    · rename_i item isLocked isIdle
      cases acts
      refine ⟨arranged.joinQueue ?_ isIdle,survives,fun _ => .inl⟩
      rw [isLocked]
      exact .refl _
    · cases acts
  | scheduledFire job fireAt now id stamps withinQuota fails =>
    obtain ⟨-,rfl⟩ := of_guard acts
    exact arranged.scheduledFire job fireAt now id stamps withinQuota fails
  | createRetry =>
    cases acts
    exact arranged.follows_persist _ rfl fun locks => nomatch locks
  | handBack item fails =>
    obtain ⟨isRefused,rfl⟩ := of_guard acts
    refine ⟨arranged.handBack isRefused fails,survives,fun fold isFold => .inl ?_⟩
    rwa [folds_handBack] at isFold
  | publish item =>
    obtain ⟨canJoin,rfl⟩ := of_guard acts
    obtain ⟨isFree,isUnpublished⟩ := Bool.and_eq_true_iff.mp canJoin
    refine ⟨arranged.joinQueue ?_ (lockFree_iff.mp isFree).2,.refl _,fun _ => .inl⟩
    refine perm_middle.symm.trans (List.Perm.append_left _ ?_)
    exact (perm_cons_erase (of_decide_eq_true isUnpublished)).symm
  | cancel =>
    cases acts
    exact ⟨arranged.cancel started,survives,fun _ => .inl⟩

omit arranged

/-- The items are in order, and every folded signal is covered. -/
structure Coalescing (state : FoldState) : Prop where
  arranged : state.Arranged (· = .queued)
  folds : ∀ fold ∈ state.folds, fold.Covered state.system.store

theorem Coalescing.initial : FoldState.initial.Coalescing where
  arranged := .initial .onlyQueued
  folds := fun _ member => nomatch member

theorem Coalescing.step (coalescing : state.Coalescing)
    (started : state.CancelsStarted label) (steps : state.step label = some next) :
    next.Coalescing := by
  obtain ⟨acted,acts,rfl⟩ := map_eq_some_iff.mp steps
  obtain ⟨arranged,survives,folds⟩ := coalescing.arranged.act started acts
  refine ⟨{ arranged with },?_⟩
  intro fold isFold
  obtain ⟨before,isBefore,rfl⟩ := mem_map.mp isFold
  rcases folds before isBefore with old | ⟨_,rfl,wasQueued,hasRow⟩
  · exact (coalescing.folds before old).mark survives
  · have covered : before.Covered acted.system.store := ⟨wasQueued,hasRow.mono fun _ => .inl⟩
    exact covered.mark (.refl _)

end FoldState

open FoldState

def importJob : FoldJob where
  key := "data:import"
  metadata := [("__coalesce", "schedule")]
  maxQueueDepth := none
  require := []

def importSignal : TriggerRequest where
  jobKey := "data:import"
  payload := .null
  require := []
  prefer := []
  timeout := none
  idempotencyKey := none

def importQueued : List FoldLabel :=
  [.trigger importSignal (some importJob) 1 7 [] false,.enqueueTriggered]

/-- A scheduled fire is folded into the waiting run, which starts and is cancelled. -/
def importFolded : List FoldLabel :=
  importQueued ++
    [.scheduledFire importJob 5 5 8 [] true false,.poll (.beginPoll "runner-1" [] 1 6 6),
      .poll (.examineJob false),.poll (.examineGroup false),.poll (.finishScan 6),
      .poll (.claimNext .none),.poll .release,.cancel 7 7]

end Croniq

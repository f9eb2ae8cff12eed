import Croniq.ClaimRelease
import Croniq.WorkDispatch

/-!
# The sweep of the watchdog

A sweep returns the claims of dead runners to the queue, expires items that have
waited too long, reaps stale claims, and last compares the stored queue with the
queue in memory: a queued row without an item gets one, or is cancelled when its
job is gone.
-/

namespace Croniq

open KeyedTables List Store WorkItem

/-- What the sweep reads of a job: how long its items wait, and what runners must offer. -/
structure WatchdogJob where
  queueTtl : Option Int
  require : List String
deriving DecidableEq

/-- The jobs of the file and the stored ones; `parseList` reads a stored list. -/
structure WatchdogConfig where
  reaper : ReaperConfig
  (jobs jobDefinitions : List (String × WatchdogJob))
  parseList : String → Option (List String)

structure SweepState where
  store : Store
  queue : List WorkItem

def requireMetadataKey : String := "__require"

def reconcileBatch : Nat := 500

def expiryPeek : Nat := 10000

/-- The item of a stored execution; the rest comes from the job. -/
def workItemFromExecution (config : WatchdogConfig) (execution : Execution) (job : WatchdogJob) :
    WorkItem where
  executionId := .uuid execution.id
  jobKey := execution.jobKey
  fireAt := execution.fireAt
  require := ((execution.metadata.lookup requireMetadataKey).bind config.parseList).getD job.require
  metadata := execution.metadata.map fun (key, text) => (key, .text text)
  isEphemeral := false

/-- Oldest due first. -/
def Store.findQueuedExecutions (store : Store) (limit : Nat) : List Execution :=
  ((store.executions.rows.filter fun row => row.state = .queued).insertionSort
    fun first second => first.fireAt ≤ second.fireAt).take limit

def removeExecution (queue : List WorkItem) (id : ExecutionId) : List WorkItem :=
  queue.eraseP (·.executionId = id)

namespace WatchdogConfig

variable (config : WatchdogConfig)

def resolveJobConfig (jobKey : String) : Option WatchdogJob :=
  (config.jobs.lookup jobKey).or (config.jobDefinitions.lookup jobKey)

/-- Put a queued row back into the queue in memory. -/
def enqueueRequeuedExecution (store : Store) (queue : List WorkItem) (id : Uuid) : List WorkItem :=
  match store.getExecution id with
  | none => queue
  | some execution =>
    if execution.state ≠ .queued then queue
    else
      match config.resolveJobConfig execution.jobKey with
      | none => queue
      | some job => enqueue queue (workItemFromExecution config execution job)

def requeueAbandonedForRunner (state : SweepState) (runnerId : String) : SweepState :=
  let requeued := state.store.requeueAbandoned runnerId
  { store := requeued.1
    queue := requeued.2.foldl (config.enqueueRequeuedExecution requeued.1) state.queue }

variable (now : Int)

/-- The items whose job lets them wait only so long. -/
def expiredIds (queue : List WorkItem) : List ExecutionId :=
  ((queue.take expiryPeek).filter fun item =>
    ((config.jobs.lookup item.jobKey).bind WatchdogJob.queueTtl).any (· < now - item.fireAt)).map
      executionId

/-- Cancel the row of an expired item, whatever its state, and drop the item. -/
def expireItem (state : SweepState) (id : ExecutionId) : SweepState :=
  { store :=
      match id with
      | .text _ => state.store
      | .uuid id => state.store.cancelExecution id now
    queue := removeExecution state.queue id }

def expireQueuedByTtl (state : SweepState) : SweepState :=
  (config.expiredIds now state.queue).foldl (expireItem now) state

def reapClaim (leases : List (Uuid × Lease))
    (state : SweepState) (execution : Execution) : SweepState :=
  let requeued := state.store.requeueIfClaimed execution.id
  if config.reaper.isReapable leases now execution && requeued.2 then
    { store := requeued.1
      queue := config.enqueueRequeuedExecution requeued.1 state.queue execution.id }
  else state

def sweepStaleClaims (leases : List (Uuid × Lease)) (state : SweepState) : SweepState :=
  (state.store.listClaimedOlderThan (now - config.reaper.graceSecs * 1000000000)
    config.reaper.claimSweepLimit).foldl (config.reapClaim now leases) state

/-- One queued row: it has an item, or gets one, or its job is gone. -/
def reconcileRow (inQueue : List ExecutionId)
    (state : SweepState) (execution : Execution) : SweepState :=
  if inQueue.contains (.uuid execution.id) then state
  else if (config.resolveJobConfig execution.jobKey).isSome then
    { state with
      queue := config.enqueueRequeuedExecution state.store state.queue execution.id }
  else { state with store := state.store.cancelExecution execution.id now }

def reconcileStrandedQueued (state : SweepState) : SweepState :=
  (state.store.findQueuedExecutions reconcileBatch).foldl
    (config.reconcileRow now (state.queue.map executionId)) state

variable (deadRunners : List String)

/-- A sweep up to the comparison of the two queues. -/
def sweepClaims (leases : List (Uuid × Lease)) (state : SweepState) : SweepState :=
  config.sweepStaleClaims now leases
    (config.expireQueuedByTtl now (deadRunners.foldl config.requeueAbandonedForRunner state))

def sweep (leases : List (Uuid × Lease)) (state : SweepState) : SweepState :=
  config.reconcileStrandedQueued now (config.sweepClaims now deadRunners leases state)

end WatchdogConfig

/-- Both stores have the same executions, as requested. -/
def Store.SameRequests (before after : Store) : Prop :=
  ∀ id, (after.getExecution id).map Execution.toExecutionRequest =
    (before.getExecution id).map Execution.toExecutionRequest

namespace Store

theorem sameRequests_updateWhere (store : Store) {condition : Execution → Bool}
    {change : Execution → Execution} (keepsKey : ∀ row, (change row).key = row.key)
    (keepsRequest : ∀ row, (change row).toExecutionRequest = row.toExecutionRequest) :
    store.SameRequests
      { store with executions := store.executions.updateWhere condition change keepsKey } := by
  intro id
  change ((store.executions.updateWhere condition change keepsKey).find? id).map _ = _
  rw [Table.find?_updateWhere,Option.map_map]
  congr 1
  funext row
  simp only [Function.comp_apply,changeWhere]
  split
  · exact keepsRequest row
  · rfl

theorem sameRequests_cancelExecution (store : Store) (id : Uuid) (now : Int) :
    store.SameRequests (store.cancelExecution id now) :=
  store.sameRequests_updateWhere (cancelRow_key now) fun _ => rfl

theorem sameRequests_requeueAbandoned (store : Store) (runnerId : String) :
    store.SameRequests (store.requeueAbandoned runnerId).1 :=
  store.sameRequests_updateWhere requeueRow_key fun _ => rfl

variable {store : Store} {id other : Uuid} {row : Execution}

theorem getExecution_of_cancelExecution_queued {now : Int}
    (found : (store.cancelExecution id now).getExecution other = some row)
    (queued : row.state = .queued) : store.getExecution other = some row := by
  have changed := (store.executions.find?_updateWhere (isCancellable id) (cancelRow now)
    (cancelRow_key now) other).symm.trans found
  obtain ⟨old,foundOld,rfl⟩ := Option.map_eq_some_iff.mp changed
  unfold changeWhere at queued ⊢
  split at queued
  · cases queued
  · rwa [if_neg ‹_›]

variable {after : Store} {changed : Execution}

theorem SameRequests.jobKey_eq (same : store.SameRequests after)
    (found : store.getExecution id = some row)
    (foundAfter : after.getExecution id = some changed) : changed.jobKey = row.jobKey := by
  have sameRequest := same id
  rw [found,foundAfter] at sameRequest
  exact congrArg ExecutionRequest.jobKey (Option.some.inj sameRequest)

theorem SameRequests.exists_before (same : store.SameRequests after)
    (found : after.getExecution id = some changed) :
    ∃ row, store.getExecution id = some row ∧ row.jobKey = changed.jobKey := by
  cases foundBefore : store.getExecution id with
  | none =>
    have sameRequest := same id
    rw [found,foundBefore] at sameRequest
    cases sameRequest
  | some row => exact ⟨row,rfl,(same.jobKey_eq foundBefore found).symm⟩

theorem SameRequests.trans {middle : Store} (first : store.SameRequests middle)
    (second : middle.SameRequests after) : store.SameRequests after :=
  fun id => (second id).trans (first id)

end Store

namespace WatchdogConfig

variable (config : WatchdogConfig)

def Dispatchable (store : Store) (row : Execution) : Prop :=
  store.getExecution row.id = some row ∧ row.state = .queued ∧
    (config.resolveJobConfig row.jobKey).isSome = true

def Backed (store : Store) (item : WorkItem) : Prop :=
  item.isEphemeral = false ∧ ∃ row, item.executionId = .uuid row.id ∧ config.Dispatchable store row

/-- A sweep under way: every item has an id of its own, and the new ones are backed. -/
structure Sweeping (config : WatchdogConfig) (before state : SweepState) : Prop where
  requests : before.store.SameRequests state.store
  unique : (state.queue.map executionId).Nodup
  added : ∀ item ∈ state.queue, item ∈ before.queue ∨ config.Backed state.store item

end WatchdogConfig

theorem executionId_ne_of_mem_removeExecution {queue : List WorkItem}
    (unique : (queue.map executionId).Nodup) {id : ExecutionId} {item : WorkItem}
    (member : item ∈ removeExecution queue id) : item.executionId ≠ id := by
  induction queue with
  | nil => cases member
  | cons first rest ih =>
    rw [map_cons,nodup_cons] at unique
    unfold removeExecution at member
    by_cases isFirst : first.executionId = id
    · rw [eraseP_cons_of_pos (by simpa using isFirst)] at member
      rintro rfl
      exact unique.1 (isFirst ▸ mem_map_of_mem member)
    rw [eraseP_cons_of_neg (by simpa using isFirst)] at member
    rcases mem_cons.mp member with rfl | isRest
    · exact isFirst
    · exact ih unique.2 isRest

namespace WatchdogConfig

variable {config : WatchdogConfig} {before state : SweepState}

theorem enqueueRequeuedExecution_cases (config : WatchdogConfig) (store : Store)
    (queue : List WorkItem) (id : Uuid) :
    config.enqueueRequeuedExecution store queue id = queue ∨
      ∃ item, config.Backed store item ∧
        config.enqueueRequeuedExecution store queue id = enqueue queue item := by
  unfold enqueueRequeuedExecution
  split
  · exact .inl rfl
  rename_i row found
  split
  · exact .inl rfl
  rename_i queued
  split
  · exact .inl rfl
  rename_i job resolves
  refine .inr ⟨_,⟨rfl,row,rfl,?_,not_not.mp queued,by rw [resolves]; rfl⟩,rfl⟩
  obtain rfl : row.id = id := store.executions.key_of_find? found
  exact found

theorem enqueueRequeuedExecution_of_dispatchable {store : Store} {row : Execution}
    (dispatchable : config.Dispatchable store row) (queue : List WorkItem) :
    ∃ item, item.executionId = .uuid row.id ∧
      config.enqueueRequeuedExecution store queue row.id = enqueue queue item := by
  obtain ⟨found,queued,known⟩ := dispatchable
  obtain ⟨job,resolves⟩ := Option.isSome_iff_exists.mp known
  refine ⟨workItemFromExecution config row job,rfl,?_⟩
  simp only [enqueueRequeuedExecution,found,queued,resolves,ne_eq,not_true_eq_false,if_false]

namespace Sweeping

section

variable (sweeping : config.Sweeping before state)
include sweeping

theorem enqueueRequeued (id : Uuid) : config.Sweeping before
      { state with queue := config.enqueueRequeuedExecution state.store state.queue id } := by
  rcases config.enqueueRequeuedExecution_cases state.store state.queue id with
    same | ⟨item,backed,adds⟩
  · rw [same]
    exact sweeping
  rw [adds]
  refine { sweeping with unique := nodup_enqueue sweeping.unique item, added := ?_ }
  intro other member
  rcases mem_enqueue member with old | rfl
  · exact sweeping.added other old
  · exact .inr backed

theorem setStore {store : Store} (same : state.store.SameRequests store)
    (keeps : ∀ row, state.store.getExecution row.id = some row → row.state = .queued →
      store.getExecution row.id = some row) : config.Sweeping before { state with store } := by
  refine { sweeping with requests := sweeping.requests.trans same, added := ?_ }
  intro item member
  rcases sweeping.added item member with old | ⟨stored,row,isId,found,queued,known⟩
  · exact .inl old
  · exact .inr ⟨stored,row,isId,keeps row found queued,queued,known⟩

theorem requeueAbandonedForRunner (runnerId : String) :
    config.Sweeping before (config.requeueAbandonedForRunner state runnerId) := by
  have requeued := sweeping.setStore (state.store.sameRequests_requeueAbandoned runnerId)
    fun row found queued => getExecution_requeueAbandoned_of_queued found queued runnerId
  unfold WatchdogConfig.requeueAbandonedForRunner
  generalize state.store.requeueAbandoned runnerId = result at requeued ⊢
  -- the rows are put back one by one
  refine foldlRecOn (motive := fun queue => config.Sweeping before ⟨result.1,queue⟩) _ _
    requeued ?_
  intro queue ongoing id _
  exact ongoing.enqueueRequeued id

variable (now : Int)

theorem reapClaim (leases : List (Uuid × Lease)) (execution : Execution) :
    config.Sweeping before (config.reapClaim now leases state execution) := by
  unfold WatchdogConfig.reapClaim
  dsimp only
  split
  · have requeued := sweeping.setStore
      (state.store.sameRequests_updateWhere requeueRow_key fun _ => rfl)
      fun row found queued => getExecution_requeueIfClaimed_of_queued found queued execution.id
    exact requeued.enqueueRequeued execution.id
  · exact sweeping

theorem expireItem (id : ExecutionId) : config.Sweeping before (expireItem now state id) := by
  have keeps (item : WorkItem) (member : item ∈ removeExecution state.queue id) :
      item ∈ before.queue ∨ config.Backed (WatchdogConfig.expireItem now state id).store item := by
    rcases sweeping.added item (mem_of_mem_eraseP member) with
      old | ⟨stored,row,isId,found,dispatchable⟩
    · exact .inl old
    have differs := executionId_ne_of_mem_removeExecution sweeping.unique member
    refine .inr ⟨stored,row,isId,?_,dispatchable⟩
    cases id with
    | text => exact found
    | uuid =>
      rw [isId] at differs
      exact getExecution_cancelExecution_of_ne found now fun same => differs (same ▸ rfl)
  refine ⟨sweeping.requests.trans ?_,sweeping.unique.sublist (eraseP_sublist.map _),keeps⟩
  cases id with
  | text => exact fun _ => rfl
  | uuid id => exact state.store.sameRequests_cancelExecution id now

theorem sweepClaims (deadRunners : List String) (leases : List (Uuid × Lease)) :
    config.Sweeping before (config.sweepClaims now deadRunners leases state) := by
  have requeued : config.Sweeping before
      (deadRunners.foldl config.requeueAbandonedForRunner state) :=
    foldlRecOn _ _ sweeping fun _ ongoing runnerId _ => ongoing.requeueAbandonedForRunner runnerId
  have expired := foldlRecOn (motive := config.Sweeping before)
    (config.expiredIds now (deadRunners.foldl config.requeueAbandonedForRunner state).queue)
    (WatchdogConfig.expireItem now) requeued fun _ ongoing id _ => ongoing.expireItem now id
  exact foldlRecOn _ _ expired fun _ ongoing execution _ => ongoing.reapClaim now leases execution

theorem reconcileRow (inQueue : List ExecutionId) {execution requested : Execution}
    (found : before.store.getExecution execution.id = some requested)
    (sameJob : requested.jobKey = execution.jobKey) :
    config.Sweeping before (config.reconcileRow now inQueue state execution) := by
  unfold WatchdogConfig.reconcileRow
  split
  · exact sweeping
  split
  · exact sweeping.enqueueRequeued execution.id
  rename_i unknown
  refine
    { sweeping with
      requests :=
        sweeping.requests.trans (state.store.sameRequests_cancelExecution execution.id now)
      added := ?_ }
  intro item member
  rcases sweeping.added item member with old | ⟨stored,row,isId,foundRow,queued,known⟩
  · exact .inl old
  refine .inr ⟨stored,row,isId,?_,queued,known⟩
  apply getExecution_cancelExecution_of_ne foundRow
  intro sameId
  rw [sameId] at foundRow
  rw [sweeping.requests.jobKey_eq found foundRow,sameJob] at known
  exact unknown known

end

end Sweeping

/-- The comparison under way: what it found stays, what can be dispatched still can,
and nothing becomes queued. -/
structure Reconciling (config : WatchdogConfig) (before state : SweepState) : Prop where
  requests : before.store.SameRequests state.store
  ids : before.queue.map executionId ⊆ state.queue.map executionId
  dispatchable : ∀ row, config.Dispatchable before.store row → config.Dispatchable state.store row
  queued : ∀ row, state.store.getExecution row.id = some row → row.state = .queued →
    before.store.getExecution row.id = some row

section

variable (config : WatchdogConfig)

theorem Reconciling.start (before : SweepState) : config.Reconciling before before :=
  ⟨fun _ => rfl,List.Subset.refl _,fun _ dispatchable => dispatchable,fun _ found _ => found⟩

theorem executionIds_subset_reconcileRow (now : Int)
    (inQueue : List ExecutionId) (state : SweepState) (execution : Execution) :
    state.queue.map executionId ⊆
      (config.reconcileRow now inQueue state execution).queue.map executionId := by
  unfold WatchdogConfig.reconcileRow
  split
  · exact List.Subset.refl _
  split
  · rcases config.enqueueRequeuedExecution_cases state.store state.queue execution.id with
      same | ⟨item,_,adds⟩
    · rw [same]
      exact List.Subset.refl _
    · rw [adds,enqueue_eq]
      split <;> simp
  · exact List.Subset.refl _

theorem executionIds_subset_foldl_reconcileRow (now : Int)
    (inQueue : List ExecutionId) (state : SweepState) (rows : List Execution) :
    state.queue.map executionId ⊆
      (rows.foldl (config.reconcileRow now inQueue) state).queue.map executionId := by
  induction rows generalizing state with
  | nil => exact List.Subset.refl _
  | cons row rows ih =>
    exact List.Subset.trans (config.executionIds_subset_reconcileRow now inQueue state row) (ih _)

end

variable {execution : Execution}

theorem Reconciling.reconcileRow (reconciling : config.Reconciling before state) (now : Int)
    (found : before.store.getExecution execution.id = some execution) :
    config.Reconciling before
      (config.reconcileRow now (before.queue.map executionId) state execution) := by
  have ids := List.Subset.trans reconciling.ids
    (config.executionIds_subset_reconcileRow now (before.queue.map executionId) state
      execution)
  revert ids
  unfold WatchdogConfig.reconcileRow
  split
  · exact fun _ => reconciling
  split
  · exact fun ids => { reconciling with ids }
  rename_i unknown
  refine fun ids =>
    { ids
      requests :=
        reconciling.requests.trans (state.store.sameRequests_cancelExecution execution.id now)
      dispatchable := ?_
      queued := fun row found queued => reconciling.queued row
        (getExecution_of_cancelExecution_queued found queued) queued }
  intro row dispatchable
  obtain ⟨foundRow,queued,known⟩ := reconciling.dispatchable row dispatchable
  refine ⟨getExecution_cancelExecution_of_ne foundRow now ?_,queued,known⟩
  intro sameId
  rw [sameId] at foundRow
  rw [reconciling.requests.jobKey_eq found foundRow] at known
  exact unknown known

theorem Reconciling.mem_reconcileRow (reconciling : config.Reconciling before state) (now : Int)
    (dispatchable : config.Dispatchable before.store execution) :
    .uuid execution.id ∈
      (config.reconcileRow now (before.queue.map executionId) state execution).queue.map
        executionId := by
  unfold WatchdogConfig.reconcileRow
  split
  · rename_i inQueue
    exact reconciling.ids (contains_iff_mem.mp inQueue)
  rw [if_pos dispatchable.2.2]
  obtain ⟨item,isId,adds⟩ :=
    enqueueRequeuedExecution_of_dispatchable (reconciling.dispatchable _ dispatchable) state.queue
  rw [adds,← isId,enqueue_eq]
  split
  · assumption
  · simp

theorem Reconciling.mem_foldl_reconcileRow {rows : List Execution}
    (listed : ∀ row ∈ rows, before.store.getExecution row.id = some row) (now : Int)
    (reconciling : config.Reconciling before state) {row : Execution} (isRow : row ∈ rows)
    (dispatchable : config.Dispatchable before.store row) :
    .uuid row.id ∈
      (rows.foldl (config.reconcileRow now (before.queue.map executionId))
        state).queue.map executionId := by
  induction rows generalizing state with
  | nil => cases isRow
  | cons first rows ih =>
    rcases mem_cons.mp isRow with rfl | isLater
    · exact config.executionIds_subset_foldl_reconcileRow now _ _ rows
        (reconciling.mem_reconcileRow now dispatchable)
    · obtain ⟨foundFirst,rest⟩ := forall_mem_cons.mp listed
      exact ih rest (reconciling.reconcileRow now foundFirst) isLater

end WatchdogConfig

theorem Store.mem_findQueuedExecutions {store : Store} {limit : Nat} {row : Execution}
    (listed : row ∈ store.findQueuedExecutions limit) :
    store.getExecution row.id = some row ∧ row.state = .queued := by
  have isRow := (mem_insertionSort _).mp (mem_of_mem_take listed)
  rw [mem_filter] at isRow
  exact ⟨store.executions.find?_eq_some_iff.mpr ⟨isRow.1,rfl⟩,by simpa using isRow.2⟩

theorem Store.mem_findQueuedExecutions_of_le {store : Store} {limit : Nat} {row : Execution}
    (few : store.executions.count (fun row => row.state = .queued) ≤ limit)
    (found : store.getExecution row.id = some row) (queued : row.state = .queued) :
    row ∈ store.findQueuedExecutions limit := by
  unfold findQueuedExecutions
  rw [take_of_length_le]
  · rw [mem_insertionSort,mem_filter]
    exact ⟨(store.executions.find?_eq_some_iff.mp found).1,by simpa using queued⟩
  · rw [length_insertionSort,← countP_eq_length_filter]
    exact few

open WatchdogConfig

/-- After a sweep each of the oldest queued rows whose job is known has an item in memory, and
every one if the rows fit into one comparison.  Every item was there before or belongs to such a
row. -/
theorem sweep_restores_queue (config : WatchdogConfig) (now : Int) (deadRunners : List String)
    (leases : List (Uuid × Lease)) (before : SweepState)
    (unique : (before.queue.map executionId).Nodup)
    (unstored : ∀ item ∈ before.queue, item.isEphemeral = true → ∀ id,
      item.executionId = .uuid id → before.store.getExecution id = none) :
    let compared := (config.sweepClaims now deadRunners leases before).store
    let after := config.sweep now deadRunners leases before
    (∀ row ∈ compared.findQueuedExecutions reconcileBatch,
      (config.resolveJobConfig row.jobKey).isSome = true →
      ∃ item ∈ after.queue, item.isEphemeral = false ∧ item.executionId = .uuid row.id) ∧
    (compared.executions.count (fun row => row.state = .queued) ≤ reconcileBatch →
      ∀ row, config.Dispatchable after.store row →
        ∃ item ∈ after.queue, item.isEphemeral = false ∧ item.executionId = .uuid row.id) ∧
    ∀ item ∈ after.queue, item ∈ before.queue ∨
      item.isEphemeral = false ∧
        ∃ row, item.executionId = .uuid row.id ∧ config.Dispatchable after.store row := by
  intro compared after
  have started : config.Sweeping before before := ⟨fun _ => rfl,unique,fun _ => .inl⟩
  have claims := started.sweepClaims now deadRunners leases
  have swept : config.Sweeping before after := by
    refine foldlRecOn _ _ claims fun state ongoing row isRow => ?_
    obtain ⟨requested,found,sameJob⟩ :=
      claims.requests.exists_before (mem_findQueuedExecutions isRow).1
    exact ongoing.reconcileRow now _ found sameJob
  have start := Reconciling.start config (config.sweepClaims now deadRunners leases before)
  have reconciled : config.Reconciling (config.sweepClaims now deadRunners leases before) after :=
    foldlRecOn _ _ start fun _ ongoing row isRow =>
      ongoing.reconcileRow now (mem_findQueuedExecutions isRow).1
  have hasItem : ∀ row ∈ compared.findQueuedExecutions reconcileBatch,
      (config.resolveJobConfig row.jobKey).isSome = true →
      ∃ item ∈ after.queue, item.isEphemeral = false ∧ item.executionId = .uuid row.id := by
    intro row isRow known
    obtain ⟨found,queued⟩ := mem_findQueuedExecutions isRow
    have inMemory := start.mem_foldl_reconcileRow
      (fun _ isListed => (mem_findQueuedExecutions isListed).1) now isRow
      ⟨found,queued,known⟩
    obtain ⟨item,isItem,isId⟩ := mem_map.mp inMemory
    refine ⟨item,isItem,?_,isId⟩
    -- an ephemeral item would be an old one, and those have no row
    rcases swept.added item isItem with old | ⟨stored,_⟩
    · by_contra ephemeral
      obtain ⟨requested,foundBefore,_⟩ := claims.requests.exists_before found
      rw [unstored item old (by simpa using ephemeral) row.id isId] at foundBefore
      cases foundBefore
    · exact stored
  refine ⟨hasItem,?_,swept.added⟩
  intro few row ⟨found,queued,known⟩
  exact hasItem row
    (mem_findQueuedExecutions_of_le few (reconciled.queued row found queued) queued) known

/-- A server with one job. -/
def watchdogOf (jobKey : String) (queueTtl : Option Int) : WatchdogConfig where
  reaper := { leaseTtlSecs := 120, claimSweepLimit := 500, timeoutSecs := fun _ => 300 }
  jobs := [(jobKey, { queueTtl, require := [] })]
  jobDefinitions := []
  parseList := fun _ => none

/-- The job never gives up on its items. -/
def exportWatchdog : WatchdogConfig :=
  watchdogOf "data:export" none

def exportExecution (id : Uuid) : FreshExecution :=
  newExecution id "data:export" id id none []

def exportItem (id : Uuid) : WorkItem :=
  workItemFromExecution exportWatchdog (exportExecution id).execution
    { queueTtl := none, require := [] }

/-- One of two rows has an item. -/
def strandedExport : SweepState where
  store := runOps .empty [.create (exportExecution 3),.create (exportExecution 7)]
  queue := [exportItem 3]

theorem sweep_restores_queue_export :
    ∃ item ∈ (exportWatchdog.sweep 9 [] [] strandedExport).queue,
      item.isEphemeral = false ∧ item.executionId = .uuid 7 := by
  refine (sweep_restores_queue exportWatchdog 9 [] [] strandedExport (by decide) ?_).2.1
    (by decide) (exportExecution 7).execution ⟨by decide,by decide,by decide⟩
  intro item isItem ephemeral
  cases mem_singleton.mp isItem
  cases ephemeral

def backlog (size : Nat) : Store where
  executions :=
    { rows := (range size).map fun id => (exportExecution id).execution
      keysUnique := by
        rw [map_map]
        exact nodup_range.map fun _ _ same => same }
  deadLetters := .empty _

theorem dispatchable_backlog {size id : Nat} (isId : id < size) :
    exportWatchdog.Dispatchable (backlog size) (exportExecution id).execution := by
  refine ⟨(backlog size).executions.find?_eq_some_iff.mpr ⟨?_,rfl⟩,rfl,rfl⟩
  exact mem_map_of_mem (mem_range.mpr isId)

theorem length_reconcileRow_le (config : WatchdogConfig) (now : Int) (inQueue : List ExecutionId)
    (state : SweepState) (execution : Execution) :
    (config.reconcileRow now inQueue state execution).queue.length ≤ state.queue.length + 1 := by
  unfold reconcileRow
  split
  · exact Nat.le_succ _
  split
  · rcases config.enqueueRequeuedExecution_cases state.store state.queue execution.id with
      same | ⟨item,_,adds⟩
    · rw [same]
      exact Nat.le_succ _
    · rw [adds,enqueue_eq]
      split <;> simp
  · exact Nat.le_succ _

theorem length_foldl_reconcileRow_le (config : WatchdogConfig) (now : Int)
    (inQueue : List ExecutionId) (state : SweepState) (rows : List Execution) :
    (rows.foldl (config.reconcileRow now inQueue) state).queue.length ≤
      state.queue.length + rows.length := by
  induction rows generalizing state with
  | nil => exact Nat.le_refl _
  | cons row rows ih =>
    have first := length_reconcileRow_le config now inQueue state row
    have later := ih (config.reconcileRow now inQueue state row)
    rw [foldl_cons,length_cons]
    omega

theorem sweepClaims_backlog (size : Nat) :
    exportWatchdog.sweepClaims 9 [] [] ⟨backlog size,[]⟩ = ⟨backlog size,[]⟩ := by
  have noClaims (cutoff : Int) (limit : Nat) :
      (backlog size).listClaimedOlderThan cutoff limit = [] := by
    have noRow : (backlog size).executions.rows.filter (fun row =>
        row.state = .claimed && row.claimedAt.all (· ≤ cutoff)) = [] := by
      rw [filter_eq_nil_iff]
      intro row isRow
      obtain ⟨id,_,rfl⟩ := mem_map.mp isRow
      simp [exportExecution,newExecution]
    simp only [listClaimedOlderThan,noRow,insertionSort_nil,take_nil]
  simp only [sweepClaims,foldl_nil,expireQueuedByTtl,expiredIds,take_nil,
    filter_nil,map_nil,sweepStaleClaims,noClaims]

/-- The item of a cancelled row stays in memory, and rows beyond one comparison stay without an
item. -/
theorem sweep_leaves_queues_apart :
    (∃ store, store.executions.count (fun row => row.state = .queued) = 0 ∧
      (exportWatchdog.sweep 9 [] [] ⟨store,[exportItem 7]⟩).store.executions.count
        (fun row => row.state = .queued) = 0 ∧
      (exportWatchdog.sweep 9 [] [] ⟨store,[exportItem 7]⟩).queue = [exportItem 7]) ∧
    ∃ row, exportWatchdog.Dispatchable (exportWatchdog.sweep 9 [] [] ⟨backlog 501,[]⟩).store row ∧
      ∀ item ∈ (exportWatchdog.sweep 9 [] [] ⟨backlog 501,[]⟩).queue,
        item.executionId ≠ .uuid row.id := by
  refine ⟨⟨runOps .empty [.create (exportExecution 7),.cancel 7 8],by decide,by decide,
    by decide⟩,?_⟩
  rw [sweep,sweepClaims_backlog]
  by_contra allHaveItems
  simp only [not_exists,not_and,not_forall,not_not] at allHaveItems
  have start := Reconciling.start exportWatchdog ⟨backlog 501,[]⟩
  have reconciled : exportWatchdog.Reconciling ⟨backlog 501,[]⟩
      (exportWatchdog.reconcileStrandedQueued 9 ⟨backlog 501,[]⟩) :=
    foldlRecOn _ _ start fun _ ongoing row isRow =>
      ongoing.reconcileRow 9 (mem_findQueuedExecutions isRow).1
  have few : (exportWatchdog.reconcileStrandedQueued 9 ⟨backlog 501,[]⟩).queue.length ≤ 500 := by
    refine Nat.le_trans (length_foldl_reconcileRow_le _ _ _ _ _) ?_
    rw [length_nil,Nat.zero_add]
    exact length_take_le _ _
  have subset : (range 501).map ExecutionId.uuid ⊆
      (exportWatchdog.reconcileStrandedQueued 9 ⟨backlog 501,[]⟩).queue.map
        executionId := by
    intro id isId
    obtain ⟨number,inRange,rfl⟩ := mem_map.mp isId
    obtain ⟨item,isItem,hasId⟩ := allHaveItems (exportExecution number).execution
      (reconciled.dispatchable _ (dispatchable_backlog (mem_range.mp inRange)))
    exact mem_map.mpr ⟨item,isItem,hasId⟩
  have distinct : ((range 501).map ExecutionId.uuid).Nodup :=
    nodup_range.map fun _ _ same => by cases same; rfl
  have many := (subperm_of_subset distinct subset).length_le
  simp only [length_map,length_range] at many
  omega

end Croniq

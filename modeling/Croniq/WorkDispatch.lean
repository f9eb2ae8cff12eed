import Croniq.DecimalText
import Croniq.ExecutionLifecycle

/-!
# Dispatching queued work to a polling runner

A poll takes the queue lock and fills a batch.
-/

namespace Croniq

open DecimalText Function KeyedTables List

/-- The text of an execution id; a stored execution has a number. -/
inductive ExecutionId where
  | uuid (id : Uuid)
  | text (text : String)
deriving DecidableEq

inductive MetadataValue where
  | text (text : String)
  | other
deriving DecidableEq

structure WorkItem where
  executionId : ExecutionId
  jobKey : String
  fireAt : Int
  require : List String
  metadata : List (String × MetadataValue)
  isEphemeral : Bool
deriving DecidableEq

namespace WorkItem

variable (item : WorkItem)

def metadataText (key : String) : Option String :=
  match item.metadata.lookup key with
  | some (.text text) => some text
  | _ => none

def positiveLimit (key : String) : Option Nat :=
  ((item.metadataText key).bind fun text => parseUnsigned 64 text.toList).filter (0 < ·)

def basePriority : Nat :=
  match item.metadataText "__priority" with
  | some "low" => 0
  | some "high" => 2
  | _ => 1

def priorityAgingStepSecs : Int := 300

def maxPriorityAgingSteps : Nat := 288

/-- The base priority and a level for every full step waited. -/
def effectivePriority (now : Int) : Nat :=
  let waited := max (numSeconds (now - item.fireAt)) 0
  item.basePriority + (min (waited / priorityAgingStepSecs) maxPriorityAgingSteps).toNat

def concurrencyLimit : Option Nat :=
  item.positiveLimit "__max_concurrent"

/-- The shared group of an item and its limit; both must be usable. -/
def concurrencyGroup : Option (String × Nat) :=
  ((item.metadataText concurrencyGroupMetadataKey).filter (· ≠ "")).bind fun group =>
    (item.positiveLimit "__concurrency_group_max").map fun limit => (group, limit)

end WorkItem

/-- What the batch took and the count of the store, asked once; `onError` decides when it fails. -/
def hasFreeSlot (onError : Bool) (budget : Option (String × Nat))
    (storeCount : String → Option Nat) (batch : String → Nat) (cache : String → Option Nat) :
    Bool × (String → Option Nat) :=
  match budget with
  | none => (true, cache)
  | some (name, limit) =>
    if limit ≤ batch name then (false, cache)
    else
      match cache name with
      | some inflight => (inflight + batch name < limit, cache)
      | none =>
        match storeCount name with
        | none => (onError, cache)
        | some inflight => (inflight + batch name < limit, update cache name (some inflight))

/-- The guard of a single job dispatches when the store fails. -/
def hasFreeConcurrencySlot (item : WorkItem) :=
  hasFreeSlot true (item.concurrencyLimit.map fun limit => (item.jobKey, limit))

/-- The guard of a shared group blocks when the store fails. -/
def hasFreeGroupSlot (item : WorkItem) :=
  hasFreeSlot false item.concurrencyGroup

def Store.countExecutionsInStates (store : Store) (jobKey : String)
    (states : List ExecutionState) : Nat :=
  store.executions.count fun row => row.jobKey = jobKey && states.contains row.state

/-- The queue not scanned yet, the item past the job guard, and the best item so far. -/
structure Picking where
  runnerId : String
  capabilities : List String
  capacity : Nat
  dispatchNow : Int
  inflightCache : String → Option Nat
  batchClaims : String → Nat
  groupInflightCache : String → Option Nat
  groupBatchClaims : String → Nat
  (items rest : List WorkItem)
  (candidate best : Option (Nat × WorkItem))

/-- No rank lies above this one, which ends the scan. -/
def rankCeiling : Nat := 2 + WorkItem.maxPriorityAgingSteps

namespace Picking

variable (picking : Picking) (storeCount : String → Option Nat)

def examineJob : Option Picking :=
  match picking.candidate, picking.rest with
  | none, item :: rest =>
    let rank := item.effectivePriority picking.dispatchNow
    if !item.require.all picking.capabilities.contains || picking.best.any (rank ≤ ·.1) then
      some { picking with rest }
    else
      let slot := hasFreeConcurrencySlot item storeCount picking.batchClaims
        picking.inflightCache
      some
        { picking with
          rest, inflightCache := slot.2
          candidate := if slot.1 then some (rank, item) else none }
  | _, _ => none

/-- Ask the group guard about the item past the job guard. -/
def examineGroup : Option Picking :=
  picking.candidate.map fun (rank, item) =>
    let slot := hasFreeGroupSlot item storeCount picking.groupBatchClaims
      picking.groupInflightCache
    { picking with
      candidate := none, groupInflightCache := slot.2
      best := if slot.1 then some (rank, item) else picking.best
      rest := if slot.1 && rank = rankCeiling then [] else picking.rest }

def addClaim (batch : String → Nat) (name : String) : String → Nat :=
  update batch name (batch name + 1)

/-- Put an item into the batch and scan the rest anew. -/
def take (item : WorkItem) (queue : List WorkItem) : Picking :=
  { picking with
    batchClaims := addClaim picking.batchClaims item.jobKey
    groupBatchClaims :=
      match item.concurrencyGroup with
      | some (group, _) => addClaim picking.groupBatchClaims group
      | none => picking.groupBatchClaims
    items := picking.items ++ [item], rest := queue, best := none }

end Picking

/-- An item on its way to a runner: whether its poll claimed its row, and whether another write
has changed the row since. -/
structure Dispatch where
  runnerId : String
  item : WorkItem
  (claimed touched : Bool)
deriving DecidableEq

def Dispatch.row (dispatch : Dispatch) (store : Store) : Option Execution :=
  match dispatch.item.executionId with
  | .uuid id => store.getExecution id
  | .text _ => none

def Dispatch.touch (before after : Store) (dispatch : Dispatch) : Dispatch :=
  { dispatch with
    touched := dispatch.touched || dispatch.row before != dispatch.row after }

inductive Poll where
  | idle
  | picking (picking : Picking)
  | claiming (runnerId : String) (now : Int) (remaining : List WorkItem) (kept : List Dispatch)

structure DispatchState where
  store : Store
  queue : List WorkItem
  poll : Poll
  dispatching : List Dispatch
  refused : List WorkItem
  lastLimit : String → Option Nat

namespace DispatchState

def initial : DispatchState where
  store := .empty
  queue := []
  poll := .idle
  dispatching := []
  refused := []
  lastLimit := fun _ => none

/-- Write the store, and mark the dispatches whose rows changed. -/
def setStore (state : DispatchState) (store : Store) : DispatchState :=
  { state with
    store
    dispatching := state.dispatching.map (.touch state.store store)
    poll :=
      match state.poll with
      | .claiming runnerId now remaining kept =>
        .claiming runnerId now remaining (kept.map (.touch state.store store))
      | poll => poll }

end DispatchState

/-- A claim fails before its write, or after it when the row is read back. -/
inductive ClaimFault where
  | none | beforeWrite | afterWrite
deriving DecidableEq

structure ClaimResult where
  store : Store
  (claimed kept : Bool)

/-- An item whose claim failed is dropped, unless it has no group and the store failed. -/
def claimItem (store : Store) (runnerId : String) (now : Int) (item : WorkItem)
    (fault : ClaimFault) : ClaimResult :=
  if item.isEphemeral then ⟨store,false,true⟩
  else
    match item.executionId with
    | .text _ => ⟨store,false,true⟩
    | .uuid id =>
      if fault = .beforeWrite then ⟨store,false,item.concurrencyGroup.isNone⟩
      else
        match store.claimExecution id runnerId now with
        | .ok claimed =>
          ⟨claimed.2,true,
            if fault = .afterWrite then item.concurrencyGroup.isNone else true⟩
        | .error (.conflict _) => ⟨store,false,false⟩
        | .error (.notFound _) => ⟨store,false,false⟩
        | .error (.database _) => ⟨store,false,item.concurrencyGroup.isNone⟩

def enqueue (queue : List WorkItem) (item : WorkItem) : List WorkItem :=
  if queue.any (·.executionId = item.executionId) then queue else queue ++ [item]

theorem enqueue_eq (queue : List WorkItem) (item : WorkItem) : enqueue queue item =
      if item.executionId ∈ queue.map WorkItem.executionId then queue else queue ++ [item] := by
  simp only [enqueue,any_eq_true,mem_map,decide_eq_true_eq]

variable {queue : List WorkItem}

theorem nodup_enqueue (unique : (queue.map WorkItem.executionId).Nodup) (item : WorkItem) :
    ((enqueue queue item).map WorkItem.executionId).Nodup := by
  rw [enqueue_eq]
  split
  · exact unique
  rename_i isNew
  rw [map_append,nodup_append]
  refine ⟨unique,by simp,?_⟩
  rintro id isId _ isItem rfl
  cases mem_singleton.mp isItem
  exact isNew isId

theorem mem_enqueue {item other : WorkItem} (member : other ∈ enqueue queue item) :
    other ∈ queue ∨ other = item := by
  unfold enqueue at member
  split at member
  · exact .inl member
  · simpa using member

inductive DispatchLabel where
  | write (op : StoreOp)
  | enqueue (item : WorkItem)
  | removeItems (removed : WorkItem → Bool)
  | beginPoll (runnerId : String) (capabilities : List String) (capacity : Nat)
      (dispatchNow claimNow : Int)
  | examineJob (fails : Bool)
  | examineGroup (fails : Bool)
  | finishScan (claimNow : Int)
  | claimNext (fault : ClaimFault)
  | release
  | handOut (dispatch : Dispatch) (accepted : Bool)
  | handBack (item : WorkItem) (fails : Bool)
  | restart

namespace DispatchState

def answer (fails : Bool) (count : String → Nat) (name : String) : Option Nat :=
  if fails then none else some (count name)

variable (state : DispatchState)

/-- The best item joins the batch, which is claimed when it is full or nothing was found. -/
def finishScan (picking : Picking) (claimNow : Int) : DispatchState :=
  match picking.best with
  | none => { state with poll := .claiming picking.runnerId claimNow picking.items [] }
  | some (_, item) =>
    let queue := state.queue.erase item
    let taken := picking.take item queue
    { state with
      queue
      poll :=
        if taken.items.length < taken.capacity then .picking taken
        else .claiming picking.runnerId claimNow taken.items [] }

/-- The limit of the item of each group claimed last. -/
def recordLimit (lastLimit : String → Option Nat) (item : WorkItem) : String → Option Nat :=
  match item.concurrencyGroup with
  | some (group, limit) => update lastLimit group (some limit)
  | none => lastLimit

def afterClaim (runnerId : String) (now : Int) (item : WorkItem)
    (remaining : List WorkItem) (kept : List Dispatch) (result : ClaimResult) : DispatchState :=
  let marked := kept.map (.touch state.store result.store)
  { state.setStore result.store with
    poll :=
      .claiming runnerId now remaining
        (if result.kept then marked ++ [⟨runnerId,item,result.claimed,false⟩] else marked)
    lastLimit :=
      if result.claimed then recordLimit state.lastLimit item else state.lastLimit }

/-- Return a refused item: the claim is undone, and if that worked the item is queued again. -/
def handBack (item : WorkItem) (fails : Bool) : DispatchState :=
  let taken := { state with refused := state.refused.erase item }
  match item.executionId with
  | .text _ => { taken with queue := Croniq.enqueue state.queue item }
  | .uuid id =>
    if fails then taken
    else
      let requeued := state.store.requeueIfClaimed id
      let written := taken.setStore requeued.1
      if requeued.2 then { written with queue := Croniq.enqueue state.queue item } else written

def step : DispatchLabel → Option DispatchState
  | .write op => if op.isClaim then none else some (state.setStore (op.apply state.store))
  | .enqueue item =>
    match state.poll with
    | .idle => some { state with queue := Croniq.enqueue state.queue item }
    | _ => none
  | .removeItems removed =>
    match state.poll with
    | .idle => some { state with queue := state.queue.filter fun item => !removed item }
    | _ => none
  | .beginPoll runnerId capabilities capacity dispatchNow claimNow =>
    match state.poll with
    | .idle =>
      some
        { state with
          poll :=
            if 0 < capacity then
              .picking
                { runnerId, capabilities, capacity, dispatchNow
                  inflightCache := fun _ => none, batchClaims := fun _ => 0
                  groupInflightCache := fun _ => none, groupBatchClaims := fun _ => 0
                  items := [], rest := state.queue, candidate := none, best := none }
            else .claiming runnerId claimNow [] [] }
    | _ => none
  | .examineJob fails =>
    match state.poll with
    | .picking picking =>
      (picking.examineJob (answer fails fun jobKey =>
        state.store.countExecutionsInStates jobKey [.claimed])).map fun picking =>
          { state with poll := .picking picking }
    | _ => none
  | .examineGroup fails =>
    match state.poll with
    | .picking picking =>
      (picking.examineGroup (answer fails fun group =>
        state.store.countExecutionsInGroupInStates group [.claimed])).map fun picking =>
          { state with poll := .picking picking }
    | _ => none
  | .finishScan claimNow =>
    match state.poll with
    | .picking picking =>
      if picking.rest = [] ∧ picking.candidate = none then
        some (state.finishScan picking claimNow)
      else none
    | _ => none
  | .claimNext fault =>
    match state.poll with
    | .claiming runnerId now (item :: remaining) kept =>
      some (state.afterClaim runnerId now item remaining kept
        (claimItem state.store runnerId now item fault))
    | _ => none
  | .release =>
    match state.poll with
    | .claiming _ _ [] kept =>
      some { state with poll := .idle, dispatching := state.dispatching ++ kept }
    | _ => none
  | .handOut dispatch accepted =>
    if dispatch ∈ state.dispatching then
      let taken := { state with dispatching := state.dispatching.erase dispatch }
      if accepted || dispatch.item.isEphemeral then some taken
      else some { taken with refused := dispatch.item :: taken.refused }
    else none
  | .handBack item fails =>
    match state.poll with
    | .idle => if item ∈ state.refused then some (state.handBack item fails) else none
    | _ => none
  | .restart => some { state with queue := [], poll := .idle, dispatching := [], refused := [] }

variable {poll : Poll} {next : DispatchState}

theorem of_idle {taken : Option DispatchState}
    (steps : (match poll with | .idle => taken | _ => none) = some next) :
    poll = .idle ∧ taken = some next := by
  cases poll with
  | idle => exact ⟨rfl,steps⟩
  | _ => cases steps

theorem of_picking {scan : Picking → Option DispatchState}
    (steps : (match poll with | .picking picking => scan picking | _ => none) = some next) :
    ∃ picking, poll = .picking picking ∧ scan picking = some next := by
  cases poll with
  | picking picking => exact ⟨picking,rfl,steps⟩
  | _ => cases steps

end DispatchState

end Croniq

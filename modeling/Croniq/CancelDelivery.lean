import Croniq.TriggerFold
import Croniq.WatchdogSweep

/-!
# Telling runners about cancelled work

A request to cancel reads the row first.
-/

namespace Croniq

open Function KeyedTables LabelledRuns List

/-- A cancel request between its accesses; `told` is the runner whose list has the execution. -/
inductive CancelRequest where
  | idle
  | pushing (id : Uuid) (runnerId : String)
  | writing (id : Uuid) (told : Option String)
deriving DecidableEq

/-- The execution of a request and the runner its row named. -/
def CancelRequest.aim : CancelRequest → Option (Uuid × Option String)
  | .idle => none
  | .pushing id runnerId => some (id, some runnerId)
  | .writing id told => some (id, told)

/-- The time of a sweep, the ids it selected, and whether it has the lock again. -/
structure Expiry where
  now : Int
  ids : List ExecutionId
  locked : Bool
deriving DecidableEq

/-- A claimed row that was cancelled, and the runner told. -/
structure Flip where
  id : Uuid
  (runnerId told : Option String)
  bySweep : Bool
deriving DecidableEq

/-- `pushed` records all that was ever put on a list. -/
structure CancelState where
  system : FoldState
  cancelQueues : String → List Uuid
  requests : Nat → CancelRequest
  expiry : Expiry
  flips : List Flip
  pushed : List (String × Uuid)

open CancelState

inductive CancelLabel where
  | system (label : FoldLabel)
  | dequeue (id : ExecutionId)
  | request (slot : Nat) (id : Uuid) (byTool : Bool)
  | push (slot : Nat)
  | write (slot : Nat) (now : Int) (fails : Bool)
  | drain (runnerId : String)
  | select (now : Int)
  | lockQueue
  | expireNext (fails : Bool)
  | unlockQueue

def FoldLabel.takesLock : FoldLabel → Bool
  | .poll (.beginPoll _ _ _ _ _) => true
  | .trigger _ _ _ _ _ _ => true
  | .scheduledFire _ _ _ _ _ _ _ => true
  | .publish _ => true
  | _ => false

def FoldLabel.isCancel : FoldLabel → Bool
  | .cancel _ _ => true
  | _ => false

namespace CancelState

def initial : CancelState where
  system := .initial
  cancelQueues := fun _ => []
  requests := fun _ => .idle
  expiry := { now := 0, ids := [], locked := false }
  flips := []
  pushed := []

variable (state : CancelState)

def store : Store :=
  state.system.system.store

def setRequest (slot : Nat) (request : CancelRequest) : CancelState :=
  { state with requests := update state.requests slot request }

/-- A row that has ended is left alone.  For a claimed row without a runner the handler gives up,
and the tool writes it. -/
def requestOf (byTool : Bool) (row : Execution) : CancelRequest :=
  match row.state, row.runnerId with
  | .queued, _ => .writing row.id none
  | .claimed, some runnerId => .pushing row.id runnerId
  | .claimed, none => if byTool then .writing row.id none else .idle
  | _, _ => .idle

def pushCancel (runnerId : String) (id : Uuid) : CancelState :=
  { state with
    cancelQueues :=
      update state.cancelQueues runnerId
        (if (state.cancelQueues runnerId).contains id then state.cancelQueues runnerId
        else state.cancelQueues runnerId ++ [id])
    pushed := state.pushed ++ [(runnerId, id)] }

/-- The write of a cancellation, with the claim it ended. -/
def cancelExecution (id : Uuid) (now : Int) (told : Option String) (bySweep : Bool) : CancelState :=
  let flips :=
    match state.store.getExecution id with
    | some row =>
      if row.state = .claimed then [{ id, runnerId := row.runnerId, told, bySweep : Flip }]
      else []
    | none => []
  { state with
    system :=
      { state.system with
        system := state.system.system.setStore (state.store.cancelExecution id now) }
    flips := state.flips ++ flips }

def removeItem (id : ExecutionId) : CancelState :=
  { state with system := state.system.setQueue (removeExecution state.system.system.queue id) }

/-- Cancel the row of an expired item, which stays if the store fails. -/
def expire (fails : Bool) (id : ExecutionId) : CancelState :=
  match id with
  | .text _ => state.removeItem id
  | .uuid uuid =>
    if fails then state
    else (state.cancelExecution uuid state.expiry.now none true).removeItem id

def step (config : WatchdogConfig) (state : CancelState) : CancelLabel → Option CancelState
  | .system label =>
    if label.isCancel || (label.takesLock && state.expiry.locked) then none
    else (state.system.step label).map fun system => { state with system }
  | .dequeue id =>
    if state.system.lockFree && !state.expiry.locked then some (state.removeItem id) else none
  | .request slot id byTool =>
    match state.requests slot, state.store.getExecution id with
    | .idle, some row => some (state.setRequest slot (requestOf byTool row))
    | _, _ => none
  | .push slot =>
    match state.requests slot with
    | .pushing id runnerId =>
      some ((state.pushCancel runnerId id).setRequest slot (.writing id (some runnerId)))
    | _ => none
  | .write slot now fails =>
    match state.requests slot with
    | .writing id told =>
      some
        ((if fails then state else state.cancelExecution id now told false).setRequest
          slot .idle)
    | _ => none
  | .drain runnerId => some { state with cancelQueues := update state.cancelQueues runnerId [] }
  | .select now =>
    if state.system.lockFree && !state.expiry.locked && state.expiry.ids.isEmpty then
      some
        { state with
          expiry :=
            { now, ids := config.expiredIds now state.system.system.queue, locked := false } }
    else none
  | .lockQueue =>
    -- a sweep that selected nothing does not come back for the lock
    if state.system.lockFree && !state.expiry.locked && !state.expiry.ids.isEmpty then
      some { state with expiry := { state.expiry with locked := true } }
    else none
  | .expireNext fails =>
    match state.expiry.ids with
    | id :: ids =>
      if state.expiry.locked && state.system.lockFree then
        some { state.expire fails id with expiry := { state.expiry with ids } }
      else none
    | [] => none
  | .unlockQueue =>
    if state.expiry.locked && state.expiry.ids.isEmpty then
      some { state with expiry := { state.expiry with locked := false } }
    else none

end CancelState

/-- What holds of a row as long as it is claimed. -/
def Store.WhenClaimed (store : Store) (id : Uuid) (property : Execution → Prop) : Prop :=
  ∀ row, store.getExecution id = some row → row.state = .claimed → property row

namespace Store.WhenClaimed

variable {before after : Store} {id : Uuid} {property : Execution → Prop}

theorem of_rowsStep (holds : before.WhenClaimed id property) {op : StoreOp}
    (notClaim : op.isClaim = false) (rows : RowsStep op before.executions after.executions) :
    after.WhenClaimed id property :=
  fun row found claimed => holds row (rows.find?_of_claimed notClaim found claimed) claimed

end Store.WhenClaimed

/-- The row is claimed by the runner that was told. -/
def Execution.HeldBy (told : Option String) (row : Execution) : Prop :=
  ∃ runnerId, row.runnerId = some runnerId ∧ told = some runnerId

theorem FoldState.Arranged.removeItem {state : FoldState} {allowed : ExecutionState → Prop}
    (arranged : state.Arranged allowed) (isIdle : state.system.poll = .idle) (id : ExecutionId) :
    (state.setQueue (removeExecution state.system.queue id)).Arranged allowed := by
  have fewer : (state.setQueue (removeExecution state.system.queue id)).waiting.Sublist
      state.waiting :=
    eraseP_sublist.append_right _
  refine { arranged with within := .of_idle isIdle, distinct := ?_, waits := ?_ }
  · exact arranged.distinct.sublist ((fewer.append_right _).map _)
  · exact fun item isWaiting => arranged.waits item (fewer.subset isWaiting)

namespace CancelState

/-- A request or a sweep has looked at the execution and not written it yet. -/
def UnderWay (state : CancelState) (id : Uuid) : Prop :=
  (∃ slot told, (state.requests slot).aim = some (id, told)) ∨ .uuid id ∈ state.expiry.ids

/-- No poll claims an execution whose cancellation is under way. -/
def ClaimsSettled (state : CancelState) : CancelLabel → Prop
  | .system (.poll (.claimNext _)) =>
    ∀ item id, state.system.system.poll.batch.head? = some item →
      item.executionId = .uuid id → ¬ state.UnderWay id
  | _ => True

/-- A row being cancelled is claimed by the runner that is told, if at all, and not if the sweep
selected it. -/
structure Informed (state : CancelState) : Prop where
  arranged : state.system.Arranged (· ≠ .claimed)
  claimFields : ∀ row ∈ state.store.executions.rows, row.ClaimFields
  aims : ∀ slot id told, (state.requests slot).aim = some (id, told) →
    state.store.WhenClaimed id (·.HeldBy told)
  pushes : ∀ slot id runnerId, state.requests slot = .writing id (some runnerId) →
    (runnerId, id) ∈ state.pushed
  selected : ∀ id, .uuid id ∈ state.expiry.ids → state.store.WhenClaimed id fun _ => False
  flips : ∀ flip ∈ state.flips, flip.bySweep = false ∧
    ∃ runnerId, flip.runnerId = some runnerId ∧ flip.told = some runnerId ∧
      (runnerId, flip.id) ∈ state.pushed

theorem Informed.initial : initial.Informed where
  arranged := .initial .notClaimed
  claimFields := fun _ member => nomatch member
  aims := fun _ _ _ isAim => nomatch isAim
  pushes := fun _ _ _ isRequest => nomatch isRequest
  selected := fun _ member => nomatch member
  flips := fun _ member => nomatch member

variable {state next : CancelState}

section

variable (informed : state.Informed)
include informed

theorem Informed.setSystem {system : FoldState}
    (arranged : system.Arranged (· ≠ .claimed))
    (claimFields : ∀ row ∈ system.system.store.executions.rows, row.ClaimFields)
    (keeps : ∀ id property, state.UnderWay id → state.store.WhenClaimed id property →
      system.system.store.WhenClaimed id property) : { state with system }.Informed :=
  { informed with
    arranged
    claimFields
    aims := fun slot id told isAim =>
      keeps id _ (.inl ⟨slot,told,isAim⟩) (informed.aims slot id told isAim)
    selected := fun id isSelected =>
      keeps id _ (.inr isSelected) (informed.selected id isSelected) }

theorem Informed.systemStep {label : FoldLabel} {system : FoldState}
    (settled : state.ClaimsSettled (.system label)) (notCancel : label.isCancel = false)
    (steps : state.system.step label = some system) : { state with system }.Informed := by
  obtain ⟨acted,acts,rfl⟩ := Option.map_eq_some_iff.mp steps
  have started : state.system.CancelsStarted label := by
    cases label with
    | cancel => cases notCancel
    | _ => trivial
  have arranged := (informed.arranged.act started acts).arranged
  have acted : { state with system := acted }.Informed := by
    cases ClaimStep.of_act acts with
    | other op notClaim rows =>
      exact informed.setSystem arranged (rows.claimFields informed.claimFields)
        fun _ _ _ holds => holds.of_rowsStep notClaim rows
    | claim fault item id runnerId now row isClaim isFirst isUuid claims =>
      subst isClaim
      refine informed.setSystem arranged
        ((Store.claimExecution_rowsStep claims).claimFields informed.claimFields) ?_
      intro other property underWay holds
      have differ : other ≠ id := by
        rintro rfl
        exact settled item other isFirst isUuid underWay
      rw [Store.WhenClaimed,Store.getExecution_claimExecution_of_ne claims differ]
      exact holds
  exact { acted with arranged := { acted.arranged with } }

theorem Informed.cancelExecution {id : Uuid} {told : Option String}
    {bySweep : Bool}
    (isTold : state.store.WhenClaimed id fun row => bySweep = false ∧ row.HeldBy told)
    (pushed : ∀ runnerId, told = some runnerId → (runnerId, id) ∈ state.pushed) (now : Int) :
    (state.cancelExecution id now told bySweep).Informed := by
  have rows := state.store.cancelExecution_rowsStep id now
  have arranged : FoldState.Arranged (· ≠ .claimed)
      { state.system with
        system := state.system.system.setStore (state.store.cancelExecution id now) } :=
    informed.arranged.setStore
      (fun item isWaiting =>
        (informed.arranged.waits item isWaiting).unclaimed_of_rowsStep rows rfl)
      (fun item inBatch =>
        (informed.arranged.unclaimed item inBatch).unclaimed_of_rowsStep rows rfl)
  have written := informed.setSystem arranged (rows.claimFields informed.claimFields)
    fun _ _ _ holds => holds.of_rowsStep rfl rows
  refine { written with flips := ?_ }
  intro flip isFlip
  rcases mem_append.mp isFlip with old | new
  · exact informed.flips flip old
  split at new
  · rename_i row found
    split at new
    · rename_i isClaimed
      cases mem_singleton.mp new
      obtain ⟨notSweep,runnerId,isHolder,wasTold⟩ := isTold row found isClaimed
      exact ⟨notSweep,runnerId,isHolder,wasTold,pushed runnerId wasTold⟩
    · cases new
  · cases new

theorem Informed.setRequest (slot : Nat) {request : CancelRequest}
    (aims : ∀ id told, request.aim = some (id, told) → state.store.WhenClaimed id (·.HeldBy told))
    (pushes : ∀ id runnerId, request = .writing id (some runnerId) →
      (runnerId, id) ∈ state.pushed) : (state.setRequest slot request).Informed := by
  refine { informed with aims := ?_, pushes := ?_ }
  · intro other id told isAim
    by_cases same : other = slot
    · subst same
      exact aims id told (by simpa [CancelState.setRequest] using isAim)
    · exact informed.aims other id told (by simpa [CancelState.setRequest,same] using isAim)
  · intro other id runnerId isRequest
    by_cases same : other = slot
    · subst same
      exact pushes id runnerId (by simpa [CancelState.setRequest] using isRequest)
    · exact informed.pushes other id runnerId
        (by simpa [CancelState.setRequest,same] using isRequest)

theorem Informed.pushCancel (runnerId : String) (id : Uuid) :
    (state.pushCancel runnerId id).Informed :=
  { informed with
    pushes := fun slot other otherRunner isRequest =>
      mem_append_left _ (informed.pushes slot other otherRunner isRequest)
    flips := by
      intro flip isFlip
      obtain ⟨notSweep,holder,isHolder,wasTold,wasPushed⟩ := informed.flips flip isFlip
      exact ⟨notSweep,holder,isHolder,wasTold,mem_append_left _ wasPushed⟩ }

theorem Informed.removeItem
    (isFree : state.system.lockFree = true) (id : ExecutionId) : (state.removeItem id).Informed :=
  { informed with
    arranged := informed.arranged.removeItem (FoldState.lockFree_iff.mp isFree).2 id }

theorem Informed.requestOf {id : Uuid} {row : Execution}
    (found : state.store.getExecution id = some row) (byTool : Bool) (slot : Nat) :
    (state.setRequest slot (requestOf byTool row)).Informed := by
  have isRow : row ∈ state.store.executions.rows :=
    (state.store.executions.find?_eq_some_iff.mp found).1
  have sameId : row.id = id := state.store.executions.key_of_find? found
  have fields := informed.claimFields row isRow
  have onlyRow : ∀ other, state.store.getExecution row.id = some other → other = row := by
    intro other foundOther
    rw [sameId,found] at foundOther
    exact (Option.some.inj foundOther).symm
  unfold CancelState.requestOf
  split
  · rename_i isQueued
    refine informed.setRequest slot ?_ (fun _ _ isRequest => nomatch isRequest)
    rintro _ _ ⟨⟩ other foundOther isClaimed
    rw [onlyRow other foundOther,isQueued] at isClaimed
    cases isClaimed
  · rename_i runnerId _ isHolder
    refine informed.setRequest slot ?_ (fun _ _ isRequest => nomatch isRequest)
    rintro _ _ ⟨⟩ other foundOther _
    exact ⟨runnerId,onlyRow other foundOther ▸ isHolder,rfl⟩
  · rename_i isClaimed noHolder
    -- a claimed row always names its runner
    have holder := (fields.claimed isClaimed).1
    rw [noHolder] at holder
    cases holder
  · exact informed.setRequest slot (fun _ _ isAim => nomatch isAim)
      (fun _ _ isRequest => nomatch isRequest)

theorem Informed.expire (isFree : state.system.lockFree = true)
    {id : ExecutionId} (isSelected : id ∈ state.expiry.ids) (fails : Bool) :
    (state.expire fails id).Informed := by
  unfold CancelState.expire
  split
  · exact informed.removeItem isFree _
  rename_i uuid
  split
  · exact informed
  have written : (state.cancelExecution uuid state.expiry.now none true).Informed :=
    informed.cancelExecution
      (fun row found isClaimed => (informed.selected uuid isSelected row found isClaimed).elim)
      (by nofun) state.expiry.now
  refine written.removeItem ?_ _
  rw [FoldState.lockFree_iff] at isFree ⊢
  refine ⟨isFree.1,?_⟩
  simp only [CancelState.cancelExecution,DispatchState.setStore,isFree.2]

theorem Informed.select (config : WatchdogConfig) (now : Int) :
    { state with
      expiry := { now, ids := config.expiredIds now state.system.system.queue, locked := false }
      }.Informed := by
  refine { informed with selected := ?_ }
  intro id isSelected row found isClaimed
  obtain ⟨item,isExpired,sameId⟩ := mem_map.mp isSelected
  have inQueue : item ∈ state.system.system.queue := mem_of_mem_take (mem_of_mem_filter isExpired)
  obtain ⟨other,foundOther,notClaimed⟩ := informed.arranged.waits item (mem_append_left _ inQueue)
  rw [sameId] at foundOther
  cases foundOther.symm.trans found
  exact notClaimed isClaimed

theorem Informed.step {config : WatchdogConfig} {label : CancelLabel}
    (settled : state.ClaimsSettled label) (steps : state.step config label = some next) :
    next.Informed := by
  cases label with
  | system label =>
    obtain ⟨allowed,steps⟩ := of_else steps
    obtain ⟨system,systemSteps,rfl⟩ := Option.map_eq_some_iff.mp steps
    simp only [Bool.or_eq_true,not_or,Bool.not_eq_true] at allowed
    exact informed.systemStep settled allowed.1 systemSteps
  | dequeue id =>
    obtain ⟨isFree,rfl⟩ := of_guard steps
    exact informed.removeItem (Bool.and_eq_true_iff.mp isFree).1 id
  | request slot id byTool =>
    simp only [CancelState.step] at steps
    split at steps
    · rename_i row _ found
      cases steps
      exact informed.requestOf found byTool slot
    · cases steps
  | push slot =>
    simp only [CancelState.step] at steps
    split at steps
    · rename_i id runnerId isPushing
      cases steps
      have aims := informed.aims slot id (some runnerId) (by rw [isPushing]; rfl)
      refine (informed.pushCancel runnerId id).setRequest slot ?_ ?_
      · rintro _ _ ⟨⟩
        exact aims
      · rintro _ _ ⟨⟩
        exact mem_append_right _ mem_cons_self
    · cases steps
  | write slot now fails =>
    simp only [CancelState.step] at steps
    split at steps
    · rename_i id told isWriting
      cases steps
      have aims := informed.aims slot id told (by rw [isWriting]; rfl)
      have written :
          (if fails then state else state.cancelExecution id now told false).Informed := by
        split
        · exact informed
        refine informed.cancelExecution
          (fun row found isClaimed => ⟨rfl,aims row found isClaimed⟩) ?_ now
        rintro runnerId rfl
        exact informed.pushes slot id runnerId isWriting
      exact written.setRequest slot (fun _ _ isAim => nomatch isAim)
        (fun _ _ isRequest => nomatch isRequest)
    · cases steps
  | drain =>
    cases steps
    exact { informed with }
  | select now =>
    simp only [CancelState.step] at steps
    split at steps <;> cases steps
    exact informed.select config now
  | lockQueue | unlockQueue =>
    simp only [CancelState.step] at steps
    split at steps <;> cases steps
    exact { informed with }
  | expireNext fails =>
    simp only [CancelState.step] at steps
    split at steps
    · rename_i id ids isSelected
      split at steps
      · rename_i isLocked
        cases steps
        have expired := informed.expire (Bool.and_eq_true_iff.mp isLocked).2
          (isSelected ▸ mem_cons_self : id ∈ state.expiry.ids) fails
        have sameExpiry : (state.expire fails id).expiry = state.expiry := by
          unfold CancelState.expire
          split
          · rfl
          · split <;> rfl
        refine { expired with selected := ?_ }
        intro other isOther
        refine expired.selected other ?_
        rw [sameExpiry,isSelected]
        exact mem_cons_of_mem id isOther
      · cases steps
    · cases steps

end

end CancelState

open CancelState

def importWaiting : List CancelLabel :=
  importQueued.map .system

/-- A runner takes the import, up to the claim and with it. -/
def importTaken (runnerId : String) : List CancelLabel :=
  [.system (.poll (.beginPoll runnerId [] 1 6 6)),.system (.poll (.examineJob false)),
    .system (.poll (.examineGroup false)),.system (.poll (.finishScan 6)),
    .system (.poll (.claimNext .none)),.system (.poll .release)]

/-- Imports expire after ten nanoseconds in the queue. -/
def importWatchdog : WatchdogConfig :=
  watchdogOf "data:import" (some 10)

def importCancelled : List CancelLabel :=
  importWaiting ++ importTaken "runner-1" ++ [.request 0 7 false,.push 0,.write 0 9 false]

end Croniq

import Croniq.CompletionCrash
import Croniq.PollSteps

/-!
# The due times of dispatched work

Every item of the queue carries the time at which it becomes due: a retry is due
when its backoff is over.
-/

namespace Croniq

open DispatchState LabelledRuns List

/-- An item that a poll took for its runner, and the clock of that poll. -/
structure Assignment where
  now : Int
  item : WorkItem
deriving DecidableEq

structure ClockedState where
  system : DispatchState
  now : Int
  assigned : List Assignment

namespace ClockedState

def initial : ClockedState where
  system := .initial
  now := 0
  assigned := []

/-- The clock of the poll that holds the lock after a step. -/
def readClock (now : Int) : DispatchLabel → Int
  | .beginPoll _ _ _ dispatchNow _ => dispatchNow
  | _ => now

/-- What a step takes away for a runner. -/
def takenBy (now : Int) : Poll → DispatchLabel → List Assignment
  | .claiming _ _ [] kept, .release => kept.map fun dispatch => ⟨now,dispatch.item⟩
  | _, _ => []

def step (state : ClockedState) (label : DispatchLabel) : Option ClockedState :=
  (state.system.step label).map fun system =>
    { system
      now := readClock state.now label
      assigned := state.assigned ++ takenBy state.now state.system.poll label }

/-- When a runner polls, all that it can execute is due. -/
def PollsDueWork (state : ClockedState) : DispatchLabel → Prop
  | .beginPoll _ capabilities _ dispatchNow _ =>
    ∀ item ∈ state.system.queue, item.require.all capabilities.contains = true →
      item.fireAt ≤ dispatchNow
  | _ => True

instance (state : ClockedState) (label : DispatchLabel) : Decidable (state.PollsDueWork label) := by
  cases label <;> unfold PollsDueWork <;> infer_instance

end ClockedState

/-- All that the runner can execute is due. -/
def DueFor (capabilities : List String) (now : Int) (items : List WorkItem) : Prop :=
  ∀ item ∈ items, item.require.all capabilities.contains = true → item.fireAt ≤ now

/-- What a poll has in hand or may still take is due. -/
structure Picking.Due (now : Int) (queue : List WorkItem) (picking : Picking) : Prop where
  reading : picking.dispatchNow = now
  items : ∀ item ∈ picking.items, item.fireAt ≤ now
  candidate : ∀ rank item, picking.candidate = some (rank, item) → item.fireAt ≤ now
  best : ∀ rank item, picking.best = some (rank, item) → item.fireAt ≤ now
  rest : DueFor picking.capabilities now picking.rest
  queue : DueFor picking.capabilities now queue

def Poll.Due (now : Int) (queue : List WorkItem) : Poll → Prop
  | .idle => True
  | .picking batch => batch.Due now queue
  | .claiming _ _ remaining kept =>
    (∀ item ∈ remaining, item.fireAt ≤ now) ∧ ∀ dispatch ∈ kept, dispatch.item.fireAt ≤ now

structure ClockedState.OnTime (state : ClockedState) : Prop where
  poll : state.system.poll.Due state.now state.system.queue
  assigned : ∀ assignment ∈ state.assigned, assignment.item.fireAt ≤ assignment.now

namespace Picking.Due

variable {now : Int} {queue : List WorkItem} {picking next : Picking}
  {storeCount : String → Option Nat}

section

variable (due : picking.Due now queue)
include due

theorem scans :
    picking.Scans
      (fun item => item.require.all picking.capabilities.contains = true → item.fireAt ≤ now)
      (·.fireAt ≤ now) :=
  ⟨due.rest,due.candidate,due.best⟩

theorem of_scans (scanned : next.Scans
      (fun item => item.require.all picking.capabilities.contains = true → item.fireAt ≤ now)
      (·.fireAt ≤ now) ∧ picking.SameBatch next) : next.Due now queue := by
  obtain ⟨⟨rest,candidate,best⟩,same⟩ := scanned
  refine ⟨same.dispatchNow.trans due.reading,?_,candidate,best,?_,?_⟩
  · rw [same.items]
    exact due.items
  · rw [same.capabilities]
    exact rest
  · rw [same.capabilities]
    exact due.queue

theorem examineJob (examines : picking.examineJob storeCount = some next) : next.Due now queue :=
  due.of_scans (due.scans.examineJob (fun _ seen => seen) examines)

theorem examineGroup
    (examines : picking.examineGroup storeCount = some next) : next.Due now queue :=
  due.of_scans (due.scans.examineGroup examines)

theorem take {rank : Nat} {item : WorkItem} (isBest : picking.best = some (rank, item)) :
    (picking.take item (queue.erase item)).Due now (queue.erase item) := by
  have queueDue : DueFor picking.capabilities now (queue.erase item) :=
    fun other member => due.queue other (mem_of_mem_erase member)
  refine
    { due with
      items := ?_, best := fun _ _ found => (nomatch found), rest := queueDue, queue := queueDue }
  exact forall_mem_append.mpr
    ⟨due.items,forall_mem_singleton.mpr (due.best rank item isBest)⟩

end

end Picking.Due

variable {state : DispatchState} {now : Int}

theorem Poll.Due.of_idle {poll : Poll} {queue : List WorkItem} (isIdle : poll = .idle) :
    poll.Due now queue := by
  rw [isIdle]
  trivial

theorem DispatchState.poll_handBack (isIdle : state.poll = .idle) (item : WorkItem)
    (fails : Bool) : (state.handBack item fails).poll = .idle := by
  unfold handBack
  dsimp only
  split
  · exact isIdle
  · split
    · exact isIdle
    · split <;> simp only [setStore,isIdle]

theorem Poll.Due.setStore (due : state.poll.Due now state.queue) (store : Store) :
    (state.setStore store).poll.Due now (state.setStore store).queue := by
  simp only [DispatchState.setStore]
  split
  · rename_i runnerId claimNow remaining kept holder
    rw [holder] at due
    refine ⟨due.1,?_⟩
    intro dispatch member
    obtain ⟨before,isBefore,rfl⟩ := mem_map.mp member
    exact due.2 before isBefore
  · exact due

theorem Poll.Due.finishScan {batch : Picking} (due : batch.Due now state.queue) (claimNow : Int) :
    (state.finishScan batch claimNow).poll.Due now (state.finishScan batch claimNow).queue := by
  unfold DispatchState.finishScan
  split
  · exact ⟨due.items,fun _ member => nomatch member⟩
  rename_i isBest
  dsimp only
  split
  · exact due.take isBest
  · exact ⟨(due.take isBest).items,fun _ member => nomatch member⟩

theorem Poll.Due.afterClaim {runnerId : String} {claimNow : Int} {item : WorkItem}
    {remaining : List WorkItem} {kept : List Dispatch}
    (due : (Poll.claiming runnerId claimNow (item :: remaining) kept).Due now state.queue)
    (result : ClaimResult) :
    (state.afterClaim runnerId claimNow item remaining kept result).poll.Due now
      (state.afterClaim runnerId claimNow item remaining kept result).queue := by
  have markedDue : ∀ dispatch ∈ kept.map (Dispatch.touch state.store result.store),
      dispatch.item.fireAt ≤ now := by
    intro dispatch member
    obtain ⟨before,isBefore,rfl⟩ := mem_map.mp member
    exact due.2 before isBefore
  refine ⟨fun other member => due.1 other (mem_cons_of_mem item member),?_⟩
  intro dispatch member
  split at member
  · rcases mem_append.mp member with old | new
    · exact markedDue dispatch old
    · cases mem_singleton.mp new
      exact due.1 item mem_cons_self
  · exact markedDue dispatch member

namespace ClockedState

theorem OnTime.initial : ClockedState.initial.OnTime where
  poll := trivial
  assigned := fun _ member => nomatch member

theorem OnTime.poll_step {state : ClockedState} {label : DispatchLabel} {next : DispatchState}
    (onTime : state.OnTime) (polls : state.PollsDueWork label)
    (steps : state.system.step label = some next) :
    next.poll.Due (readClock state.now label) next.queue := by
  have due := onTime.poll
  cases label with
  | write =>
    obtain ⟨-,rfl⟩ := of_unless steps
    exact due.setStore _
  | beginPoll =>
    obtain ⟨-,⟨⟩⟩ := of_idle steps
    split
    · exact ⟨rfl,by simp,by simp,by simp,polls,polls⟩
    · exact ⟨by simp,by simp⟩
  | examineJob =>
    obtain ⟨batch,holder,steps⟩ := of_picking steps
    obtain ⟨examined,examines,rfl⟩ := Option.map_eq_some_iff.mp steps
    rw [holder] at due
    exact Picking.Due.examineJob due examines
  | examineGroup =>
    obtain ⟨batch,holder,steps⟩ := of_picking steps
    obtain ⟨examined,examines,rfl⟩ := Option.map_eq_some_iff.mp steps
    rw [holder] at due
    exact Picking.Due.examineGroup due examines
  | finishScan claimNow =>
    obtain ⟨batch,holder,steps⟩ := of_picking steps
    obtain ⟨-,rfl⟩ := of_guard steps
    rw [holder] at due
    exact Poll.Due.finishScan due claimNow
  | claimNext fault =>
    simp only [DispatchState.step] at steps
    split at steps
    · rename_i runnerId claimNow item remaining kept holder
      rw [holder] at due
      cases steps
      exact due.afterClaim _
    · cases steps
  | handOut =>
    simp only [DispatchState.step] at steps
    split at steps
    · split at steps <;> cases steps <;> exact due
    · cases steps
  -- the others leave the lock free
  | release =>
    simp only [DispatchState.step] at steps
    split at steps <;> cases steps
    exact .of_idle rfl
  | restart =>
    cases steps
    exact .of_idle rfl
  | enqueue item =>
    obtain ⟨isIdle,⟨⟩⟩ := of_idle steps
    exact .of_idle isIdle
  | removeItems removed =>
    obtain ⟨isIdle,⟨⟩⟩ := of_idle steps
    exact .of_idle isIdle
  | handBack item fails =>
    obtain ⟨isIdle,steps⟩ := of_idle steps
    obtain ⟨-,rfl⟩ := of_guard steps
    exact .of_idle (poll_handBack isIdle item fails)

theorem OnTime.step {state next : ClockedState} {label : DispatchLabel} (onTime : state.OnTime)
    (polls : state.PollsDueWork label) (steps : state.step label = some next) : next.OnTime := by
  obtain ⟨system,stepTo,rfl⟩ := Option.map_eq_some_iff.mp steps
  refine ⟨onTime.poll_step polls stepTo,forall_mem_append.mpr ⟨onTime.assigned,?_⟩⟩
  intro assignment member
  have due := onTime.poll
  generalize state.system.poll = poll at due member
  unfold takenBy at member
  split at member
  · obtain ⟨dispatch,isKept,rfl⟩ := mem_map.mp member
    exact due.2 dispatch isKept
  · cases member

end ClockedState

open ClockedState

/-- Where runners find due work only, no item is taken before it is due, and no retry before its
backoff is over. -/
theorem dispatch_waits_until_due (labels : List DispatchLabel) (state : ClockedState)
    (polls : Along ClockedState.step PollsDueWork .initial labels)
    (reaches : run ClockedState.step .initial labels = some state) :
    (∀ assignment ∈ state.assigned, assignment.item.fireAt ≤ assignment.now) ∧
      ∀ (report : Report) (retryId : Uuid) (delay : Nat) (now : Int),
        ⟨now,report.retryItem retryId delay⟩ ∈ state.assigned →
        report.now + spanOfDuration delay ≤ now := by
  have onTime : state.OnTime :=
    invariant_of_along (fun _ _ _ onTime meets steps => onTime.step meets steps) .initial polls
      reaches
  refine ⟨onTime.assigned,?_⟩
  intro report retryId delay now member
  exact onTime.assigned _ member

/-- The retry of the invoice, five seconds after the failure, and a poll. -/
def retryPoll (dispatchNow : Int) : List DispatchLabel :=
  [.write (.create (invoiceReport.retryExecution 8 2 5000000000)),
    .enqueue (invoiceReport.retryItem 8 5000000000),
    .beginPoll "runner-1" [] 1 dispatchNow dispatchNow,.examineJob false,.examineGroup false,
    .finishScan dispatchNow,.claimNext .none,.release]

theorem dispatch_waits_until_due_retry :
    ∃ state, run ClockedState.step .initial (retryPoll 6000000000) = some state ∧
      state.assigned.map Assignment.now = [6000000000] ∧
      ∀ assignment ∈ state.assigned, assignment.item.fireAt ≤ assignment.now := by
  refine ⟨_,rfl,by decide,(dispatch_waits_until_due (retryPoll 6000000000) _ ?_ rfl).1⟩
  decide

/-- A poll one nanosecond after the failure gets it as well. -/
theorem retry_dispatched_before_backoff :
    ∃ state, run ClockedState.step .initial (retryPoll 3) = some state ∧
      state.assigned = [⟨3,invoiceReport.retryItem 8 5000000000⟩] ∧
      3 < (invoiceReport.retryItem 8 5000000000).fireAt ∧
      (state.system.store.getExecution 8).map Execution.state = some .claimed :=
  ⟨_,rfl,by decide,by decide,by decide⟩

end Croniq

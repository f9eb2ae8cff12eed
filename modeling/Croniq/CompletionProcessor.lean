import Croniq.ExecutionPolicies
import Croniq.WorkDispatch

/-!
# Processing the reports of runners

A report names an execution, the runner, how the run ended and the attempt it
was.
-/

namespace Croniq

open KeyedTables

inductive CompletionStatus where
  | success | failure | cancelled
deriving DecidableEq

structure CompletionEvent where
  runnerId : String
  executionId : ExecutionId
  status : CompletionStatus
  error : Option String
  (durationMs attempt : Nat)
deriving DecidableEq

def defaultAttempt : Nat := 1

inductive ProcessedOutcome where
  | completed
  | retrying (attempt : Nat)
  | deadLettered (reason : String)
  | dropped (reason : String)
  | ephemeral
  | notFound
  | unrecorded
  | stale
deriving DecidableEq

def StoreError.display : StoreError → String
  | .notFound message => "not found: " ++ message
  | .conflict message => "conflict: " ++ message
  | .database message => "database error: " ++ message

def asSigned64 (number : Nat) : Int :=
  (number : Int).bmod (2 ^ 64)

/-- A span too long for the calendar counts as none. -/
def spanOfDuration (duration : Nat) : Int :=
  if duration ≤ (2 ^ 63 - 1) * 1000000 then duration else 0

/-- What processing needs of a job. -/
structure CompletionJob where
  policy : ExecutionPolicy
  require : List String
deriving DecidableEq

structure Report where
  event : CompletionEvent
  now : Int
  execution : Execution
  job : CompletionJob
deriving DecidableEq

namespace Report

variable (report : Report)

/-- Cancellations bypass the policies. -/
def decision (applyJitter : Nat → Nat) : ExecutionOutcome :=
  if report.event.status = .cancelled then .cancelled
  else
    report.job.policy.evaluate applyJitter
      { success := report.event.status = .success
        error := report.event.error
        duration := report.event.durationMs * 1000000
        attempt := report.event.attempt }

def retryExecution (retryId : Uuid) (nextAttempt delay : Nat) : FreshExecution where
  execution :=
    { id := retryId
      jobKey := report.execution.jobKey
      fireAt := report.now + spanOfDuration delay
      scheduledFor := report.execution.scheduledFor
      attempt := nextAttempt
      idempotencyKey := report.execution.idempotencyKey
      metadata := report.execution.metadata
      createdAt := report.now
      state := .queued
      runnerId := none
      claimedAt := none
      startedAt := none
      completedAt := none
      durationMs := none
      error := none
      deadReason := none }
  queued := rfl
  notHeld := rfl
  notClaimed := rfl

def retryItem (retryId : Uuid) (delay : Nat) : WorkItem where
  executionId := .uuid retryId
  jobKey := report.execution.jobKey
  fireAt := report.now + spanOfDuration delay
  require := report.job.require
  metadata := report.execution.metadata.map fun (key, text) => (key, .text text)
  isEphemeral := false

def deadLetter (id : Uuid) (deadReason : String) (expiresAt : Option Int) : DeadLetter where
  id := id
  executionId := report.execution.id
  jobKey := report.execution.jobKey
  fireAt := report.execution.fireAt
  scheduledFor := report.execution.scheduledFor
  attempt := report.execution.attempt
  error := report.event.error.getD ""
  deadReason := deadReason
  metadata := report.execution.metadata
  createdAt := report.now
  expiresAt := expiresAt

end Report

/-- An operator's hint is added to the reason. -/
def deadReasonWithHint (reason : String) (operatorHint : Option String) : String :=
  let hint := operatorHint.getD ""
  if hint = "" then reason else reason ++ " — " ++ hint

/-- A report in its slot: not there yet, read, decided, failed with the retry to be written, with
the retry lost, or done. -/
inductive Processing where
  | idle
  | received (event : CompletionEvent)
  | writing (report : Report) (outcome : ExecutionOutcome)
  | retrying (report : Report) (nextAttempt delay : Nat)
  | burying (report : Report) (reason : String)
  | done (event : CompletionEvent) (outcome : ProcessedOutcome)
deriving DecidableEq

inductive Effect where
  | recorded (slot : Nat) (id : Uuid) (outcome : RecordedOutcome)
  | retried (slot : Nat) (id retryId : Uuid)
  | buried (slot : Nat) (id deadLetterId : Uuid)
deriving DecidableEq

structure CompletionState where
  store : Store
  queue : List WorkItem
  ephemeral : List ExecutionId
  slots : Nat → Processing
  claims : List (Uuid × String)
  effects : List Effect

inductive CompletionLabel where
  | write (op : StoreOp)
  | claim (id : Uuid) (runnerId : String) (now : Int)
  | dispatchEphemeral (id : ExecutionId)
  | deliver (slot : Nat) (event : CompletionEvent)
  | read (slot : Nat) (now : Int) (job : Option CompletionJob) (applyJitter : Nat → Nat)
      (fault : Option StoreError)
  | advance (slot : Nat) (freshId : Uuid) (fault : Option StoreError)

/-- The writes that only reports make. -/
def StoreOp.isReport : StoreOp → Bool
  | .complete _ _ _ _ _ _ _ => true
  | .completeAsDead _ _ _ _ _ _ => true
  | _ => false

namespace CompletionState

def initial : CompletionState where
  store := .empty
  queue := []
  ephemeral := []
  slots := fun _ => .idle
  claims := []
  effects := []

variable (state : CompletionState) (slot : Nat)

def setSlot (stage : Processing) : CompletionState :=
  { state with slots := Function.update state.slots slot stage }

def commit (store : Store) (effect : Effect) : CompletionState :=
  { state with store, effects := state.effects ++ [effect] }

/-- The row and the job of a report, and the decision. -/
def read (event : CompletionEvent) (now : Int)
    (job : Option CompletionJob) (applyJitter : Nat → Nat) (fault : Option StoreError) :
    CompletionState :=
  match event.executionId, fault with
  | .text _, _ => state.setSlot slot (.done event .notFound)
  | .uuid _, some _ => state.setSlot slot (.done event .notFound)
  | .uuid id, none =>
    match state.store.getExecution id with
    | none =>
      if event.executionId ∈ state.ephemeral then
        { state with ephemeral := state.ephemeral.erase event.executionId }.setSlot slot
          (.done event .ephemeral)
      else state.setSlot slot (.done event .notFound)
    | some execution =>
      match job with
      | none => state.setSlot slot (.done event .notFound)
      | some job =>
        let report : Report := { event, now, execution, job }
        state.setSlot slot (.writing report (report.decision applyJitter))

section

variable (report : Report)

/-- The guarded end of an execution; the slot goes on by the answer. -/
def record (outcome : RecordedOutcome)
    (error deadReason : Option String) (fault : Option StoreError)
    (whenRecorded whenMissed whenFailed : Processing) : CompletionState :=
  match fault with
  | some _ => state.setSlot slot whenFailed
  | none =>
    let written :=
      state.store.completeExecution report.execution.id (some report.event.runnerId)
        outcome.state (some (asSigned64 report.event.durationMs)) error deadReason report.now
    if written.2 then
      (state.commit written.1 (.recorded slot report.execution.id outcome)).setSlot slot
        whenRecorded
    else { state with store := written.1 }.setSlot slot whenMissed

/-- The guarded end of an execution with its dead letter. -/
def bury (deadLetter : DeadLetter)
    (fault : Option StoreError) (whenRecorded whenMissed whenFailed : Processing) :
    CompletionState :=
  match fault with
  | some _ => state.setSlot slot whenFailed
  | none =>
    match state.store.completeAsDead report.execution.id (some report.event.runnerId)
        (some (asSigned64 report.event.durationMs)) report.event.error deadLetter report.now with
    | .error _ => state.setSlot slot whenFailed
    | .ok (ended, true) =>
      (state.commit ended (.buried slot report.execution.id deadLetter.id)).setSlot slot
        whenRecorded
    | .ok (ended, false) => { state with store := ended }.setSlot slot whenMissed

/-- The row of a retry; if it cannot be written the chain ends, with a dead letter if there are any.
-/
def createRetry
    (nextAttempt delay : Nat) (retryId : Uuid) (fault : Option StoreError) : CompletionState :=
  let lost (error : StoreError) : CompletionState :=
    let reason :=
      "retry attempt " ++ toString nextAttempt ++ " could not be persisted: " ++ error.display
    state.setSlot slot
      (if report.job.policy.deadLetter.enabled then .burying report reason
      else .done report.event (.dropped reason))
  match fault with
  | some error => lost error
  | none =>
    match state.store.createExecution
        (report.retryExecution retryId nextAttempt delay).execution with
    | .error error => lost error
    | .ok created =>
      { state.commit created (.retried slot report.execution.id retryId) with
        queue := enqueue state.queue (report.retryItem retryId delay) }.setSlot slot
          (.done report.event (.retrying nextAttempt))

def carryOut (freshId : Uuid)
    (fault : Option StoreError) : ExecutionOutcome → CompletionState
  | .success =>
    state.record slot report .completed none none fault (.done report.event .completed)
      (.done report.event .stale) (.done report.event .unrecorded)
  | .retry nextAttempt delay =>
    state.record slot report .failed report.event.error none fault
      (.retrying report nextAttempt delay) (.done report.event .stale)
      (.done report.event .unrecorded)
  | .deadLetter reason operatorHint expiresAfter =>
    let deadLetter :=
      report.deadLetter freshId (deadReasonWithHint reason operatorHint)
        (expiresAfter.map fun duration => report.now + spanOfDuration duration)
    state.bury slot report deadLetter fault (.done report.event (.deadLettered reason))
      (.done report.event .stale) (.done report.event (.deadLettered reason))
  | .dropped reason =>
    state.record slot report .failed report.event.error (some reason) fault
      (.done report.event (.dropped reason)) (.done report.event .stale)
      (.done report.event (.dropped reason))
  | .cancelled =>
    state.record slot report .cancelled none none fault (.done report.event .completed)
      (.done report.event .completed) (.done report.event .completed)

end

/-- The next store access of a slot that has read its row. -/
def advance (freshId : Uuid) (fault : Option StoreError) : Option CompletionState :=
  match state.slots slot with
  | .writing report outcome => some (state.carryOut slot report freshId fault outcome)
  | .retrying report nextAttempt delay =>
    some (state.createRetry slot report nextAttempt delay freshId fault)
  | .burying report reason =>
    some
      (state.bury slot report
        (report.deadLetter freshId reason (report.job.policy.deadLetter.expiresAt report.now))
        fault (.done report.event (.deadLettered reason)) (.done report.event (.dropped reason))
        (.done report.event (.dropped reason)))
  | _ => none

def step : CompletionLabel → Option CompletionState
  | .write op =>
    if op.isClaim || op.isReport then none
    else some { state with store := op.apply state.store }
  | .claim id runnerId now =>
    match state.store.claimExecution id runnerId now with
    | .ok claimed =>
      some { state with store := claimed.2, claims := state.claims ++ [(id, runnerId)] }
    | .error _ => none
  | .dispatchEphemeral id => some { state with ephemeral := id :: state.ephemeral }
  | .deliver slot event =>
    match state.slots slot with
    | .idle => some (state.setSlot slot (.received event))
    | _ => none
  | .read slot now job applyJitter fault =>
    match state.slots slot with
    | .received event => some (state.read slot event now job applyJitter fault)
    | _ => none
  | .advance slot freshId fault => state.advance slot freshId fault

end CompletionState

end Croniq

import Croniq.KeyedTables

/-!
# The execution store

One row for each execution and one for each dead letter.  Every write is a
single statement or a transaction, so it happens at once or not at all.
-/

namespace Croniq

open KeyedTables

abbrev Uuid := Nat

abbrev Metadata := List (String × String)

def numSeconds (span : Int) : Int :=
  span.tdiv 1000000000

inductive ExecutionState where
  | queued | claimed | completed | failed | dead | cancelled
deriving DecidableEq

/-- What an execution is created with; no write changes it. -/
structure ExecutionRequest where
  id : Uuid
  jobKey : String
  (fireAt scheduledFor : Int)
  attempt : Nat
  idempotencyKey : Option String
  metadata : Metadata
  createdAt : Int
deriving DecidableEq

structure Execution extends ExecutionRequest where
  state : ExecutionState
  runnerId : Option String
  (claimedAt startedAt completedAt durationMs : Option Int)
  (error deadReason : Option String)
deriving DecidableEq

variable (row : Execution)

def Execution.key : Uuid :=
  row.id

structure DeadLetter where
  (id executionId : Uuid)
  jobKey : String
  (fireAt scheduledFor : Int)
  attempt : Nat
  (error deadReason : String)
  metadata : Metadata
  createdAt : Int
  expiresAt : Option Int
deriving DecidableEq

inductive StoreError where
  | notFound (message : String)
  | conflict (message : String)
  | database (message : String)
deriving DecidableEq

def concurrencyGroupMetadataKey : String := "__concurrency_group"

/-- The concurrency group of a row; an empty name is none. -/
def concurrencyGroupOf (execution : ExecutionRequest) : Option String :=
  (execution.metadata.lookup concurrencyGroupMetadataKey).filter (· ≠ "")

structure Store where
  executions : Table Execution.key
  deadLetters : Table DeadLetter.id

namespace Store

def empty : Store where
  executions := .empty _
  deadLetters := .empty _

variable (store : Store)

def getExecution (id : Uuid) : Option Execution :=
  store.executions.find? id

def createExecution (execution : Execution) : Except StoreError Store :=
  match store.executions.insert execution with
  | some executions => .ok { store with executions }
  | none => .error (.database "UNIQUE constraint failed: executions.id")

variable (id : Uuid)

def isClaimable (row : Execution) : Bool :=
  row.id = id ∧ row.state = .queued

variable (runnerId : String) (now : Int)

def claimRow (row : Execution) : Execution :=
  { row with
    state := .claimed, runnerId := some runnerId, claimedAt := some now, startedAt := some now }

theorem claimRow_key (row : Execution) : (claimRow runnerId now row).key = row.key :=
  rfl

def claimExecution (id : Uuid) (runnerId : String) (now : Int) :
    Except StoreError (Execution × Store) :=
  let claimed : Store :=
    { store with
      executions :=
        store.executions.updateWhere (isClaimable id) (claimRow runnerId now)
          (claimRow_key runnerId now) }
  if store.executions.count (isClaimable id) = 0 then
    .error (.conflict ("execution " ++ toString id ++ " is not in queued state"))
  else
    match claimed.getExecution id with
    | some execution => .ok (execution, claimed)
    | none => .error (.notFound ("execution " ++ toString id))

/-- The guard of a report; without a runner any holder will do. -/
def heldBy (runnerId : Option String) (row : Execution) : Bool :=
  runnerId.isNone || row.runnerId == runnerId

def isCompletable (runnerId : Option String) (row : Execution) : Bool :=
  (row.id = id ∧ row.state = .claimed) && heldBy runnerId row

variable (state : ExecutionState)

def completeRow (durationMs : Option Int)
    (error deadReason : Option String) (now : Int) (row : Execution) : Execution :=
  { row with state, completedAt := some now, durationMs, error, deadReason }

theorem completeRow_key (durationMs : Option Int)
    (error deadReason : Option String) (now : Int) (row : Execution) :
    (completeRow state durationMs error deadReason now row).key = row.key :=
  rfl

def completeExecution (id : Uuid) (runnerId : Option String)
    (state : ExecutionState) (durationMs : Option Int) (error deadReason : Option String)
    (now : Int) : Store × Bool :=
  ({ store with
      executions :=
        store.executions.updateWhere (isCompletable id runnerId)
          (completeRow state durationMs error deadReason now)
          (completeRow_key state durationMs error deadReason now) },
    0 < store.executions.count (isCompletable id runnerId))

/-- A claimed row ends dead; so does a failed one whose retry could not be written. -/
def isKillable (runnerId : Option String) (row : Execution) : Bool :=
  (row.id = id ∧ (row.state = .claimed ∨ row.state = .failed)) && heldBy runnerId row

/-- End an execution and add its dead letter in one transaction. -/
def completeAsDead (id : Uuid) (runnerId : Option String)
    (durationMs : Option Int) (error : Option String) (deadLetter : DeadLetter) (now : Int) :
    Except StoreError (Store × Bool) :=
  if store.executions.count (isKillable id runnerId) = 0 then .ok (store, false)
  else
    match store.deadLetters.insert deadLetter with
    | none => .error (.database "UNIQUE constraint failed: dead_letters.id")
    | some deadLetters =>
      .ok
        ({ deadLetters
           executions :=
             store.executions.updateWhere (isKillable id runnerId)
               (completeRow .dead durationMs error (some deadLetter.deadReason) now)
               (completeRow_key .dead durationMs error (some deadLetter.deadReason) now) },
          true)

def requeueRow : Execution :=
  { row with state := .queued, runnerId := none, claimedAt := none, startedAt := none }

theorem requeueRow_key : (requeueRow row).key = row.key :=
  rfl

def isAbandoned (row : Execution) : Bool :=
  row.runnerId = some runnerId ∧ row.state = .claimed

/-- Return every claim of a runner to the queue, and name the rows. -/
def requeueAbandoned (runnerId : String) : Store × List Uuid :=
  ({ store with
      executions := store.executions.updateWhere (isAbandoned runnerId) requeueRow requeueRow_key },
    (store.executions.rows.filter (isAbandoned runnerId)).map Execution.key)

def isClaimed (row : Execution) : Bool :=
  row.id = id ∧ row.state = .claimed

def requeueIfClaimed (id : Uuid) : Store × Bool :=
  ({ store with
      executions := store.executions.updateWhere (isClaimed id) requeueRow requeueRow_key },
    0 < store.executions.count (isClaimed id))

def isCancellable (row : Execution) : Bool :=
  row.id = id ∧ (row.state = .queued ∨ row.state = .claimed)

def cancelRow (row : Execution) : Execution :=
  { row with state := .cancelled, completedAt := some now }

theorem cancelRow_key (row : Execution) : (cancelRow now row).key = row.key :=
  rfl

def cancelExecution (id : Uuid) (now : Int) : Store :=
  { store with
    executions :=
      store.executions.updateWhere (isCancellable id) (cancelRow now) (cancelRow_key now) }

/-- Remove a dead letter and add the execution that replays it, in one transaction. -/
def replayDeadLetter (deadLetterId : Uuid) (execution : Execution) : Except StoreError Store :=
  match store.deadLetters.find? deadLetterId with
  | none => .error (.notFound ("dead letter " ++ toString deadLetterId))
  | some _ =>
    match store.executions.insert execution with
    | none => .error (.database "UNIQUE constraint failed: executions.id")
    | some executions => .ok { executions, deadLetters := store.deadLetters.delete deadLetterId }

def countExecutionsInGroupInStates (group : String) (states : List ExecutionState) : Nat :=
  store.executions.count fun row =>
    concurrencyGroupOf row.toExecutionRequest = some group && states.contains row.state

end Store

end Croniq

import Croniq.ExecutionStore

/-!
# The life of an execution row

Rows are created queued and without a holder.
-/

namespace Croniq

open KeyedTables Store

/-- The holder and the claim time agree with the state. -/
structure Execution.ClaimFields (row : Execution) : Prop where
  claimed : row.state = .claimed → row.runnerId.isSome = true ∧ row.claimedAt.isSome = true
  queued : row.state = .queued → row.runnerId = none ∧ row.claimedAt = none

structure FreshExecution where
  execution : Execution
  queued : execution.state = .queued
  notHeld : execution.runnerId = none
  notClaimed : execution.claimedAt = none

/-- A new execution, due at once or at a scheduled fire. -/
def newExecution (id : Uuid) (jobKey : String) (fireAt now : Int) (idempotencyKey : Option String)
    (metadata : Metadata) : FreshExecution where
  execution :=
    { id, jobKey, fireAt, scheduledFor := fireAt, attempt := 1, idempotencyKey, metadata
      createdAt := now, state := .queued, runnerId := none, claimedAt := none, startedAt := none
      completedAt := none, durationMs := none, error := none, deadReason := none }
  queued := rfl
  notHeld := rfl
  notClaimed := rfl

theorem FreshExecution.claimFields (fresh : FreshExecution) : fresh.execution.ClaimFields where
  claimed := by
    intro claimed
    rw [fresh.queued] at claimed
    cases claimed
  queued := fun _ => ⟨fresh.notHeld,fresh.notClaimed⟩

/-- The outcomes that are recorded on a claimed row. -/
inductive RecordedOutcome where
  | completed | failed | cancelled
deriving DecidableEq

def RecordedOutcome.state : RecordedOutcome → ExecutionState
  | .completed => .completed
  | .failed => .failed
  | .cancelled => .cancelled

inductive StoreOp where
  | create (fresh : FreshExecution)
  | claim (id : Uuid) (runnerId : String) (now : Int)
  | complete (id : Uuid) (runnerId : Option String) (outcome : RecordedOutcome)
      (durationMs : Option Int) (error deadReason : Option String) (now : Int)
  | completeAsDead (id : Uuid) (runnerId : Option String) (durationMs : Option Int)
      (error : Option String) (deadLetter : DeadLetter) (now : Int)
  | requeueAbandoned (runnerId : String)
  | requeueIfClaimed (id : Uuid)
  | cancel (id : Uuid) (now : Int)
  | replayDeadLetter (deadLetterId : Uuid) (fresh : FreshExecution)

/-- A write that fails leaves the store as it was. -/
def StoreOp.apply (store : Store) : StoreOp → Store
  | .create fresh =>
    match store.createExecution fresh.execution with
    | .ok created => created
    | .error _ => store
  | .claim id runnerId now =>
    match store.claimExecution id runnerId now with
    | .ok claimed => claimed.2
    | .error _ => store
  | .complete id runnerId outcome durationMs error deadReason now =>
    (store.completeExecution id runnerId outcome.state durationMs error deadReason now).1
  | .completeAsDead id runnerId durationMs error deadLetter now =>
    match store.completeAsDead id runnerId durationMs error deadLetter now with
    | .ok ended => ended.1
    | .error _ => store
  | .requeueAbandoned runnerId => (store.requeueAbandoned runnerId).1
  | .requeueIfClaimed id => (store.requeueIfClaimed id).1
  | .cancel id now => store.cancelExecution id now
  | .replayDeadLetter deadLetterId fresh =>
    match store.replayDeadLetter deadLetterId fresh.execution with
    | .ok replayed => replayed
    | .error _ => store

def runOps (store : Store) (ops : List StoreOp) : Store :=
  ops.foldl StoreOp.apply store

/-- The edges of the diagram. -/
inductive StateChange : ExecutionState → ExecutionState → Prop
  | claim : StateChange .queued .claimed
  | cancelQueued : StateChange .queued .cancelled
  | complete : StateChange .claimed .completed
  | fail : StateChange .claimed .failed
  | kill : StateChange .claimed .dead
  | cancelClaimed : StateChange .claimed .cancelled
  | requeue : StateChange .claimed .queued
  | bury : StateChange .failed .dead

def StoreOp.isClaim : StoreOp → Bool
  | .claim _ _ _ => true
  | _ => false

def StoreOp.isCancel : StoreOp → Bool
  | .cancel _ _ => true
  | _ => false

inductive StoreOp.Creates : StoreOp → FreshExecution → Prop
  | create (fresh : FreshExecution) : Creates (.create fresh) fresh
  | replay (deadLetterId : Uuid) (fresh : FreshExecution) :
      Creates (.replayDeadLetter deadLetterId fresh) fresh

/-- What a write can do to the rows; only a claim makes rows claimed. -/
inductive RowsStep (op : StoreOp) (before after : Table Execution.key) : Prop
  | unchanged (same : after = before)
  | inserted (fresh : FreshExecution) (created : op.Creates fresh)
      (inserts : before.insert fresh.execution = some after)
  | updated (condition : Execution → Bool) (change : Execution → Execution)
      (keepsRequest : ∀ row, (change row).toExecutionRequest = row.toExecutionRequest)
      (keepsKey : ∀ row, (change row).key = row.key)
      (updates : after = before.updateWhere condition change keepsKey)
      (moves : ∀ row, condition row = true → StateChange row.state (change row).state)
      (fields : ∀ row, condition row = true → (change row).ClaimFields)
      (byClaim : ∀ row, condition row = true → (change row).state = .claimed → op.isClaim = true)

theorem StateChange.record (outcome : RecordedOutcome) : StateChange .claimed outcome.state := by
  cases outcome
  · exact .complete
  · exact .fail
  · exact .cancelClaimed

theorem Execution.ClaimFields.of_ended {row : Execution} (notClaimed : row.state ≠ .claimed)
    (notQueued : row.state ≠ .queued) : row.ClaimFields where
  claimed := fun claimed => absurd claimed notClaimed
  queued := fun queued => absurd queued notQueued

namespace Store

variable {store claimed ended : Store} {id : Uuid} {runnerId : String} {now : Int} {row : Execution}
  {durationMs : Option Int} {error : Option String} {deadLetter : DeadLetter}

theorem createExecution_rowsStep {created : Store} (fresh : FreshExecution)
    (creates : store.createExecution fresh.execution = .ok created) :
    RowsStep (.create fresh) store.executions created.executions := by
  unfold createExecution at creates
  split at creates
  · rename_i inserts
    cases creates
    exact .inserted fresh (.create fresh) inserts
  · cases creates

theorem claimExecution_eq_ok (claims : store.claimExecution id runnerId now = .ok (row, claimed)) :
    claimed =
      { store with
        executions :=
          store.executions.updateWhere (isClaimable id) (claimRow runnerId now)
            (claimRow_key runnerId now) } := by
  unfold claimExecution at claims
  dsimp only at claims
  split at claims
  · cases claims
  split at claims
  · cases claims
    rfl
  · cases claims

theorem id_of_isClaimable (claimable : isClaimable id row = true) :
    row.id = id ∧ row.state = .queued := by
  simpa [isClaimable] using claimable

section

variable (claims : store.claimExecution id runnerId now = .ok (row, claimed))
include claims

theorem claimExecution_row :
    ∃ before, store.getExecution id = some before ∧ before.state = .queued ∧
      row = claimRow runnerId now before ∧ claimed.getExecution id = some row := by
  have isClaimed := claimExecution_eq_ok claims
  unfold claimExecution at claims
  dsimp only at claims
  split at claims
  · cases claims
  rename_i someRow
  obtain ⟨before,found,claimable⟩ := (store.executions.count_pos_iff
    fun _ claimable => (id_of_isClaimable claimable).1).mp (Nat.pos_of_ne_zero someRow)
  have after : claimed.getExecution id = some (claimRow runnerId now before) := by
    rw [isClaimed]
    exact store.executions.find?_updateWhere_of_met (claimRow_key runnerId now) found claimable
  rw [← isClaimed,after] at claims
  cases claims
  exact ⟨before,found,(id_of_isClaimable claimable).2,rfl,after⟩

theorem getExecution_claimExecution_of_ne {other : Uuid} (otherId : other ≠ id) :
    claimed.getExecution other = store.getExecution other := by
  rw [claimExecution_eq_ok claims]
  cases found : store.getExecution other with
  | none =>
    refine (store.executions.find?_updateWhere _ _ (claimRow_key runnerId now) other).trans ?_
    rw [show store.executions.find? other = none from found,Option.map_none]
  | some old =>
    have sameId : old.id = other := store.executions.key_of_find? found
    exact store.executions.find?_updateWhere_of_not (claimRow_key runnerId now) found
      (by simp [isClaimable,sameId,otherId])

theorem claimExecution_rowsStep :
    RowsStep (.claim id runnerId now) store.executions claimed.executions := by
  rw [claimExecution_eq_ok claims]
  refine .updated (isClaimable id) (claimRow runnerId now) (fun _ => rfl) (fun _ => rfl) rfl
    ?_ ?_ ?_
  · intro row claimable
    rw [(id_of_isClaimable claimable).2]
    exact .claim
  · intro row _
    exact ⟨fun _ => ⟨rfl,rfl⟩,fun queued => nomatch queued⟩
  · intro row _ _
    rfl

end

theorem completeExecution_rowsStep (store : Store) (id : Uuid) (runnerId : Option String)
    (outcome : RecordedOutcome) (durationMs : Option Int) (error deadReason : Option String)
    (now : Int) :
    RowsStep (.complete id runnerId outcome durationMs error deadReason now) store.executions
      (store.completeExecution id runnerId outcome.state durationMs error deadReason
        now).1.executions := by
  refine .updated (isCompletable id runnerId)
    (completeRow outcome.state durationMs error deadReason now) (fun _ => rfl) (fun _ => rfl) rfl
    ?_ ?_ ?_
  · intro row completable
    have claimed : row.state = .claimed := by simp_all [isCompletable]
    rw [claimed]
    exact .record outcome
  · intro row _
    apply Execution.ClaimFields.of_ended <;> cases outcome <;> simp [completeRow,
      RecordedOutcome.state]
  · intro row _ claimed
    cases outcome <;> cases claimed

theorem completeAsDead_rowsStep {runnerId : Option String} {recorded : Bool}
    (ends : store.completeAsDead id runnerId durationMs error deadLetter now =
      .ok (ended, recorded)) :
    RowsStep (.completeAsDead id runnerId durationMs error deadLetter now) store.executions
      ended.executions := by
  unfold completeAsDead at ends
  split at ends
  · cases ends
    exact .unchanged rfl
  split at ends
  · cases ends
  cases ends
  refine .updated (isKillable id runnerId)
    (completeRow .dead durationMs error (some deadLetter.deadReason) now)
    (fun _ => rfl) (fun _ => rfl) rfl ?_ ?_ ?_
  · intro row killable
    have held : row.state = .claimed ∨ row.state = .failed := by simp_all [isKillable]
    rcases held with claimed | failed
    · rw [claimed]
      exact .kill
    · rw [failed]
      exact .bury
  · intro row _
    apply Execution.ClaimFields.of_ended <;> simp [completeRow]
  · intro row _ claimed
    cases claimed

theorem isCompletable_iff :
    isCompletable id (some runnerId) row = true ↔
      row.key = id ∧ row.state = .claimed ∧ row.runnerId = some runnerId := by
  simp [isCompletable,heldBy,Execution.key,and_assoc]

theorem isKillable_iff :
    isKillable id (some runnerId) row = true ↔
      row.key = id ∧ (row.state = .claimed ∨ row.state = .failed) ∧
        row.runnerId = some runnerId := by
  simp [isKillable,heldBy,Execution.key,and_assoc]

variable {state : ExecutionState} {deadReason : Option String}

theorem completeExecution_recorded
    (recorded : (store.completeExecution id (some runnerId) state durationMs error deadReason
      now).2 = true) :
    ∃ row, store.getExecution id = some row ∧ row.state = .claimed ∧
      row.runnerId = some runnerId ∧
      (store.completeExecution id (some runnerId) state durationMs error deadReason
        now).1.getExecution id = some (completeRow state durationMs error deadReason now row) := by
  have oneKey : ∀ row, isCompletable id (some runnerId) row = true → row.key = id :=
    fun _ completable => (isCompletable_iff.mp completable).1
  obtain ⟨row,found,completable⟩ :=
    (store.executions.count_pos_iff oneKey).mp (of_decide_eq_true recorded)
  obtain ⟨_,claimed,held⟩ := isCompletable_iff.mp completable
  exact ⟨row,found,claimed,held,store.executions.find?_updateWhere_of_met
    (completeRow_key state durationMs error deadReason now) found completable⟩

theorem completeExecution_missed {runnerId : Option String}
    (missed : (store.completeExecution id runnerId state durationMs error deadReason
      now).2 = false) :
    (store.completeExecution id runnerId state durationMs error deadReason now).1 = store := by
  have noRow : store.executions.count (isCompletable id runnerId) = 0 :=
    Nat.eq_zero_of_not_pos (of_decide_eq_false missed)
  simp only [completeExecution,store.executions.updateWhere_eq_self _ noRow]

theorem completeAsDead_recorded
    (ends : store.completeAsDead id (some runnerId) durationMs error deadLetter now =
      .ok (ended, true)) :
    (∃ row, store.getExecution id = some row ∧ (row.state = .claimed ∨ row.state = .failed) ∧
      row.runnerId = some runnerId ∧
      ended.getExecution id =
        some (completeRow .dead durationMs error (some deadLetter.deadReason) now row)) ∧
    ended.deadLetters.rows = store.deadLetters.rows ++ [deadLetter] := by
  unfold completeAsDead at ends
  split at ends
  · cases ends
  rename_i someRow
  split at ends
  · cases ends
  rename_i deadLetters inserts
  cases ends
  have oneKey : ∀ row, isKillable id (some runnerId) row = true → row.key = id :=
    fun _ killable => (isKillable_iff.mp killable).1
  obtain ⟨row,found,killable⟩ :=
    (store.executions.count_pos_iff oneKey).mp (Nat.pos_of_ne_zero someRow)
  obtain ⟨_,stillOpen,held⟩ := isKillable_iff.mp killable
  refine ⟨⟨row,found,stillOpen,held,?_⟩,store.deadLetters.rows_insert inserts⟩
  exact store.executions.find?_updateWhere_of_met
    (completeRow_key .dead durationMs error (some deadLetter.deadReason) now) found killable

theorem completeAsDead_missed {runnerId : Option String}
    (ends : store.completeAsDead id runnerId durationMs error deadLetter now = .ok (ended, false)) :
    ended = store := by
  unfold completeAsDead at ends
  split at ends
  · cases ends
    rfl
  · split at ends <;> cases ends

theorem requeue_rowsStep (op : StoreOp) (executions : Table Execution.key)
    {condition : Execution → Bool}
    (onlyClaimed : ∀ row, condition row = true → row.state = .claimed) :
    RowsStep op executions (executions.updateWhere condition requeueRow requeueRow_key) := by
  refine .updated condition requeueRow (fun _ => rfl) (fun _ => rfl) rfl ?_ ?_ ?_
  · intro row returned
    rw [onlyClaimed row returned]
    exact .requeue
  · intro row _
    exact ⟨fun claimed => (nomatch claimed),fun _ => ⟨rfl,rfl⟩⟩
  · intro row _ claimed
    cases claimed

theorem requeueIfClaimed_eq_true_iff (store : Store) (id : Uuid) :
    (store.requeueIfClaimed id).2 = true ↔
      ∃ row, store.getExecution id = some row ∧ row.state = .claimed := by
  have oneKey : ∀ row, isClaimed id row = true → row.key = id := by
    intro row claimed
    simp only [isClaimed,Bool.decide_and,Bool.and_eq_true,decide_eq_true_eq] at claimed
    exact claimed.1
  rw [requeueIfClaimed,decide_eq_true_eq,store.executions.count_pos_iff oneKey]
  constructor
  · rintro ⟨row,found,claimed⟩
    exact ⟨row,found,by simp_all [isClaimed]⟩
  · rintro ⟨row,found,claimed⟩
    have sameId : row.id = id := store.executions.key_of_find? found
    exact ⟨row,found,by simp [isClaimed,sameId,claimed]⟩

theorem cancelExecution_rowsStep (store : Store) (id : Uuid) (now : Int) :
    RowsStep (.cancel id now) store.executions (store.cancelExecution id now).executions := by
  refine .updated (isCancellable id) (cancelRow now) (fun _ => rfl) (fun _ => rfl) rfl ?_ ?_ ?_
  · intro row cancellable
    have held : row.state = .queued ∨ row.state = .claimed := by simp_all [isCancellable]
    rcases held with queued | claimed
    · rw [queued]
      exact .cancelQueued
    · rw [claimed]
      exact .cancelClaimed
  · intro row _
    apply Execution.ClaimFields.of_ended <;> simp [cancelRow]
  · intro row _ claimed
    cases claimed

theorem replayDeadLetter_rowsStep {replayed : Store} {deadLetterId : Uuid} (fresh : FreshExecution)
    (replays : store.replayDeadLetter deadLetterId fresh.execution = .ok replayed) :
    RowsStep (.replayDeadLetter deadLetterId fresh) store.executions replayed.executions := by
  unfold replayDeadLetter at replays
  split at replays
  · cases replays
  split at replays
  · cases replays
  · rename_i inserts
    cases replays
    exact .inserted fresh (.replay deadLetterId fresh) inserts

end Store

theorem StoreOp.apply_rowsStep (store : Store) (op : StoreOp) :
    RowsStep op store.executions (op.apply store).executions := by
  cases op with
  | create fresh =>
    simp only [apply]
    split
    · exact createExecution_rowsStep fresh ‹_›
    · exact .unchanged rfl
  | claim id runnerId now =>
    simp only [apply]
    split
    · exact claimExecution_rowsStep ‹_›
    · exact .unchanged rfl
  | complete id runnerId outcome durationMs error deadReason now =>
    exact store.completeExecution_rowsStep id runnerId outcome durationMs error deadReason now
  | completeAsDead id runnerId durationMs error deadLetter now =>
    simp only [apply]
    split
    · exact completeAsDead_rowsStep ‹_›
    · exact .unchanged rfl
  | requeueAbandoned runnerId =>
    apply requeue_rowsStep
    intro row abandoned
    simp_all [isAbandoned]
  | requeueIfClaimed id =>
    apply requeue_rowsStep
    intro row claimed
    simp_all [isClaimed]
  | cancel id now => exact store.cancelExecution_rowsStep id now
  | replayDeadLetter deadLetterId fresh =>
    simp only [apply]
    split
    · exact replayDeadLetter_rowsStep fresh ‹_›
    · exact .unchanged rfl

/-- A row after a write: its request stays, and its state stays or goes along one edge. -/
structure Execution.Follows (row next : Execution) : Prop where
  request : next.toExecutionRequest = row.toExecutionRequest
  state : next.state = row.state ∨ StateChange row.state next.state

theorem Execution.Follows.refl (row : Execution) : row.Follows row where
  request := rfl
  state := .inl rfl

variable {op : StoreOp} {before after : Table Execution.key}

section

variable (step : RowsStep op before after)
include step

theorem RowsStep.survives {id : Uuid} {row : Execution} (found : before.find? id = some row) :
    ∃ next, after.find? id = some next ∧ row.Follows next := by
  cases step with
  | unchanged same =>
    subst same
    exact ⟨row,found,.refl row⟩
  | inserted fresh created inserts =>
    exact ⟨row,before.find?_insert_of_found inserts found,.refl row⟩
  | updated condition change keepsRequest keepsKey updates moves fields byClaim =>
    subst updates
    refine ⟨changeWhere condition change row,?_,?_⟩
    · rw [before.find?_updateWhere,found]
      rfl
    · unfold changeWhere
      split
      · exact ⟨keepsRequest row,.inr (moves row ‹_›)⟩
      · exact .refl row

theorem RowsStep.claimFields (agree : ∀ row ∈ before.rows, row.ClaimFields) :
    ∀ row ∈ after.rows, row.ClaimFields := by
  intro row isRow
  cases step with
  | unchanged same =>
    subst same
    exact agree row isRow
  | inserted fresh created inserts =>
    rw [before.rows_insert inserts,List.mem_append,List.mem_singleton] at isRow
    rcases isRow with old | rfl
    · exact agree row old
    · exact fresh.claimFields
  | updated condition change keepsRequest keepsKey updates moves fields byClaim =>
    subst updates
    obtain ⟨old,isOld,rfl⟩ := Table.mem_updateWhere.mp isRow
    unfold changeWhere
    split
    · exact fields old ‹_›
    · exact agree old isOld

/-- After any write but a claim, a claimed row is the row it was. -/
theorem RowsStep.find?_of_claimed (notClaim : op.isClaim = false) {id : Uuid}
    {row : Execution} (found : after.find? id = some row) (claimed : row.state = .claimed) :
    before.find? id = some row := by
  cases step with
  | unchanged same => exact same ▸ found
  | inserted fresh created inserts =>
    rw [before.find?_insert inserts] at found
    split at found
    · cases found
      rw [fresh.queued] at claimed
      cases claimed
    · exact found
  | updated condition change keepsRequest keepsKey updates moves fields byClaim =>
    subst updates
    rw [before.find?_updateWhere] at found
    obtain ⟨old,foundOld,changed⟩ := Option.map_eq_some_iff.mp found
    unfold changeWhere at changed
    split at changed
    · subst changed
      have claims := byClaim old ‹_› claimed
      rw [notClaim] at claims
      cases claims
    · exact changed ▸ foundOld

end

namespace Store

variable {store : Store} {id other : Uuid} {row : Execution}

theorem getExecution_cancelExecution_of_ne (found : store.getExecution other = some row)
    (now : Int) (differ : other ≠ id) : (store.cancelExecution id now).getExecution other =
      some row := by
  refine store.executions.find?_updateWhere_of_not (cancelRow_key now) found ?_
  have sameId : row.id = other := store.executions.key_of_find? found
  simp [isCancellable,sameId,differ]

section

variable (found : store.getExecution id = some row)
include found

theorem getExecution_requeueAbandoned_of_queued (queued : row.state = .queued) (runnerId : String) :
    (store.requeueAbandoned runnerId).1.getExecution id = some row :=
  store.executions.find?_updateWhere_of_not requeueRow_key found (by simp [isAbandoned,queued])

theorem getExecution_requeueIfClaimed_of_queued (queued : row.state = .queued) (claimed : Uuid) :
    (store.requeueIfClaimed claimed).1.getExecution id = some row :=
  store.executions.find?_updateWhere_of_not requeueRow_key found (by simp [isClaimed,queued])

theorem getExecution_requeueIfClaimed (isClaimed : row.state = .claimed) :
    (store.requeueIfClaimed id).1.getExecution id = some (requeueRow row) := by
  have sameId : row.id = id := store.executions.key_of_find? found
  exact store.executions.find?_updateWhere_of_met requeueRow_key found
    (by simp [Store.isClaimed,sameId,isClaimed])

end

section

variable {created : Store} {execution : Execution}
  (creates : store.createExecution execution = .ok created)
include creates

theorem getExecution_createExecution : created.getExecution execution.id = some execution := by
  unfold createExecution at creates
  split at creates
  · rename_i inserts
    cases creates
    exact (store.executions.find?_insert inserts execution.id).trans (if_pos rfl)
  · cases creates

theorem getExecution_eq_none_of_createExecution : store.getExecution execution.id = none := by
  unfold createExecution at creates
  split at creates
  · exact store.executions.find?_eq_none_of_insert ‹_›
  · cases creates

theorem getExecution_createExecution_of_found
    (found : store.getExecution id = some row) : created.getExecution id = some row := by
  unfold createExecution at creates
  split at creates
  · rename_i inserts
    cases creates
    exact store.executions.find?_insert_of_found inserts found
  · cases creates

end

/-- Every row is still there, along one edge at most. -/
def Survives (before after : Store) : Prop :=
  ∀ id row, before.getExecution id = some row →
    ∃ next, after.getExecution id = some next ∧ row.Follows next

theorem Survives.refl (store : Store) : store.Survives store :=
  fun _ row found => ⟨row,found,.refl row⟩

theorem survives_of_rowsStep {after : Store} {op : StoreOp}
    (rows : RowsStep op store.executions after.executions) : store.Survives after :=
  fun _ _ found => rows.survives found

end Store

theorem StoreOp.getExecution_apply_of_queued {store : Store} {op : StoreOp}
    (notClaim : op.isClaim = false) (notCancel : op.isCancel = false) {id : Uuid} {row : Execution}
    (found : store.getExecution id = some row) (queued : row.state = .queued) :
    (op.apply store).getExecution id = some row := by
  cases op with
  | create fresh =>
    simp only [apply]
    split
    · exact getExecution_createExecution_of_found ‹_› found
    · exact found
  | claim => cases notClaim
  | complete completed runnerId outcome durationMs error deadReason now =>
    exact store.executions.find?_updateWhere_of_not
      (completeRow_key outcome.state durationMs error deadReason now) found
      (by simp [isCompletable,queued])
  | completeAsDead killed runnerId durationMs error deadLetter now =>
    simp only [apply,Store.completeAsDead]
    split
    · rename_i ends
      split at ends
      · cases ends
        exact found
      split at ends
      · cases ends
      cases ends
      exact store.executions.find?_updateWhere_of_not
        (completeRow_key .dead durationMs error (some deadLetter.deadReason) now) found
        (by simp [isKillable,queued])
    · exact found
  | requeueAbandoned runnerId => exact getExecution_requeueAbandoned_of_queued found queued runnerId
  | requeueIfClaimed claimed => exact getExecution_requeueIfClaimed_of_queued found queued claimed
  | cancel => cases notCancel
  | replayDeadLetter deadLetterId fresh =>
    simp only [apply,Store.replayDeadLetter]
    split
    · rename_i replays
      split at replays
      · cases replays
      split at replays
      · cases replays
      · rename_i inserts
        cases replays
        exact store.executions.find?_insert_of_found inserts found
    · exact found

/-- The states no edge leaves. -/
def ExecutionState.Final (state : ExecutionState) : Prop :=
  state = .completed ∨ state = .cancelled ∨ state = .dead

theorem StateChange.not_of_final {before after : ExecutionState} (final : before.Final) :
    ¬ StateChange before after := by
  intro change
  cases change <;> simp [ExecutionState.Final] at final

theorem runOps_claimFields (store : Store) (ops : List StoreOp)
    (agree : ∀ row ∈ store.executions.rows, row.ClaimFields) :
    ∀ row ∈ (runOps store ops).executions.rows, row.ClaimFields := by
  induction ops generalizing store with
  | nil => exact agree
  | cons op ops ih => exact ih (op.apply store) ((op.apply_rowsStep store).claimFields agree)

theorem runOps_final (store : Store) (ops : List StoreOp) {id : Uuid} {row : Execution}
    (found : store.executions.find? id = some row) (final : row.state.Final) :
    ∃ next, (runOps store ops).executions.find? id = some next ∧ next.state = row.state := by
  induction ops generalizing store row with
  | nil => exact ⟨row,found,rfl⟩
  | cons op ops ih =>
    obtain ⟨next,foundNext,_,same | change⟩ := (op.apply_rowsStep store).survives found
    · obtain ⟨last,foundLast,sameLast⟩ := ih (op.apply store) foundNext (same ▸ final)
      exact ⟨last,foundLast,sameLast.trans same⟩
    · exact absurd change (StateChange.not_of_final final)

/-- Each write moves a row along one edge of the diagram or leaves its state, final rows stay, and
the claim fields agree with the state. -/
theorem execution_rows_follow_diagram (history : List StoreOp) :
    (∀ (op : StoreOp) (id : Uuid) (row : Execution),
      (runOps .empty history).executions.find? id = some row →
      ∃ next, (runOps .empty (history ++ [op])).executions.find? id = some next ∧
        (next.state = row.state ∨ StateChange row.state next.state)) ∧
    (∀ (later : List StoreOp) (id : Uuid) (row : Execution),
      (runOps .empty history).executions.find? id = some row → row.state.Final →
      ∃ next, (runOps .empty (history ++ later)).executions.find? id = some next ∧
        next.state = row.state) ∧
    ∀ (id : Uuid) (row : Execution),
      (runOps .empty history).executions.find? id = some row →
      (row.state = .claimed → row.runnerId.isSome = true ∧ row.claimedAt.isSome = true) ∧
      (row.state = .queued → row.runnerId = none ∧ row.claimedAt = none) := by
  refine ⟨?_,?_,?_⟩
  · intro op id row found
    rw [runOps,List.foldl_append]
    obtain ⟨next,foundNext,follows⟩ := (op.apply_rowsStep _).survives found
    exact ⟨next,foundNext,follows.state⟩
  · intro later id row found final
    rw [runOps,List.foldl_append]
    exact runOps_final _ later found final
  · intro id row found
    have agrees := runOps_claimFields .empty history (by simp [empty,Table.empty]) row
      ((Table.find?_eq_some_iff _).mp found).1
    exact ⟨agrees.claimed,agrees.queued⟩

end Croniq

import Croniq.CompletionProcessor

/-!
# The steps of processing reports

The case analysis of one step: a write of another party, a claim, a slot that
moves without a write, the decision of a report, and the three writes that have
an effect on an execution.
-/

namespace Croniq

open CompletionState KeyedTables

namespace Processing

/-- The execution whose failure the slot has recorded and not settled. -/
def pendingOn : Processing → Option Uuid
  | .retrying report _ _ => some report.execution.id
  | .burying report _ => some report.execution.id
  | _ => none

/-- The slot is about to make its first write, or to create the retry. -/
def isWriting : Processing → Bool
  | .writing _ _ => true
  | .retrying _ _ _ => true
  | _ => false

end Processing

theorem CompletionState.setSlot_cases {state : CompletionState} {slot other : Nat}
    {stage : Processing} (property : Processing → Prop)
    (holds : property ((state.setSlot slot stage).slots other)) :
    (other = slot ∧ property stage) ∨ (other ≠ slot ∧ property (state.slots other)) := by
  by_cases isSlot : other = slot
  · subst isSlot
    simp only [setSlot,Function.update_self] at holds
    exact .inl ⟨rfl,holds⟩
  · simp only [setSlot,Function.update_of_ne isSlot] at holds
    exact .inr ⟨isSlot,holds⟩

/-- Every step of the system. An access that changes nothing in the store only moves the slot. -/
inductive Change (state : CompletionState) : CompletionLabel → CompletionState → Prop
  | wrote (op : StoreOp) (notClaim : op.isClaim = false) (notReport : op.isReport = false) :
      Change state (.write op) { state with store := op.apply state.store }
  | claimed (id : Uuid) (runnerId : String) (now : Int) (row : Execution) (store : Store)
      (claims : state.store.claimExecution id runnerId now = .ok (row, store)) :
      Change state (.claim id runnerId now)
        { state with store, claims := state.claims ++ [(id, runnerId)] }
  | noted (id : ExecutionId) :
      Change state (.dispatchEphemeral id) { state with ephemeral := id :: state.ephemeral }
  | moved (label : CompletionLabel) (slot : Nat) (stage : Processing)
      (ephemeral : List ExecutionId)
      (notWriting : stage.isWriting = false)
      (lostRetry : ∀ report reason, stage = .burying report reason →
        ∃ nextAttempt delay, state.slots slot = .retrying report nextAttempt delay) :
      Change state label ({ state with ephemeral }.setSlot slot stage)
  | decided (slot : Nat) (report : Report) (applyJitter : Nat → Nat)
      (received : state.slots slot = .received report.event)
      (names : report.event.executionId = .uuid report.execution.id)
      (found : state.store.getExecution report.execution.id = some report.execution) :
      Change state (.read slot report.now (some report.job) applyJitter none)
        (state.setSlot slot (.writing report (report.decision applyJitter)))
  | recorded (slot : Nat) (freshId : Uuid) (report : Report) (decision : ExecutionOutcome)
      (outcome : RecordedOutcome) (stage : Processing) (op : StoreOp) (before after : Execution)
      (writing : state.slots slot = .writing report decision)
      (found : state.store.getExecution report.execution.id = some before)
      (isClaimed : before.state = .claimed)
      (held : before.runnerId = some report.event.runnerId)
      (notClaim : op.isClaim = false)
      (ends : (op.apply state.store).getExecution report.execution.id = some after)
      (isEnded : after.state = outcome.state)
      (keepsLetters : (op.apply state.store).deadLetters = state.store.deadLetters)
      (goesOn : (∃ event processed, stage = .done event processed) ∨
        ∃ nextAttempt delay, decision = .retry nextAttempt delay ∧ outcome = .failed ∧
          stage = .retrying report nextAttempt delay) :
      Change state (.advance slot freshId none)
        ((state.commit (op.apply state.store) (.recorded slot report.execution.id outcome)).setSlot
          slot stage)
  | retried (slot : Nat) (report : Report) (nextAttempt delay : Nat) (retryId : Uuid)
      (event : CompletionEvent) (processed : ProcessedOutcome) (created : Store)
      (retrying : state.slots slot = .retrying report nextAttempt delay)
      (creates : state.store.createExecution
        (report.retryExecution retryId nextAttempt delay).execution = .ok created) :
      Change state (.advance slot retryId none)
        ({ state.commit created (.retried slot report.execution.id retryId) with
          queue := enqueue state.queue (report.retryItem retryId delay) }.setSlot slot
            (.done event processed))
  | buried (slot : Nat) (freshId : Uuid) (report : Report) (deadLetter : DeadLetter)
      (event : CompletionEvent) (processed : ProcessedOutcome) (op : StoreOp)
      (before after : Execution)
      (decided : (∃ reason operatorHint expiresAfter,
          state.slots slot = .writing report (.deadLetter reason operatorHint expiresAfter)) ∨
        ∃ reason, state.slots slot = .burying report reason)
      (found : state.store.getExecution report.execution.id = some before)
      (stillOpen : before.state = .claimed ∨ before.state = .failed)
      (held : before.runnerId = some report.event.runnerId)
      (notClaim : op.isClaim = false)
      (ends : (op.apply state.store).getExecution report.execution.id = some after)
      (isDead : after.state = .dead)
      (adds : (op.apply state.store).deadLetters.rows =
        state.store.deadLetters.rows ++ [deadLetter])
      (names : deadLetter.executionId = report.execution.id) :
      Change state (.advance slot freshId none)
        ((state.commit (op.apply state.store)
          (.buried slot report.execution.id deadLetter.id)).setSlot slot (.done event processed))

namespace Change

variable {state : CompletionState}

theorem finished (label : CompletionLabel) (slot : Nat) (event : CompletionEvent)
    (processed : ProcessedOutcome) :
    Change state label (state.setSlot slot (.done event processed)) :=
  .moved label slot (.done event processed) state.ephemeral rfl
    fun _ _ isBurying => nomatch isBurying

variable {slot : Nat} {fault : Option StoreError}

theorem of_read {event : CompletionEvent} (now : Int) (job : Option CompletionJob)
    (applyJitter : Nat → Nat) (received : state.slots slot = .received event) :
    Change state (.read slot now job applyJitter fault)
      (state.read slot event now job applyJitter fault) := by
  unfold CompletionState.read
  split
  · exact .finished _ slot event _
  · exact .finished _ slot event _
  rename_i id isId
  split
  · split
    · exact .moved _ slot _ _ rfl fun _ _ isBurying => nomatch isBurying
    · exact .finished _ slot event _
  rename_i execution found
  split
  · exact .finished _ slot event _
  · rename_i job
    obtain rfl : execution.id = id := state.store.executions.key_of_find? found
    exact .decided slot { event, now, execution, job } applyJitter received isId found

variable {freshId : Uuid} {report : Report} {decision : ExecutionOutcome}

theorem of_record {outcome : RecordedOutcome} {error deadReason : Option String}
    {whenRecorded whenMissed whenFailed : Processing}
    (writing : state.slots slot = .writing report decision)
    (goesOn : (∃ event processed, whenRecorded = .done event processed) ∨
      ∃ nextAttempt delay, decision = .retry nextAttempt delay ∧ outcome = .failed ∧
        whenRecorded = .retrying report nextAttempt delay)
    (missedEnds : ∃ event processed, whenMissed = .done event processed)
    (failedEnds : ∃ event processed, whenFailed = .done event processed) :
    Change state (.advance slot freshId fault)
      (state.record slot report outcome error deadReason fault whenRecorded whenMissed
        whenFailed) := by
  obtain ⟨missedEvent,missedOutcome,rfl⟩ := missedEnds
  obtain ⟨failedEvent,failedOutcome,rfl⟩ := failedEnds
  unfold record
  split
  · exact .finished _ slot failedEvent failedOutcome
  dsimp only
  split
  · rename_i isRecorded
    obtain ⟨before,found,isClaimed,held,ends⟩ := Store.completeExecution_recorded isRecorded
    exact .recorded slot freshId report decision outcome whenRecorded
      (.complete report.execution.id (some report.event.runnerId) outcome
        (some (asSigned64 report.event.durationMs)) error deadReason report.now)
      before _ writing found isClaimed held rfl ends rfl rfl goesOn
  · rename_i isMissed
    rw [Store.completeExecution_missed (Bool.eq_false_iff.mpr isMissed)]
    exact .finished _ slot missedEvent missedOutcome

theorem of_bury {deadLetter : DeadLetter} {event : CompletionEvent}
    {whenRecorded whenMissed whenFailed : ProcessedOutcome}
    (decided : (∃ reason operatorHint expiresAfter,
        state.slots slot = .writing report (.deadLetter reason operatorHint expiresAfter)) ∨
      ∃ reason, state.slots slot = .burying report reason)
    (names : deadLetter.executionId = report.execution.id) :
    Change state (.advance slot freshId fault)
      (state.bury slot report deadLetter fault (.done event whenRecorded)
        (.done event whenMissed) (.done event whenFailed)) := by
  unfold bury
  split
  · exact .finished _ slot event whenFailed
  split
  · exact .finished _ slot event whenFailed
  · rename_i ended ends
    obtain ⟨⟨before,found,stillOpen,held,isAfter⟩,adds⟩ := Store.completeAsDead_recorded ends
    have applied :
        StoreOp.apply state.store
          (.completeAsDead report.execution.id (some report.event.runnerId)
            (some (asSigned64 report.event.durationMs)) report.event.error deadLetter
            report.now) = ended := by
      simp only [StoreOp.apply,ends]
    subst applied
    exact .buried slot freshId report deadLetter event whenRecorded _ before _ decided found
      stillOpen held rfl isAfter rfl adds names
  · rename_i ended ends
    rw [Store.completeAsDead_missed ends]
    exact .finished _ slot event whenMissed

theorem of_createRetry {nextAttempt delay : Nat}
    (retrying : state.slots slot = .retrying report nextAttempt delay) :
    Change state (.advance slot freshId fault)
      (state.createRetry slot report nextAttempt delay freshId fault) := by
  have lost (reason : String) :
      Change state (.advance slot freshId fault)
        (state.setSlot slot
          (if report.job.policy.deadLetter.enabled then .burying report reason
          else .done report.event (.dropped reason))) := by
    split
    · refine .moved _ slot (.burying report reason) state.ephemeral rfl ?_
      rintro _ _ ⟨⟩
      exact ⟨nextAttempt,delay,retrying⟩
    · exact .finished _ slot report.event _
  unfold createRetry
  dsimp only
  split
  · exact lost _
  · split
    · exact lost _
    · exact .retried slot report nextAttempt delay freshId _ _ _ retrying ‹_›

theorem of_carryOut (writing : state.slots slot = .writing report decision) :
    Change state (.advance slot freshId fault)
      (state.carryOut slot report freshId fault decision) := by
  cases decision with
  | success | dropped | cancelled =>
    exact of_record writing (.inl ⟨_,_,rfl⟩) ⟨_,_,rfl⟩ ⟨_,_,rfl⟩
  | retry nextAttempt delay =>
    exact of_record writing (.inr ⟨nextAttempt,delay,rfl,rfl,rfl⟩) ⟨_,_,rfl⟩ ⟨_,_,rfl⟩
  | deadLetter => exact of_bury (.inl ⟨_,_,_,writing⟩) rfl

variable {label : CompletionLabel} {next : CompletionState}

theorem of_step (steps : state.step label = some next) : Change state label next := by
  cases label with
  | write op =>
    simp only [step] at steps
    split at steps
    · cases steps
    rename_i allowed
    cases steps
    simp only [Bool.or_eq_true,not_or,Bool.not_eq_true] at allowed
    exact .wrote op allowed.1 allowed.2
  | claim id runnerId now =>
    simp only [step] at steps
    split at steps
    · rename_i claims
      cases steps
      exact .claimed id runnerId now _ _ claims
    · cases steps
  | dispatchEphemeral id =>
    cases steps
    exact .noted id
  | deliver slot event =>
    simp only [step] at steps
    split at steps
    · cases steps
      exact .moved _ slot (.received event) state.ephemeral rfl
        fun _ _ isBurying => nomatch isBurying
    · cases steps
  | read slot now job applyJitter fault =>
    simp only [step] at steps
    split at steps
    · cases steps
      exact of_read now job applyJitter ‹_›
    · cases steps
  | advance slot freshId fault =>
    simp only [step,advance] at steps
    split at steps
    · cases steps
      exact of_carryOut ‹_›
    · cases steps
      exact of_createRetry ‹_›
    · cases steps
      exact of_bury (.inr ⟨_,‹_›⟩) rfl
    · cases steps

theorem rowsStep (change : Change state label next) :
    ∃ op, RowsStep op state.store.executions next.store.executions := by
  cases change with
  | wrote op => exact ⟨op,op.apply_rowsStep state.store⟩
  | claimed id runnerId now row store claims => exact ⟨_,Store.claimExecution_rowsStep claims⟩
  | noted | moved | decided => exact ⟨.requeueAbandoned "",.unchanged rfl⟩
  | recorded slot freshId report decision outcome stage op | buried _ _ _ _ _ _ op =>
    exact ⟨op,op.apply_rowsStep state.store⟩
  | retried slot report nextAttempt delay retryId event processed created retrying creates =>
    exact ⟨_,Store.createExecution_rowsStep _ creates⟩

theorem survives (change : Change state label next) {id : Uuid} {row : Execution}
    (found : state.store.getExecution id = some row) :
    ∃ after, next.store.getExecution id = some after ∧ row.Follows after := by
  obtain ⟨op,rows⟩ := change.rowsStep
  exact rows.survives found

end Change

end Croniq

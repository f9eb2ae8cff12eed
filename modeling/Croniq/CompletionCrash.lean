import Croniq.RetryChains

/-!
# Crashes while a retry is being written

A failure that is to be retried takes two writes: the row of the attempt becomes
failed, and then the row of the retry is created.
-/

namespace Croniq

open CompletionState KeyedTables LabelledRuns List

def writeLabels (slot : Nat) (writes : List (Uuid × Option StoreError)) : List CompletionLabel :=
  writes.map fun (freshId, fault) => .advance slot freshId fault

/-- The store accesses of one report: a read, and writes, each with a fresh id and an answer. -/
def processAccesses (slot : Nat) (now : Int) (job : CompletionJob) (applyJitter : Nat → Nat)
    (readFault : Option StoreError) (writes : List (Uuid × Option StoreError)) :
    List CompletionLabel :=
  .read slot now (some job) applyJitter readFault :: writeLabels slot writes

/-- The writes before a crash leave the retry: the first does not record the failure, for it is
refused or another runner holds the row, or the second creates the retry. -/
def Report.RetrySafe (report : Report) (store : Store) : List (Uuid × Option StoreError) → Prop
  | [] => True
  | (_, fault) :: later =>
    fault.isSome ∨ report.execution.runnerId ≠ some report.event.runnerId ∨
      ∃ retryId, later.head? = some (retryId, none) ∧ store.getExecution retryId = none

namespace CompletionState

/-- A crash keeps what is stored, and the records beside the state. -/
def crash (state : CompletionState) : CompletionState :=
  { initial with store := state.store, claims := state.claims, effects := state.effects }

/-- The row is still claimed, or a retry of it is queued. -/
def RetryKept (state : CompletionState) (id : Uuid) : Prop :=
  (∃ row, state.store.getExecution id = some row ∧ row.state = .claimed) ∨
    ∃ retryId row, state.Retried id retryId ∧ state.store.getExecution retryId = some row ∧
      row.state = .queued

/-- The failure is recorded, no retry is stored, and the slot writes none any more. -/
structure RetryLost (slot : Nat) (report : Report) (state : CompletionState) : Prop where
  ended : state.Ended report.execution.id
  noRetry : ∀ retryId, ¬ state.Retried report.execution.id retryId
  stage : (∃ reason, state.slots slot = .burying report reason) ∨
    ∃ event outcome, state.slots slot = .done event outcome

variable {state next : CompletionState} {slot : Nat} {report : Report}

@[simp]
theorem slots_setSlot_self (state : CompletionState) (slot : Nat) (stage : Processing) :
    (state.setSlot slot stage).slots slot = stage := by
  simp only [setSlot,Function.update_self]

theorem not_retried_of_append {effect : Effect} {id : Uuid}
    (adds : next.effects = state.effects ++ [effect])
    (noRetry : ∀ retryId, ¬ state.Retried id retryId)
    (notRetry : ∀ slot retryId, effect ≠ .retried slot id retryId) :
    ∀ retryId, ¬ next.Retried id retryId := by
  rintro retryId ⟨slot,isEffect⟩
  rw [adds,mem_append,mem_singleton] at isEffect
  rcases isEffect with isOld | isNew
  · exact noRetry retryId ⟨slot,isOld⟩
  · exact notRetry slot retryId isNew.symm

/-- A slot that is done makes no further write. -/
theorem eq_of_done {writes : List (Uuid × Option StoreError)} {event : CompletionEvent}
    {outcome : ProcessedOutcome} (stage : state.slots slot = .done event outcome)
    (reaches : run step state (writeLabels slot writes) = some next) : next = state := by
  cases writes with
  | nil =>
    cases reaches
    rfl
  | cons write writes =>
    obtain ⟨middle,steps,_⟩ := run_cons_iff.mp reaches
    simp only [step,advance,stage] at steps
    cases steps

section

variable (ended : state.Ended report.execution.id)
  (noRetry : ∀ retryId, ¬ state.Retried report.execution.id retryId)
include ended noRetry

theorem not_retryKept_crash : ¬ state.crash.RetryKept report.execution.id := by
  rintro (⟨row,found,isClaimed⟩ | ⟨retryId,row,hasRetry,_,_⟩)
  · obtain ⟨other,foundOther,_,notClaimed⟩ := ended
    cases found.symm.trans foundOther
    exact notClaimed isClaimed
  · exact noRetry retryId hasRetry

namespace RetryLost

theorem of_done {event : CompletionEvent} {outcome : ProcessedOutcome} :
    (state.setSlot slot (.done event outcome)).RetryLost slot report :=
  ⟨ended,noRetry,.inr ⟨event,outcome,slots_setSlot_self ..⟩⟩

theorem of_bury (deadLetter : DeadLetter) (fault : Option StoreError) (event : CompletionEvent)
    (buried missed failed : ProcessedOutcome) :
    (state.bury slot report deadLetter fault (.done event buried) (.done event missed)
      (.done event failed)).RetryLost slot report := by
  unfold bury
  split
  · exact of_done ended noRetry
  split
  · exact of_done ended noRetry
  · rename_i after ends
    obtain ⟨⟨_,_,_,_,isDead⟩,_⟩ := Store.completeAsDead_recorded ends
    refine of_done ⟨_,isDead,?_⟩ (not_retried_of_append rfl noRetry ?_) <;>
      simp [Store.completeRow,ExecutionState.Ended]
  · rename_i after ends
    rw [Store.completeAsDead_missed ends]
    exact of_done ended noRetry

theorem of_createRetry {nextAttempt delay : Nat} {retryId : Uuid} {fault : Option StoreError}
    (refused : fault.isSome ∨ state.store.getExecution retryId ≠ none) :
    (state.createRetry slot report nextAttempt delay retryId fault).RetryLost slot report := by
  have lost (reason : String) :
      (state.setSlot slot
        (if report.job.policy.deadLetter.enabled then .burying report reason
        else .done report.event (.dropped reason))).RetryLost slot report := by
    split
    · exact ⟨ended,noRetry,.inl ⟨reason,slots_setSlot_self ..⟩⟩
    · exact of_done ended noRetry
  unfold createRetry
  dsimp only
  split
  · exact lost _
  split
  · exact lost _
  · rename_i created creates
    rcases refused with isFault | taken
    · cases isFault
    · exact absurd (Store.getExecution_eq_none_of_createExecution creates) taken

end RetryLost

end

variable {writes : List (Uuid × Option StoreError)}

theorem RetryLost.advances (lost : state.RetryLost slot report)
    (reaches : run step state (writeLabels slot writes) = some next) :
    next.RetryLost slot report := by
  induction writes generalizing state with
  | nil =>
    cases reaches
    exact lost
  | cons write writes ih =>
    obtain ⟨middle,steps,rest⟩ := run_cons_iff.mp reaches
    rcases lost.stage with ⟨reason,stage⟩ | ⟨event,outcome,stage⟩
    · simp only [step,advance,stage,Option.some.injEq] at steps
      subst steps
      exact ih (.of_bury lost.ended lost.noRetry ..) rest
    · simp only [step,advance,stage] at steps
      cases steps

theorem createRetry_created (state : CompletionState) (slot : Nat) (report : Report)
    {nextAttempt delay : Nat} {freshId : Uuid} (fresh : state.store.getExecution freshId = none) :
    ∃ (cut : CompletionState) (outcome : ProcessedOutcome),
      state.createRetry slot report nextAttempt delay freshId none =
        cut.setSlot slot (.done report.event outcome) ∧
      cut.crash.RetryKept report.execution.id := by
  have isFresh : state.store.executions.find?
      (report.retryExecution freshId nextAttempt delay).execution.key = none := fresh
  obtain ⟨executions,inserts⟩ := state.store.executions.exists_insert_of_find?_eq_none isFresh
  have creates : state.store.createExecution
      (report.retryExecution freshId nextAttempt delay).execution =
        .ok { state.store with executions } := by
    rw [Store.createExecution,inserts]
  simp only [createRetry,creates]
  refine ⟨_,_,rfl,.inr ⟨freshId,_,⟨slot,mem_append_right _ mem_cons_self⟩,
    Store.getExecution_createExecution creates,rfl⟩⟩

section

variable {nextAttempt delay : Nat}

/-- The second write leaves the retry exactly if it creates the row. -/
theorem retryKept_iff_of_retrying (stage : state.slots slot = .retrying report nextAttempt delay)
    (ended : state.Ended report.execution.id)
    (noRetry : ∀ retryId, ¬ state.Retried report.execution.id retryId)
    (reaches : run step state (writeLabels slot writes) = some next) :
    next.crash.RetryKept report.execution.id ↔
      ∃ retryId, writes.head? = some (retryId, none) ∧ state.store.getExecution retryId = none := by
  cases writes with
  | nil =>
    cases reaches
    exact iff_of_false (not_retryKept_crash ended noRetry) nofun
  | cons write writes =>
    obtain ⟨retryId,fault⟩ := write
    obtain ⟨middle,steps,rest⟩ := run_cons_iff.mp reaches
    simp only [step,advance,stage,Option.some.injEq] at steps
    subst steps
    by_cases refused : fault.isSome ∨ state.store.getExecution retryId ≠ none
    · have lost := (RetryLost.of_createRetry ended noRetry refused).advances rest
      refine iff_of_false (not_retryKept_crash lost.ended lost.noRetry) ?_
      rintro ⟨_,⟨⟩,isFresh⟩
      rcases refused with isFault | taken
      · cases isFault
      · exact taken isFresh
    · obtain ⟨accepted,isFresh⟩ := not_or.mp refused
      cases fault with
      | some => exact absurd rfl accepted
      | none =>
        obtain ⟨cut,outcome,creates,kept⟩ :=
          state.createRetry_created slot report (not_not.mp isFresh)
        rw [creates] at rest
        obtain rfl := eq_of_done (slots_setSlot_self ..) rest
        exact iff_of_true kept ⟨retryId,rfl,not_not.mp isFresh⟩

variable {freshId : Uuid} {fault : Option StoreError}
  (found : state.store.getExecution report.execution.id = some report.execution)
include found

theorem carryOut_refused
    (refused : fault.isSome ∨ report.execution.runnerId ≠ some report.event.runnerId) :
    ∃ outcome, state.carryOut slot report freshId fault (.retry nextAttempt delay) =
      state.setSlot slot (.done report.event outcome) := by
  simp only [carryOut,record]
  split
  · exact ⟨_,rfl⟩
  split
  · rename_i recorded
    obtain ⟨row,foundRow,_,held,_⟩ := Store.completeExecution_recorded recorded
    cases found.symm.trans foundRow
    rcases refused with isFault | notHeld
    · cases isFault
    · exact absurd held notHeld
  · rename_i missed
    rw [Store.completeExecution_missed (Bool.eq_false_iff.mpr missed)]
    exact ⟨_,rfl⟩

theorem carryOut_recorded (isClaimed : report.execution.state = .claimed)
    (held : report.execution.runnerId = some report.event.runnerId)
    (noRetry : ∀ retryId, ¬ state.Retried report.execution.id retryId) :
    ∃ after, state.carryOut slot report freshId none (.retry nextAttempt delay) = after ∧
      after.slots slot = .retrying report nextAttempt delay ∧ after.Ended report.execution.id ∧
      (∀ retryId, ¬ after.Retried report.execution.id retryId) ∧
      ∀ id, after.store.getExecution id = none ↔ state.store.getExecution id = none := by
  have completable :
      Store.isCompletable report.execution.id (some report.event.runnerId) report.execution =
        true :=
    Store.isCompletable_iff.mpr ⟨rfl,isClaimed,held⟩
  have counted : 0 < state.store.executions.count
      (Store.isCompletable report.execution.id (some report.event.runnerId)) :=
    (state.store.executions.count_pos_iff fun _ isOne => (Store.isCompletable_iff.mp isOne).1).mpr
      ⟨_,found,completable⟩
  simp only [carryOut,record,Store.completeExecution,counted,decide_true,if_true]
  refine ⟨_,rfl,slots_setSlot_self ..,
    ⟨_,state.store.executions.find?_updateWhere_of_met (fun row =>
      Store.completeRow_key _ _ _ _ _ row) found completable,by simp [Store.completeRow,
        ExecutionState.Ended,RecordedOutcome.state]⟩,
    not_retried_of_append rfl noRetry (by simp),fun id => ?_⟩
  simp only [setSlot,commit,Store.getExecution,Table.find?_updateWhere,Option.map_eq_none_iff]

omit found in
theorem retryKept_iff_of_writing
    (stage : state.slots slot = .writing report (.retry nextAttempt delay))
    (found : state.store.getExecution report.execution.id = some report.execution)
    (isClaimed : report.execution.state = .claimed)
    (noRetry : ∀ retryId, ¬ state.Retried report.execution.id retryId)
    (reaches : run step state (writeLabels slot writes) = some next) :
    next.crash.RetryKept report.execution.id ↔ report.RetrySafe state.store writes := by
  cases writes with
  | nil =>
    cases reaches
    exact iff_of_true (.inl ⟨_,found,isClaimed⟩) trivial
  | cons write writes =>
    obtain ⟨freshId,fault⟩ := write
    obtain ⟨middle,steps,rest⟩ := run_cons_iff.mp reaches
    simp only [step,advance,stage,Option.some.injEq] at steps
    subst steps
    by_cases refused : fault.isSome ∨ report.execution.runnerId ≠ some report.event.runnerId
    · obtain ⟨outcome,isDone⟩ := carryOut_refused found refused
      rw [isDone] at rest
      obtain rfl := eq_of_done (slots_setSlot_self ..) rest
      exact iff_of_true (.inl ⟨_,found,isClaimed⟩) (or_assoc.mp (.inl refused))
    · obtain ⟨accepted,held⟩ := not_or.mp refused
      obtain rfl : fault = none := Option.not_isSome_iff_eq_none.mp accepted
      obtain ⟨after,isRecord,stage,ended,noRetry,sameIds⟩ :=
        carryOut_recorded found isClaimed (not_not.mp held) noRetry
      rw [isRecord] at rest
      rw [retryKept_iff_of_retrying stage ended noRetry rest,Report.RetrySafe,← or_assoc,
        or_iff_right refused]
      exact exists_congr fun id => and_congr_right' (sameIds id)

end

theorem Booking.not_retried_of_claimed {id : Uuid} (booking : state.Booking id) {row : Execution}
    (found : state.store.getExecution id = some row) (isClaimed : row.state = .claimed)
    (retryId : Uuid) : ¬ state.Retried id retryId := by
  rintro ⟨slot,isEffect⟩
  have isReport : Effect.retried slot id retryId ∈ state.reportsOn id := by
    simp [reportsOn,effectsOn,isEffect,Effect.id,Effect.isBurial]
  rw [(booking.fresh_of_claimed found isClaimed).1] at isReport
  cases isReport

end CompletionState

open CompletionState

/-- A retry survives a crash exactly if the row was not read, or the writes by then leave it: the
failure is not recorded, or the retry is created after it. -/
theorem retry_survives_crash_iff (labels : List CompletionLabel) (state : CompletionState)
    (reaches : run step .initial labels = some state) (slot : Nat)
    (report : Report) (received : state.slots slot = .received report.event)
    (names : report.event.executionId = .uuid report.execution.id)
    (found : state.store.getExecution report.execution.id = some report.execution)
    (isClaimed : report.execution.state = .claimed) (applyJitter : Nat → Nat)
    (nextAttempt delay : Nat) (retries : report.decision applyJitter = .retry nextAttempt delay)
    (readFault : Option StoreError) (writes : List (Uuid × Option StoreError))
    (count : Nat) (cut : CompletionState) (reachesCut : run step state
      ((processAccesses slot report.now report.job applyJitter readFault writes).take count) =
        some cut) :
    cut.crash.RetryKept report.execution.id ↔
      readFault.isSome ∨ report.RetrySafe state.store (writes.take (count - 1)) := by
  have noRetry :=
    (booking_of_run reaches report.execution.id).not_retried_of_claimed found isClaimed
  cases count with
  | zero =>
    cases reachesCut
    exact iff_of_true (.inl ⟨_,found,isClaimed⟩) (.inr trivial)
  | succ count =>
    rw [processAccesses,take_succ_cons] at reachesCut
    obtain ⟨afterRead,steps,rest⟩ := run_cons_iff.mp reachesCut
    simp only [step,received,Option.some.injEq] at steps
    subst steps
    rw [Nat.add_sub_cancel]
    rw [writeLabels,← map_take,← writeLabels] at rest
    cases readFault with
    | some =>
      simp only [CompletionState.read,names] at rest
      obtain rfl := eq_of_done (slots_setSlot_self ..) rest
      exact iff_of_true (.inl ⟨_,found,isClaimed⟩) (.inl rfl)
    | none =>
      have reads : state.read slot report.event report.now (some report.job) applyJitter none =
          state.setSlot slot (.writing report (.retry nextAttempt delay)) := by
        simp only [CompletionState.read,names,found,← retries]
      rw [reads] at rest
      rw [Option.isSome_none,Bool.false_eq_true,false_or]
      exact (retryKept_iff_of_writing (slots_setSlot_self ..) found isClaimed noRetry rest :)

/-- The invoice is claimed, and the report of its failure is in slot 0. -/
def invoiceFailureDelivered : List CompletionLabel :=
  [.write (.create invoiceExecution),.claim 7 "runner-1" 1,.deliver 0 (invoiceFailure 7 1)]

def invoiceReport : Report where
  event := invoiceFailure 7 1
  now := 2
  execution := Store.claimRow "runner-1" 1 invoiceExecution.execution
  job := invoiceJob 3

theorem retry_survives_crash_iff_invoice :
    ∃ state cut, run step .initial invoiceFailureDelivered = some state ∧
      run step state
        ((processAccesses 0 2 (invoiceJob 3) id none
          [(8, none),(8, none)]).take 3) = some cut ∧ cut.crash.RetryKept 7 := by
  refine ⟨_,_,rfl,rfl,?_⟩
  exact (retry_survives_crash_iff invoiceFailureDelivered _ rfl 0 invoiceReport rfl rfl rfl rfl
    id 2 5000000000 (by decide) none [(8, none),(8, none)] 3 _ rfl).mpr
      (.inr (.inr (.inr ⟨8,rfl,by decide⟩)))

/-- A crash between the two writes: the row is failed and there is no other. -/
theorem crash_between_writes_loses_retry :
    ∃ state cut, run step .initial invoiceFailureDelivered = some state ∧
      invoiceReport.decision id = .retry 2 5000000000 ∧
      run step state
        ((processAccesses 0 2 (invoiceJob 3) id none
          [(8, none),(8, none)]).take 2) = some cut ∧
      ¬ cut.crash.RetryKept 7 ∧
      cut.crash.store.executions.rows.map (fun row => (row.id, row.state)) = [(7, .failed)] := by
  refine ⟨_,_,rfl,by decide,rfl,?_,by decide⟩
  rintro (⟨row,found,isClaimed⟩ | ⟨retryId,row,⟨slot,isEffect⟩,_⟩)
  · cases found
    cases isClaimed
  · have isRecord : Effect.retried slot 7 retryId ∈ [Effect.recorded 0 7 .failed] := isEffect
    cases mem_singleton.mp isRecord

end Croniq

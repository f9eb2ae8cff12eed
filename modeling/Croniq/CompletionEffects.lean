import Croniq.CompletionSteps
import Croniq.LabelledRuns

/-!
# What the reports on one execution can do

A row leaves the claimed state once and for all when a report on it is recorded,
so every later report misses.
-/

namespace Croniq

open CompletionState KeyedTables LabelledRuns List

/-- No claim is open on the row, and none will be. -/
def ExecutionState.Ended (state : ExecutionState) : Prop :=
  state ≠ .queued ∧ state ≠ .claimed

theorem Execution.Follows.ended {row next : Execution} (follows : row.Follows next)
    (ended : row.state.Ended) : next.state.Ended := by
  rcases follows.state with same | change
  · exact same ▸ ended
  · revert change ended
    cases row.state <;> cases next.state <;> simp [ExecutionState.Ended] <;> rintro ⟨⟩

theorem Execution.Follows.dead {row next : Execution} (follows : row.Follows next)
    (dead : row.state = .dead) : next.state = .dead := by
  rcases follows.state with same | change
  · exact same.trans dead
  · rw [dead] at change
    cases change

theorem RecordedOutcome.ended (outcome : RecordedOutcome) : outcome.state.Ended := by
  cases outcome <;> exact ⟨nofun,nofun⟩

namespace Effect

def id : Effect → Uuid
  | .recorded _ id _ => id
  | .retried _ id _ => id
  | .buried _ id _ => id

def slot : Effect → Nat
  | .recorded slot _ _ => slot
  | .retried slot _ _ => slot
  | .buried slot _ _ => slot

def isBurial : Effect → Bool
  | .buried _ _ _ => true
  | _ => false

def isRecord : Effect → Bool
  | .recorded _ _ _ => true
  | .retried _ _ _ => false
  | .buried _ _ _ => true

def isSuccessor : Effect → Bool
  | .recorded _ _ outcome => outcome = .completed
  | .retried _ _ _ => true
  | .buried _ _ _ => true

end Effect

namespace CompletionState

section

variable (state : CompletionState)

section

variable (id : Uuid)

def effectsOn : List Effect :=
  state.effects.filter (·.id = id)

/-- The slots of the reports recorded on an execution. -/
def recordedBy : List Nat :=
  ((state.effectsOn id).filter Effect.isRecord).map Effect.slot

def successorsOf : List Effect :=
  (state.effectsOn id).filter Effect.isSuccessor

def Ended : Prop :=
  ∃ row, state.store.getExecution id = some row ∧ row.state.Ended

/-- No slot has a failure of the execution to settle. -/
def Settled : Prop :=
  ∀ slot, (state.slots slot).pendingOn ≠ some id

def reportsOn : List Effect :=
  (state.effectsOn id).filter fun effect => !effect.isBurial

def burialsOf : List Effect :=
  (state.effectsOn id).filter Effect.isBurial

end

/-- An exhausted report does not meet a row that was failed under its runner. -/
def ExhaustedWhileOpen : CompletionLabel → Prop
  | .advance slot _ _ =>
    ∀ report reason operatorHint expiresAfter,
      state.slots slot = .writing report (.deadLetter reason operatorHint expiresAfter) →
      ∀ row, state.store.getExecution report.execution.id = some row →
        row.runnerId = some report.event.runnerId → row.state ≠ .failed
  | _ => True

def Dead (id : Uuid) : Prop :=
  ∃ row, state.store.getExecution id = some row ∧ row.state = .dead

end

/-- No record, one, or a failure and its retry; only the slot that recorded it can go on. -/
inductive Booking (state : CompletionState) (id : Uuid) : Prop
  | fresh (noReports : state.reportsOn id = []) (settled : state.Settled id)
  | recorded (slot : Nat) (outcome : RecordedOutcome)
      (oneReport : state.reportsOn id = [.recorded slot id outcome]) (ended : state.Ended id)
      (byRecorder : ∀ other, (state.slots other).pendingOn = some id →
        other = slot ∧ outcome = .failed)
  | retried (slot : Nat) (retryId : Uuid)
      (withRetry : state.reportsOn id = [.recorded slot id .failed,.retried slot id retryId])
      (ended : state.Ended id) (settled : state.Settled id)

variable {effect : Effect} {slot other : Nat}

section

variable {state next : CompletionState} {id : Uuid}
  (adds : next.effects = state.effects ++ [effect])
include adds

theorem logs_of_report (sameId : effect.id = id) (isReport : effect.isBurial = false) :
    next.reportsOn id = state.reportsOn id ++ [effect] ∧
      next.burialsOf id = state.burialsOf id := by
  simp [reportsOn,burialsOf,effectsOn,adds,sameId,isReport]

theorem logs_of_burial (sameId : effect.id = id) (isBurial : effect.isBurial = true) :
    next.reportsOn id = state.reportsOn id ∧
      next.burialsOf id = state.burialsOf id ++ [effect] := by
  simp [reportsOn,burialsOf,effectsOn,adds,sameId,isBurial]

theorem logs_of_other (isOther : effect.id ≠ id) :
    next.reportsOn id = state.reportsOn id ∧ next.burialsOf id = state.burialsOf id := by
  simp [reportsOn,burialsOf,effectsOn,adds,isOther]

end

theorem pendingOn_setSlot {state : CompletionState} {stage : Processing}
    {id : Uuid} (pending : ((state.setSlot slot stage).slots other).pendingOn = some id) :
    (other = slot ∧ stage.pendingOn = some id) ∨
      (other ≠ slot ∧ (state.slots other).pendingOn = some id) :=
  setSlot_cases (fun stage => stage.pendingOn = some id) pending

theorem pendingOn_setSlot_done {state : CompletionState}
    {event : CompletionEvent} {processed : ProcessedOutcome} {id : Uuid}
    (pending : ((state.setSlot slot (.done event processed)).slots other).pendingOn = some id) :
    other ≠ slot ∧ (state.slots other).pendingOn = some id := by
  rcases pendingOn_setSlot pending with ⟨_,isPending⟩ | isPending
  · cases isPending
  · exact isPending

namespace Booking

variable {state next : CompletionState} {id : Uuid}

theorem frame (booking : state.Booking id) (sameReports : next.reportsOn id = state.reportsOn id)
    (keepsEnd : state.Ended id → next.Ended id)
    (pending : ∀ slot, (next.slots slot).pendingOn = some id →
      (state.slots slot).pendingOn = some id) : next.Booking id := by
  cases booking with
  | fresh noReports settled =>
    exact .fresh (sameReports.trans noReports) fun slot isPending =>
      settled slot (pending slot isPending)
  | recorded slot outcome oneReport ended byRecorder =>
    exact .recorded slot outcome (sameReports.trans oneReport) (keepsEnd ended)
      fun other isPending => byRecorder other (pending other isPending)
  | retried slot retryId withRetry ended settled =>
    exact .retried slot retryId (sameReports.trans withRetry) (keepsEnd ended)
      fun other isPending => settled other (pending other isPending)

theorem fresh_of_claimed (booking : state.Booking id) {row : Execution}
    (found : state.store.getExecution id = some row) (claimed : row.state = .claimed) :
    state.reportsOn id = [] ∧ state.Settled id := by
  have notEnded : ¬ state.Ended id := by
    rintro ⟨other,foundOther,_,notClaimed⟩
    rw [found] at foundOther
    cases foundOther
    exact notClaimed claimed
  cases booking with
  | fresh noReports settled => exact ⟨noReports,settled⟩
  | recorded slot outcome oneReport ended byRecorder | retried _ _ _ ended =>
    exact absurd ended notEnded

theorem recorded_of_pending (booking : state.Booking id) {slot : Nat}
    (pending : (state.slots slot).pendingOn = some id) :
    state.reportsOn id = [.recorded slot id .failed] ∧ state.Ended id ∧
      ∀ other, (state.slots other).pendingOn = some id → other = slot := by
  cases booking with
  | fresh noReports settled => exact absurd pending (settled slot)
  | recorded recorder outcome oneReport ended byRecorder =>
    obtain ⟨rfl,rfl⟩ := byRecorder slot pending
    exact ⟨oneReport,ended,fun other isPending => (byRecorder other isPending).1⟩
  | retried recorder retryId withRetry ended settled => exact absurd pending (settled slot)

end Booking

end CompletionState

variable {label : CompletionLabel}

section

variable {state next : CompletionState} (change : Change state label next)
include change

theorem Change.ended {id : Uuid} (ended : state.Ended id) : next.Ended id := by
  obtain ⟨row,found,isEnded⟩ := ended
  obtain ⟨after,foundAfter,follows⟩ := change.survives found
  exact ⟨after,foundAfter,follows.ended isEnded⟩

theorem Change.dead {id : Uuid} (dead : state.Dead id) : next.Dead id := by
  obtain ⟨row,found,isDead⟩ := dead
  obtain ⟨after,foundAfter,follows⟩ := change.survives found
  exact ⟨after,foundAfter,follows.dead isDead⟩

/-- A step as the reports on one execution see it. -/
inductive ChangeOn (state : CompletionState) (label : CompletionLabel) (next : CompletionState)
    (id : Uuid) : Prop
  | quiet (sameReports : next.reportsOn id = state.reportsOn id)
      (sameBurials : next.burialsOf id = state.burialsOf id)
      (pending : ∀ slot, (next.slots slot).pendingOn = some id →
        (state.slots slot).pendingOn = some id)
  | recorded (slot : Nat) (outcome : RecordedOutcome) (before : Execution)
      (found : state.store.getExecution id = some before) (isClaimed : before.state = .claimed)
      (ended : next.Ended id)
      (adds : next.reportsOn id = state.reportsOn id ++ [.recorded slot id outcome])
      (sameBurials : next.burialsOf id = state.burialsOf id)
      (pending : ∀ other, (next.slots other).pendingOn = some id →
        (other = slot ∧ outcome = .failed) ∨ (state.slots other).pendingOn = some id)
  | retried (slot : Nat) (retryId : Uuid)
      (wasPending : (state.slots slot).pendingOn = some id)
      (adds : next.reportsOn id = state.reportsOn id ++ [.retried slot id retryId])
      (sameBurials : next.burialsOf id = state.burialsOf id)
      (pending : ∀ other, (next.slots other).pendingOn = some id →
        other ≠ slot ∧ (state.slots other).pendingOn = some id)
  | buried (slot : Nat) (deadLetterId : Uuid) (before : Execution)
      (found : state.store.getExecution id = some before)
      (stillOpen : before.state = .claimed ∨ before.state = .failed)
      (decided : (state.slots slot).pendingOn = some id ∨
        (state.ExhaustedWhileOpen label → before.state = .claimed))
      (dead : next.Dead id)
      (sameReports : next.reportsOn id = state.reportsOn id)
      (adds : next.burialsOf id = state.burialsOf id ++ [.buried slot id deadLetterId])
      (pending : ∀ other, (next.slots other).pendingOn = some id →
        other ≠ slot ∧ (state.slots other).pendingOn = some id)

theorem Change.on (id : Uuid) : ChangeOn state label next id := by
  cases change with
  | wrote | claimed | noted => exact .quiet rfl rfl fun _ pending => pending
  | moved label slot stage ephemeral notWriting lostRetry =>
    refine .quiet rfl rfl fun other pending => ?_
    rcases pendingOn_setSlot pending with ⟨rfl,isPending⟩ | ⟨_,isPending⟩
    · cases stage with
      | burying report reason =>
        obtain ⟨nextAttempt,delay,retrying⟩ := lostRetry report reason rfl
        rw [retrying]
        exact isPending
      | retrying => cases notWriting
      | _ => cases isPending
    · exact isPending
  | decided =>
    refine .quiet rfl rfl fun other pending => ?_
    rcases pendingOn_setSlot pending with ⟨rfl,isPending⟩ | ⟨_,isPending⟩
    · cases isPending
    · exact isPending
  | recorded slot freshId report decision outcome stage op before after writing found isClaimed
      held notClaim ends isEnded keepsLetters goesOn =>
      have pendingStage : ∀ other, stage.pendingOn = some other →
          other = report.execution.id ∧ outcome = .failed := by
        intro other pending
        rcases goesOn with ⟨event,processed,rfl⟩ | ⟨nextAttempt,delay,_,isFailed,rfl⟩
        · cases pending
        · cases pending
          exact ⟨rfl,isFailed⟩
      by_cases isReported : report.execution.id = id
      · subst isReported
        refine .recorded slot outcome before found isClaimed
          ⟨after,ends,isEnded ▸ outcome.ended⟩ (And.left (logs_of_report rfl rfl rfl))
          (And.right (logs_of_report rfl rfl rfl)) fun other pending => ?_
        rcases pendingOn_setSlot pending with ⟨isSlot,isPending⟩ | ⟨_,isPending⟩
        · exact .inl ⟨isSlot,(pendingStage _ isPending).2⟩
        · exact .inr isPending
      · refine .quiet (And.left (logs_of_other rfl isReported))
          (And.right (logs_of_other rfl isReported)) fun other pending => ?_
        rcases pendingOn_setSlot pending with ⟨_,isPending⟩ | ⟨_,isPending⟩
        · exact absurd (pendingStage _ isPending).1.symm isReported
        · exact isPending
  | retried slot report nextAttempt delay retryId event processed created retrying =>
    by_cases isReported : report.execution.id = id
    · subst isReported
      exact .retried slot retryId (by rw [retrying]; rfl) (And.left (logs_of_report rfl rfl rfl))
        (And.right (logs_of_report rfl rfl rfl)) fun _ => pendingOn_setSlot_done
    · exact .quiet (And.left (logs_of_other rfl isReported))
        (And.right (logs_of_other rfl isReported))
        fun other pending => (pendingOn_setSlot_done pending).2
  | buried slot freshId report deadLetter event processed op before after decided found stillOpen
      held notClaim ends isDead adds names =>
      by_cases isReported : report.execution.id = id
      · subst isReported
        refine .buried slot deadLetter.id before found stillOpen ?_ ⟨after,ends,isDead⟩
          (And.left (logs_of_burial rfl rfl rfl)) (And.right (logs_of_burial rfl rfl rfl))
          fun _ => pendingOn_setSlot_done
        rcases decided with ⟨reason,operatorHint,expiresAfter,writing⟩ | ⟨reason,burying⟩
        · right
          intro whileOpen
          exact stillOpen.resolve_right
            (whileOpen report reason operatorHint expiresAfter writing before found held)
        · left
          rw [burying]
          rfl
      · exact .quiet (And.left (logs_of_other rfl isReported))
          (And.right (logs_of_other rfl isReported))
          fun other pending => (pendingOn_setSlot_done pending).2

end

namespace CompletionState

theorem Booking.initial (id : Uuid) : initial.Booking id :=
  .fresh rfl fun _ pending => nomatch pending

theorem Booking.step {state next : CompletionState} {label : CompletionLabel} {id : Uuid}
    (booking : state.Booking id) (change : Change state label next) : next.Booking id := by
  have keepsEnd : state.Ended id → next.Ended id := change.ended
  cases change.on id with
  | quiet sameReports sameBurials pending => exact booking.frame sameReports keepsEnd pending
  | recorded slot outcome before found isClaimed ended adds sameBurials pending =>
    obtain ⟨noReports,settled⟩ := booking.fresh_of_claimed found isClaimed
    rw [noReports] at adds
    refine .recorded slot outcome adds ended fun other isPending => ?_
    exact (pending other isPending).resolve_right (settled other)
  | retried slot retryId wasPending adds sameBurials pending =>
    obtain ⟨oneReport,ended,byRecorder⟩ := booking.recorded_of_pending wasPending
    rw [oneReport] at adds
    refine .retried slot retryId adds (keepsEnd ended) fun other isPending => ?_
    exact (pending other isPending).1 (byRecorder other (pending other isPending).2)
  | buried slot deadLetterId before found stillOpen decided dead sameReports adds pending =>
    exact booking.frame sameReports keepsEnd fun other isPending => (pending other isPending).2

/-- The dead letters of an execution: none, or that of the only report recorded. -/
inductive Burial (state : CompletionState) (id : Uuid) : Prop
  | none (noBurials : state.burialsOf id = [])
  | one (slot : Nat) (deadLetterId : Uuid)
      (oneBurial : state.burialsOf id = [.buried slot id deadLetterId]) (dead : state.Dead id)
      (settled : state.Settled id)
      (alone : state.reportsOn id = [] ∨ state.reportsOn id = [.recorded slot id .failed])

namespace Burial

variable {state next : CompletionState} {id : Uuid}

theorem frame (burial : state.Burial id) (sameBurials : next.burialsOf id = state.burialsOf id)
    (sameReports : next.reportsOn id = state.reportsOn id)
    (keepsDead : state.Dead id → next.Dead id)
    (pending : ∀ slot, (next.slots slot).pendingOn = some id →
      (state.slots slot).pendingOn = some id) : next.Burial id := by
  cases burial with
  | none noBurials => exact .none (sameBurials.trans noBurials)
  | one slot deadLetterId oneBurial dead settled alone =>
    exact .one slot deadLetterId (sameBurials.trans oneBurial) (keepsDead dead)
      (fun other isPending => settled other (pending other isPending)) (sameReports ▸ alone)

theorem none_of_not_dead (burial : state.Burial id) {row : Execution}
    (found : state.store.getExecution id = some row) (notDead : row.state ≠ .dead) :
    state.burialsOf id = [] := by
  cases burial with
  | none noBurials => exact noBurials
  | one slot deadLetterId oneBurial dead =>
    obtain ⟨other,foundOther,isDead⟩ := dead
    rw [found] at foundOther
    cases foundOther
    exact absurd isDead notDead

theorem none_of_pending (burial : state.Burial id) {slot : Nat}
    (pending : (state.slots slot).pendingOn = some id) : state.burialsOf id = [] := by
  cases burial with
  | none noBurials => exact noBurials
  | one buryingSlot deadLetterId oneBurial dead settled => exact absurd pending (settled slot)

theorem initial (id : Uuid) : initial.Burial id :=
  .none rfl

/-- As long as exhausted reports meet open rows, a dead letter stands alone. -/
theorem step {label : CompletionLabel} (burial : state.Burial id) (booking : state.Booking id)
    (change : Change state label next) (whileOpen : state.ExhaustedWhileOpen label) :
    next.Burial id := by
  cases change.on id with
  | quiet sameReports sameBurials pending =>
    exact burial.frame sameBurials sameReports change.dead pending
  | recorded slot outcome before found isClaimed ended adds sameBurials =>
    have notDead : before.state ≠ .dead := by simp [isClaimed]
    exact .none (sameBurials.trans (burial.none_of_not_dead found notDead))
  | retried slot retryId wasPending adds sameBurials =>
    exact .none (sameBurials.trans (burial.none_of_pending wasPending))
  | buried slot deadLetterId before found stillOpen decided dead sameReports adds pending =>
    have notDead : before.state ≠ .dead := by
      rcases stillOpen with isState | isState <;> simp [isState]
    rw [burial.none_of_not_dead found notDead] at adds
    rcases decided with wasPending | wasClaimed
    · obtain ⟨oneReport,_,byRecorder⟩ := booking.recorded_of_pending wasPending
      refine .one slot deadLetterId adds dead (fun other isPending => ?_)
        (.inr (sameReports.trans oneReport))
      exact (pending other isPending).1 (byRecorder other (pending other isPending).2)
    · obtain ⟨noReports,settled⟩ := booking.fresh_of_claimed found (wasClaimed whileOpen)
      exact .one slot deadLetterId adds dead
        (fun other isPending => settled other (pending other isPending).2)
        (.inl (sameReports.trans noReports))

end Burial

end CompletionState

theorem StoreOp.mem_deadLetters_of_apply {store : Store} {op : StoreOp}
    (notReport : op.isReport = false) {deadLetter : DeadLetter}
    (isLetter : deadLetter ∈ (op.apply store).deadLetters.rows) :
    deadLetter ∈ store.deadLetters.rows := by
  cases op with
  | create fresh =>
    simp only [apply,Store.createExecution] at isLetter
    split at isLetter
    · rename_i creates
      split at creates <;> cases creates
      exact isLetter
    · exact isLetter
  | claim id runnerId now =>
    simp only [apply] at isLetter
    split at isLetter
    · rename_i claims
      rw [Store.claimExecution_eq_ok claims] at isLetter
      exact isLetter
    · exact isLetter
  | complete | completeAsDead => cases notReport
  | requeueAbandoned | requeueIfClaimed | cancel => exact isLetter
  | replayDeadLetter deadLetterId fresh =>
    simp only [apply,Store.replayDeadLetter] at isLetter
    split at isLetter
    · rename_i replays
      split at replays
      · cases replays
      · split at replays <;> cases replays
        exact mem_of_mem_filter isLetter
    · exact isLetter

namespace CompletionState

def LettersDead (state : CompletionState) : Prop :=
  ∀ deadLetter ∈ state.store.deadLetters.rows, state.Dead deadLetter.executionId

theorem LettersDead.initial : initial.LettersDead :=
  fun _ isLetter => nomatch isLetter

theorem LettersDead.step {state next : CompletionState} {label : CompletionLabel}
    (letters : state.LettersDead) (change : Change state label next) : next.LettersDead := by
  intro deadLetter isLetter
  have old : deadLetter ∈ state.store.deadLetters.rows → next.Dead deadLetter.executionId :=
    fun isOld => change.dead (letters deadLetter isOld)
  cases change with
  | wrote op notClaim notReport => exact old (StoreOp.mem_deadLetters_of_apply notReport isLetter)
  | claimed id runnerId now row store claims =>
    rw [Store.claimExecution_eq_ok claims] at isLetter
    exact old isLetter
  | noted | moved | decided => exact old isLetter
  | recorded slot freshId report decision outcome stage op before after writing found isClaimed
      held notClaim ends isEnded keepsLetters =>
      exact old (keepsLetters ▸ isLetter)
  | retried slot report nextAttempt delay retryId event processed created retrying creates =>
    refine old ?_
    unfold Store.createExecution at creates
    split at creates <;> cases creates
    exact isLetter
  | buried slot freshId report added event processed op before after decided found stillOpen
      held notClaim ends isDead adds names =>
      have isAdded : deadLetter ∈ state.store.deadLetters.rows ++ [added] := adds ▸ isLetter
      rcases mem_append.mp isAdded with isOld | isNew
      · exact old isOld
      · cases mem_singleton.mp isNew
        rw [names]
        exact ⟨after,ends,isDead⟩

variable {state : CompletionState}

/-- In every run, the records and retries of an execution are those of one report. -/
theorem booking_of_run {labels : List CompletionLabel}
    (reaches : run step .initial labels = some state) (id : Uuid) : state.Booking id :=
  invariant_of_run (Booking · id) (fun _ _ _ booking steps => booking.step (.of_step steps))
    (.initial id) reaches

/-- The accounts of all executions and the dead letters. -/
structure Accounted (state : CompletionState) : Prop where
  booking : ∀ id, state.Booking id
  burial : ∀ id, state.Burial id
  letters : state.LettersDead

theorem Accounted.initial : initial.Accounted where
  booking := Booking.initial
  burial := Burial.initial
  letters := .initial

theorem Accounted.step {state next : CompletionState} {label : CompletionLabel}
    (accounted : state.Accounted) (whileOpen : state.ExhaustedWhileOpen label)
    (steps : state.step label = some next) : next.Accounted where
  booking := fun id => (accounted.booking id).step (.of_step steps)
  burial := fun id => (accounted.burial id).step (accounted.booking id) (.of_step steps) whileOpen
  letters := accounted.letters.step (.of_step steps)

theorem mem_effectsOn_iff {id : Uuid} {effect : Effect} :
    effect ∈ state.effectsOn id ↔ effect ∈ state.reportsOn id ∨ effect ∈ state.burialsOf id := by
  simp only [reportsOn,burialsOf,mem_filter]
  cases effect.isBurial <;> simp

theorem length_successorsOf (state : CompletionState) (id : Uuid) : (state.successorsOf id).length =
      ((state.reportsOn id).filter Effect.isSuccessor).length +
        ((state.burialsOf id).filter Effect.isSuccessor).length := by
  simp only [successorsOf,reportsOn,burialsOf,filter_filter]
  induction state.effectsOn id with
  | nil => rfl
  | cons effect effects ih =>
    simp only [filter_cons]
    cases effect.isSuccessor <;> cases effect.isBurial <;> simp [ih] <;> omega

theorem Accounted.slot_unique (accounted : state.Accounted) {id : Uuid}
    {first second : Effect} (isFirst : first ∈ state.effectsOn id)
    (isSecond : second ∈ state.effectsOn id) : first.slot = second.slot := by
  obtain ⟨slot,allBySlot⟩ : ∃ slot, ∀ effect ∈ state.effectsOn id, effect.slot = slot := by
    cases accounted.burial id with
    | none noBurials =>
      cases accounted.booking id with
      | fresh noReports => exact ⟨0,by simp [mem_effectsOn_iff,noReports,noBurials]⟩
      | recorded slot outcome oneReport ended byRecorder | retried slot _ oneReport =>
        exact ⟨slot,by simp [mem_effectsOn_iff,oneReport,noBurials,Effect.slot]⟩
    | one slot deadLetterId oneBurial dead settled alone =>
      refine ⟨slot,?_⟩
      rcases alone with noReports | oneReport
      · simp [mem_effectsOn_iff,noReports,oneBurial,Effect.slot]
      · simp [mem_effectsOn_iff,oneReport,oneBurial,Effect.slot]
  rw [allBySlot first isFirst,allBySlot second isSecond]

theorem Accounted.length_successorsOf_le (accounted : state.Accounted)
    (id : Uuid) : (state.successorsOf id).length ≤ 1 := by
  rw [length_successorsOf]
  cases accounted.burial id with
  | none noBurials =>
    cases accounted.booking id with
    | fresh noReports => simp [noReports,noBurials]
    | recorded slot outcome oneReport =>
      rw [oneReport,noBurials]
      exact length_filter_le _ _
    | retried slot retryId withRetry =>
      rw [withRetry,noBurials]
      exact Nat.le_refl 1
  | one slot deadLetterId oneBurial dead settled alone =>
    rcases alone with noReports | oneReport
    · rw [noReports,oneBurial]
      exact Nat.le_refl 1
    · rw [oneReport,oneBurial]
      exact Nat.le_refl 1

end CompletionState

/-- Where exhausted reports meet open rows, at most one report on an execution is recorded, with
at most one successor, and an execution with a dead letter is dead. -/
theorem one_successor_per_execution (labels : List CompletionLabel) (state : CompletionState)
    (whileOpen : Along step ExhaustedWhileOpen .initial labels)
    (reaches : run step .initial labels = some state) (id : Uuid) :
    (∀ first ∈ state.recordedBy id, ∀ second ∈ state.recordedBy id, first = second) ∧
      (state.successorsOf id).length ≤ 1 ∧
      ∀ deadLetter ∈ state.store.deadLetters.rows, deadLetter.executionId = id →
        ∃ row, state.store.getExecution id = some row ∧ row.state = .dead := by
  have accounted : state.Accounted :=
    invariant_of_along (fun _ _ _ accounted meets steps => accounted.step meets steps) .initial
      whileOpen reaches
  refine ⟨?_,accounted.length_successorsOf_le id,?_⟩
  · intro first isFirst second isSecond
    obtain ⟨firstEffect,firstRecorded,rfl⟩ := mem_map.mp isFirst
    obtain ⟨secondEffect,secondRecorded,rfl⟩ := mem_map.mp isSecond
    exact accounted.slot_unique (mem_of_mem_filter firstRecorded)
      (mem_of_mem_filter secondRecorded)
  · rintro deadLetter isLetter rfl
    exact accounted.letters deadLetter isLetter

def invoiceExecution : FreshExecution :=
  newExecution 7 "billing:invoice" 0 0 none []

def invoiceJob (maxAttempts : Nat) : CompletionJob where
  policy :=
    { retry := { strategy := .fixed 5000000000, maxAttempts }
      timeout := { duration := 300000000000 }
      deadLetter := { enabled := true, retention := 0, operatorHint := none } }
  require := []

def invoiceFailure (id : Uuid) (attempt : Nat) : CompletionEvent where
  runnerId := "runner-1"
  executionId := .uuid id
  status := .failure
  error := some "connection refused"
  durationMs := 20
  attempt := attempt

/-- The execution is claimed and its first attempt fails. -/
def firstFailureRun (maxAttempts : Nat) : List CompletionLabel :=
  [.write (.create invoiceExecution),.claim 7 "runner-1" 1,
    .deliver 0 (invoiceFailure 7 1),
    .read 0 2 (some (invoiceJob maxAttempts)) id none,.advance 0 8 none,.advance 0 8 none]

/-- The first report comes twice; two of the last attempt meet the retry while it is claimed. -/
def repeatedReportsRun : List CompletionLabel :=
  firstFailureRun 3 ++
    [.deliver 1 (invoiceFailure 7 1),.read 1 3 (some (invoiceJob 3)) id none,
      .advance 1 9 none,.claim 8 "runner-1" 4,
      .deliver 2 (invoiceFailure 8 3),.deliver 3 (invoiceFailure 8 3),
      .read 2 5 (some (invoiceJob 3)) id none,
      .read 3 5 (some (invoiceJob 3)) id none,.advance 2 10 none,.advance 3 11 none]

theorem one_successor_per_execution_firstFailure :
    ∃ state, run step .initial repeatedReportsRun = some state ∧
      state.successorsOf 7 = [.retried 0 7 8] ∧ state.successorsOf 8 = [.buried 2 8 10] ∧
      ∀ id, (state.successorsOf id).length ≤ 1 := by
  refine ⟨_,rfl,by decide,by decide,fun id =>
    (one_successor_per_execution repeatedReportsRun _ ?_ rfl id).2.1⟩
  refine .cons trivial rfl (.cons trivial rfl (.cons trivial rfl (.cons trivial rfl ?_)))
  refine .cons (fun _ _ _ _ writing => nomatch writing) rfl ?_
  refine .cons (fun _ _ _ _ writing => nomatch writing) rfl ?_
  refine .cons trivial rfl (.cons trivial rfl ?_)
  refine .cons (fun _ _ _ _ writing => nomatch writing) rfl ?_
  refine .cons trivial rfl (.cons trivial rfl (.cons trivial rfl ?_))
  refine .cons trivial rfl (.cons trivial rfl ?_)
  -- The first report of the last attempt meets the claimed row, the second the dead one.
  refine .cons ?_ rfl (.cons ?_ rfl trivial)
  · rintro _ _ _ _ ⟨⟩ row ⟨⟩ _ ⟨⟩
  · rintro _ _ _ _ ⟨⟩ row ⟨⟩ _ ⟨⟩

/-- A report of exhausted attempts buries an execution that was failed and retried. -/
theorem exhausted_report_buries_retried_execution :
    ∃ state,
      run step .initial
        (firstFailureRun 3 ++ [.deliver 1 (invoiceFailure 7 3),
          .read 1 3 (some (invoiceJob 3)) id none,.advance 1 9 none]) =
          some state ∧
      state.recordedBy 7 = [0,1] ∧
      state.successorsOf 7 = [.retried 0 7 8,.buried 1 7 9] ∧
      (state.store.getExecution 8).map Execution.state = some .queued ∧
      state.store.deadLetters.rows.map DeadLetter.executionId = [7] :=
  ⟨_,rfl,by decide,by decide,by decide,by decide⟩

end Croniq

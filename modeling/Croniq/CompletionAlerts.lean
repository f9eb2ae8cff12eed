import Croniq.CompletionProcessor
import Croniq.FailureAlerts
import Croniq.LabelledRuns

/-!
# What a report sets off beside its row

Processing a report as one call: the row is read, the policies decide, the end
of the attempt is written, and what follows from it is done — a retry, a dead
letter, a longer failure streak or the end of one, alerts.
-/

namespace Croniq

/-- The clock, the job, the jitter, fresh ids, the alerts, and what others do to the store before
each write. -/
structure CompletionSite where
  now : Int
  job : Option CompletionJob
  applyJitter : Nat → Nat
  (retryId deadLetterId : Uuid)
  alertSite : AlertSite
  beforeEnd : Store → Store
  beforeRetry : Store → Store
  beforeFallback : Store → Store

/-- Which accesses after the write of the end fail. -/
structure LaterFaults where
  (createRetry fallback : Option StoreError)
  alerts : AlertCall → Bool

structure CompletionWorld where
  store : Store
  queue : List WorkItem
  ephemeral : List ExecutionId
  alerts : AlertBook

namespace CompletionSite

variable (site : CompletionSite)

/-- The row and the job of a report, or the answer without them. -/
def readReport (fault : Option StoreError) (world : CompletionWorld) (event : CompletionEvent) :
    Except (CompletionWorld × ProcessedOutcome) Report :=
  match event.executionId, fault with
  | .text _, _ => .error (world, .notFound)
  | .uuid _, some _ => .error (world, .notFound)
  | .uuid id, none =>
    match world.store.getExecution id, site.job with
    | none, _ =>
      if event.executionId ∈ world.ephemeral then
        .error ({ world with ephemeral := world.ephemeral.erase event.executionId }, .ephemeral)
      else .error (world, .notFound)
    | some _, none => .error (world, .notFound)
    | some execution, some job => .ok { event, now := site.now, execution, job }

def finalLetter (report : Report) (reason : String) (operatorHint : Option String)
    (expiresAfter : Option Nat) : DeadLetter :=
  report.deadLetter site.deadLetterId (deadReasonWithHint reason operatorHint)
    (expiresAfter.map fun duration => report.now + spanOfDuration duration)

/-- The letter of an execution whose retry was not written. -/
def lostRetryLetter (report : Report) (reason : String) : DeadLetter :=
  report.deadLetter site.deadLetterId reason (report.job.policy.deadLetter.expiresAt report.now)

/-- Write the end of the attempt, guarded by the runner; the answer says whether a row matched. -/
def writeEnd (fault : Option StoreError) (store : Store) (report : Report) :
    Except StoreError (Store × Bool) :=
  let complete (outcome : RecordedOutcome) (error deadReason : Option String) :=
    store.completeExecution report.execution.id (some report.event.runnerId) outcome.state
      (some (asSigned64 report.event.durationMs)) error deadReason report.now
  match fault with
  | some error => .error error
  | none =>
    match report.decision site.applyJitter with
    | .success => .ok (complete .completed none none)
    | .retry _ _ => .ok (complete .failed report.event.error none)
    | .deadLetter reason operatorHint expiresAfter =>
      store.completeAsDead report.execution.id (some report.event.runnerId)
        (some (asSigned64 report.event.durationMs)) report.event.error
        (site.finalLetter report reason operatorHint expiresAfter) report.now
    | .dropped reason => .ok (complete .failed report.event.error (some reason))
    | .cancelled => .ok (complete .cancelled none none)

variable (later : LaterFaults)

def fireAlerts (report : Report) (reason : String) (world : CompletionWorld) : CompletionWorld :=
  { world with
    alerts :=
      { site.alertSite with fails := later.alerts }.fireAlerts report.execution.jobKey
        report.event.executionId report.event.error report.event.attempt reason world.alerts }

def endIncident (report : Report) (world : CompletionWorld) : CompletionWorld :=
  { world with
    alerts :=
      { site.alertSite with fails := later.alerts }.endIncident report.execution.jobKey
        report.event.executionId world.alerts }

def lostRetryReason (nextAttempt : Nat) (error : StoreError) : String :=
  "retry attempt " ++ toString nextAttempt ++ " could not be persisted: " ++ error.display

/-- A retry that cannot be written ends the chain, with a dead letter if there are any. -/
def loseRetry (report : Report) (nextAttempt : Nat) (error : StoreError)
    (world : CompletionWorld) : CompletionWorld × ProcessedOutcome :=
  let reason := lostRetryReason nextAttempt error
  let store := site.beforeFallback world.store
  let dropped := (site.fireAlerts later report droppedReason { world with store },
    ProcessedOutcome.dropped reason)
  if report.job.policy.deadLetter.enabled then
    match later.fallback with
    | some _ => dropped
    | none =>
      match store.completeAsDead report.execution.id (some report.event.runnerId)
          (some (asSigned64 report.event.durationMs)) report.event.error
          (site.lostRetryLetter report reason) report.now with
      | .ok (ended, true) =>
        (site.fireAlerts later report deadLetterReason { world with store := ended },
          .deadLettered reason)
      | _ => dropped
  else (site.fireAlerts later report droppedReason world, .dropped reason)

def createRetry (report : Report) (nextAttempt delay : Nat)
    (world : CompletionWorld) : CompletionWorld × ProcessedOutcome :=
  let store := site.beforeRetry world.store
  match later.createRetry with
  | some error => site.loseRetry later report nextAttempt error { world with store }
  | none =>
    match store.createExecution
        (report.retryExecution site.retryId nextAttempt delay).execution with
    | .error error => site.loseRetry later report nextAttempt error { world with store }
    | .ok created =>
      ({ world with
          store := created
          queue := enqueue world.queue (report.retryItem site.retryId delay) },
        .retrying nextAttempt)

/-- What follows from a decision and the answer to the write of the end. -/
def conclude (report : Report) (world : CompletionWorld) :
    ExecutionOutcome → Except StoreError (Store × Bool) → CompletionWorld × ProcessedOutcome
  | .success, .ok (ended, true) =>
    (site.endIncident later report { world with store := ended }, .completed)
  | .success, .ok (ended, false) => ({ world with store := ended }, .stale)
  | .success, .error _ => (world, .unrecorded)
  | .retry nextAttempt delay, .ok (ended, true) =>
    site.createRetry later report nextAttempt delay { world with store := ended }
  | .retry _ _, .ok (ended, false) => ({ world with store := ended }, .stale)
  | .retry _ _, .error _ => (world, .unrecorded)
  | .deadLetter reason _ _, .ok (ended, true) =>
    (site.fireAlerts later report deadLetterReason { world with store := ended },
      .deadLettered reason)
  | .deadLetter _ _ _, .ok (ended, false) => ({ world with store := ended }, .stale)
  | .deadLetter reason _ _, .error _ =>
    (site.fireAlerts later report deadLetterReason world, .deadLettered reason)
  | .dropped _, .ok (ended, false) => ({ world with store := ended }, .stale)
  | .dropped reason, .ok (ended, true) =>
    (site.fireAlerts later report droppedReason { world with store := ended }, .dropped reason)
  | .dropped reason, .error _ => (site.fireAlerts later report droppedReason world, .dropped reason)
  | .cancelled, .ok (ended, _) => ({ world with store := ended }, .completed)
  | .cancelled, .error _ => (world, .completed)

def atEnd (world : CompletionWorld) : CompletionWorld :=
  { world with store := site.beforeEnd world.store }

variable (readFault endFault : Option StoreError)

def process (later : LaterFaults)
    (world : CompletionWorld) (event : CompletionEvent) : CompletionWorld × ProcessedOutcome :=
  match site.readReport readFault world event with
  | .error answer => answer
  | .ok report =>
    let found := site.atEnd world
    site.conclude later report found (report.decision site.applyJitter)
      (site.writeEnd endFault found.store report)

variable {store ended : Store} {id : Uuid} {runnerId error : Option String}
  {durationMs : Option Int} {now : Int}

theorem completeExecution_of_missed {state : ExecutionState} {deadReason : Option String}
    (missed : store.completeExecution id runnerId state durationMs error deadReason now =
      (ended, false)) : ended = store := by
  have noRow : store.executions.count (Store.isCompletable id runnerId) = 0 := by
    have answer := congrArg Prod.snd missed
    simpa [Store.completeExecution] using answer
  have same : (store.completeExecution id runnerId state durationMs error deadReason now).1 =
      ended := congrArg Prod.fst missed
  rw [← same]
  simp [Store.completeExecution,store.executions.updateWhere_eq_self _ noRow]

theorem completeAsDead_of_missed {deadLetter : DeadLetter}
    (missed : store.completeAsDead id runnerId durationMs error deadLetter now =
      .ok (ended, false)) : ended = store := by
  unfold Store.completeAsDead at missed
  split at missed
  · cases missed
    rfl
  · split at missed <;> cases missed

/-- The answer to the write of the end, if the call gets that far. -/
def endAnswer (world : CompletionWorld)
    (event : CompletionEvent) : Option (Except StoreError (Store × Bool)) :=
  match site.readReport readFault world event with
  | .error _ => none
  | .ok report => some (site.writeEnd endFault (site.atEnd world).store report)

/-- The write of the end fails or matches no row. -/
def EndUnrecorded (world : CompletionWorld) (event : CompletionEvent) : Prop :=
  ∃ answer ∈ site.endAnswer readFault endFault world event,
    ∀ ended, answer ≠ .ok (ended, true)

end CompletionSite

/-- No retry, dead letter, change of a streak, recovery or alert. -/
structure NothingDecided (before after : CompletionWorld) : Prop where
  executions : after.store.executions = before.store.executions
  queue : after.queue = before.queue
  deadLetters : after.store.deadLetters = before.store.deadLetters
  streaks : after.alerts.streaks = before.alerts.streaks
  acks : after.alerts.acks = before.alerts.acks
  sent : after.alerts.sent = before.alerts.sent

namespace CompletionSite

variable (site : CompletionSite)

theorem store_of_missed {fault : Option StoreError} {store ended : Store} {report : Report}
    (missed : site.writeEnd fault store report = .ok (ended, false)) : ended = store := by
  unfold writeEnd at missed
  cases fault with
  | some => cases missed
  | none =>
    dsimp only at missed
    split at missed
    · exact completeExecution_of_missed (Except.ok.inj missed)
    · exact completeExecution_of_missed (Except.ok.inj missed)
    · exact completeAsDead_of_missed missed
    · exact completeExecution_of_missed (Except.ok.inj missed)
    · exact completeExecution_of_missed (Except.ok.inj missed)

end CompletionSite

def ExecutionOutcome.givesUp : ExecutionOutcome → Bool
  | .deadLetter _ _ _ | .dropped _ => true
  | _ => false

namespace Report

theorem givesUp_decision (report : Report) (applyJitter : Nat → Nat) :
    (report.decision applyJitter).givesUp = true ↔
      report.event.status = .failure ∧
        report.job.policy.retry.maxAttempts ≤ report.event.attempt := by
  unfold decision
  cases status : report.event.status with
  | success => simp [ExecutionOutcome.givesUp,ExecutionPolicy.evaluate]
  | cancelled => simp [ExecutionOutcome.givesUp]
  | failure =>
    by_cases exhausted : report.job.policy.retry.maxAttempts ≤ report.event.attempt
    · simp only [ExecutionPolicy.evaluate,RetryPolicy.evaluate,exhausted]
      cases report.job.policy.deadLetter.enabled <;> simp [ExecutionOutcome.givesUp]
    · simp [ExecutionPolicy.evaluate,RetryPolicy.evaluate,exhausted,ExecutionOutcome.givesUp]

end Report

namespace CompletionSite

variable (site : CompletionSite)

/-- Where the attempt is not the last, or its end matched no row, the world stays. -/
theorem conclude_of_unrecorded {fault : Option StoreError} {report : Report}
    {world : CompletionWorld} (later : LaterFaults)
    (unrecorded : ∀ ended, site.writeEnd fault world.store report ≠ .ok (ended, true))
    (careful : (report.decision site.applyJitter).givesUp = true →
      ∀ error, site.writeEnd fault world.store report ≠ .error error) :
    (site.conclude later report world (report.decision site.applyJitter)
      (site.writeEnd fault world.store report)).1 = world := by
  cases answer : site.writeEnd fault world.store report with
  | error error =>
    cases decided : report.decision site.applyJitter with
    | success => rfl
    | retry => rfl
    | cancelled => rfl
    | deadLetter reason operatorHint expiresAfter =>
      exact absurd answer (careful (by rw [decided]; rfl) error)
    | dropped reason => exact absurd answer (careful (by rw [decided]; rfl) error)
  | ok result =>
    obtain ⟨ended,matched⟩ := result
    cases matched with
    | true => exact absurd answer (unrecorded ended)
    | false =>
      have same : ended = world.store := site.store_of_missed answer
      subst same
      cases report.decision site.applyJitter <;> rfl

/-- A report that gives the execution up lengthens the streak although the end is not recorded. -/
theorem conclude_of_failed_end {later : LaterFaults} {report : Report} {error : StoreError}
    (world : CompletionWorld) (givesUp : (report.decision site.applyJitter).givesUp = true)
    (counts : later.alerts .recordJobFailure = false) :
    (site.conclude later report world (report.decision site.applyJitter)
      (.error error)).1.alerts.streaks ≠ world.alerts.streaks := by
  have lengthens : ∀ reason,
      (site.fireAlerts later report reason world).alerts.streaks ≠ world.alerts.streaks := by
    intro reason same
    have counted := AlertSite.consecutive_fireAlerts
      { site.alertSite with fails := later.alerts } counts report.execution.jobKey
      report.event.executionId report.event.error report.event.attempt reason world.alerts
    have longer := congrArg (fun streaks : String → Option JobFailureStreak =>
      (streaks report.execution.jobKey).map JobFailureStreak.consecutive) same
    simp only [fireAlerts] at longer
    rw [counted] at longer
    cases streak : world.alerts.streaks report.execution.jobKey with
    | none => simp [streak] at longer
    | some streak => simp_all
  cases decided : report.decision site.applyJitter with
  | deadLetter => exact lengthens deadLetterReason
  | dropped => exact lengthens droppedReason
  | success | cancelled | retry _ _ =>
    rw [decided] at givesUp
    cases givesUp

/-- Nothing is decided on an attempt whose end is not recorded, except where the
store fails to write the end of the last attempt. -/
theorem nothingDecided_iff (readFault endFault : Option StoreError) (world : CompletionWorld)
    (event : CompletionEvent) : (∀ later, site.EndUnrecorded readFault endFault world event →
      NothingDecided (site.atEnd world) (site.process readFault endFault later world event).1) ↔
    ∀ report, site.readReport readFault world event = .ok report →
      ¬(report.event.status = .failure ∧
        report.job.policy.retry.maxAttempts ≤ report.event.attempt ∧
        ∃ error, site.writeEnd endFault (site.atEnd world).store report = .error error) := by
  constructor
  · rintro holds report read ⟨failure,exhausted,error,failed⟩
    have givesUp := (report.givesUp_decision site.applyJitter).mpr ⟨failure,exhausted⟩
    let later : LaterFaults := ⟨none,none,fun _ => false⟩
    have unrecorded : site.EndUnrecorded readFault endFault world event := by
      refine ⟨.error error,?_,fun ended => by simp⟩
      simp [endAnswer,read,failed]
    have same := (holds later unrecorded).streaks
    simp only [process,read,failed] at same
    exact site.conclude_of_failed_end (site.atEnd world) givesUp rfl same
  · rintro careful later ⟨answer,isAnswer,unrecorded⟩
    simp only [endAnswer] at isAnswer
    cases read : site.readReport readFault world event with
    | error => simp [read] at isAnswer
    | ok report =>
      rw [read] at isAnswer
      cases isAnswer
      have same := site.conclude_of_unrecorded later unrecorded
        fun givesUp error failed => careful report read
          ⟨((report.givesUp_decision _).mp givesUp).1,((report.givesUp_decision _).mp givesUp).2,
            error,failed⟩
      simp only [process,read,same]
      exact ⟨rfl,rfl,rfl,rfl,rfl,rfl⟩

end CompletionSite

/-- The third and last attempt, held by the runner that reports. -/
def lastAttempt : Execution :=
  { (newExecution 7 "billing:sync" 0 0 none []).execution with
    attempt := 3
    state := .claimed
    runnerId := some "worker-1"
    claimedAt := some 1
    startedAt := some 1 }

def lastAttemptFailed : CompletionEvent :=
  ⟨"worker-1",.uuid 7,.failure,some "connection refused",250,3⟩

def lastAttemptWorld : CompletionWorld where
  store := { Store.empty with executions := .single _ lastAttempt }
  queue := []
  ephemeral := []
  alerts := .empty

/-- One rule that pages about every permanent failure. -/
def pagingSite : CompletionSite where
  now := 10
  job := some
    { policy := ⟨⟨.fixed 0,3⟩,⟨300000000000⟩,⟨true,0,none⟩⟩
      require := [] }
  applyJitter := id
  retryId := 8
  deadLetterId := 9
  alertSite :=
    { alerts :=
        { channels := fun _ => some ⟨"oncall",.shell "/usr/local/bin/page-oncall.sh"⟩
          rules := [⟨"failures",.jobFailed,"*",1,1,true,none,none,["oncall"]⟩] }
      now := 10
      send := fun _ _ _ => none
      toRfc3339 := fun _ => ""
      fails := fun _ => false }
  beforeEnd := id
  beforeRetry := id
  beforeFallback := id

def diskError : StoreError := .database "disk I/O error"

/-- Processing the report while the dead letter cannot be written. -/
def pagedUnrecorded : CompletionWorld × ProcessedOutcome :=
  pagingSite.process none (some diskError) ⟨none,none,fun _ => false⟩ lastAttemptWorld
    lastAttemptFailed

/-- The row is still claimed, and yet the job is reported as dead. -/
theorem failed_end_pages :
    pagingSite.EndUnrecorded none (some diskError) lastAttemptWorld lastAttemptFailed ∧
      (pagedUnrecorded.1.store.getExecution 7).map Execution.state = some .claimed ∧
      (pagedUnrecorded.1.alerts.streaks "billing:sync").map JobFailureStreak.consecutive = some 1 ∧
      pagedUnrecorded.1.alerts.sent.map AlertDelivery.channelName = ["oncall"] ∧
      ¬ NothingDecided (pagingSite.atEnd lastAttemptWorld) pagedUnrecorded.1 := by
  have sent : pagedUnrecorded.1.alerts.sent.map AlertDelivery.channelName = ["oncall"] := by decide
  refine ⟨⟨.error diskError,rfl,fun ended => by simp⟩,by decide,by decide,sent,?_⟩
  intro nothing
  rw [nothing.sent] at sent
  cases sent

end Croniq

import Croniq.CompletionEffects
import Croniq.RankedChains

/-!
# The chain of retries of a fire

An execution that fails is followed by at most one retry, so the executions that
come from one fire form a chain.
-/

namespace Croniq

open CompletionState ExecutionRequest KeyedTables LabelledRuns List Option RankedChains

namespace CompletionState

variable (state : CompletionState)

/-- The retry of an execution that a report created. -/
def Retried (source retry : Uuid) : Prop :=
  ∃ slot, .retried slot source retry ∈ state.effects

def attemptOf (id : Uuid) : Option Nat :=
  (state.store.getExecution id).map fun row => row.attempt

/-- The policy of a job allows so many attempts at every decision. -/
def UnderPolicy (job : String) (maxAttempts : Nat) (state : CompletionState) :
    CompletionLabel → Prop
  | .read slot _ (some config) _ none =>
    ∀ event id row, state.slots slot = .received event → event.executionId = .uuid id →
      state.store.getExecution id = some row → row.jobKey = job →
      config.policy.retry.maxAttempts = maxAttempts
  | _ => True

/-- A failure is reported with the stored attempt. -/
def StoredAttempts (job : String) (state : CompletionState) : CompletionLabel → Prop
  | .read slot _ (some _) _ none =>
    ∀ event id row, state.slots slot = .received event → event.executionId = .uuid id →
      state.store.getExecution id = some row → row.jobKey = job → event.status = .failure →
      event.attempt = row.attempt
  | _ => True

end CompletionState

def Processing.plannedRetry : Processing → Option (Report × Nat)
  | .writing report (.retry nextAttempt _) => some (report, nextAttempt)
  | .retrying report nextAttempt _ => some (report, nextAttempt)
  | _ => none

theorem CompletionState.plannedRetry_setSlot {state : CompletionState} {slot other : Nat}
    {stage : Processing} {planned : Report × Nat}
    (plans : ((state.setSlot slot stage).slots other).plannedRetry = some planned) :
    (other = slot ∧ stage.plannedRetry = some planned) ∨
      (other ≠ slot ∧ (state.slots other).plannedRetry = some planned) :=
  setSlot_cases (fun stage => stage.plannedRetry = some planned) plans

theorem Report.decision_eq_retry {report : Report} {applyJitter : Nat → Nat}
    {nextAttempt delay : Nat} (retries : report.decision applyJitter = .retry nextAttempt delay) :
    report.event.status = .failure ∧ nextAttempt = report.event.attempt + 1 ∧
      nextAttempt ≤ report.job.policy.retry.maxAttempts := by
  unfold decision at retries
  split at retries
  · cases retries
  rename_i notCancelled
  obtain ⟨notSuccess,isNext,within⟩ := ExecutionPolicy.evaluate_eq_retry retries
  refine ⟨?_,isNext,within⟩
  revert notCancelled notSuccess
  cases report.event.status <;> simp

/-- A row of the job with the attempt before, within the limit. -/
def Execution.Precedes (job : String) (maxAttempts : Nat) (row : Execution) (nextAttempt : Nat) :
    Prop :=
  row.jobKey = job → nextAttempt = row.attempt + 1 ∧ nextAttempt ≤ maxAttempts

namespace CompletionState

/-- The retry of a row has the next attempt. -/
def LinkNumbered (job : String) (maxAttempts : Nat) (state : CompletionState)
    (source retry : Uuid) : Prop :=
  ∃ row after, state.store.getExecution source = some row ∧
    state.store.getExecution retry = some after ∧ after.jobKey = row.jobKey ∧
    row.Precedes job maxAttempts after.attempt

/-- The retry planned for a row has the next attempt. -/
def PlanNumbered (job : String) (maxAttempts : Nat) (state : CompletionState) (report : Report)
    (nextAttempt : Nat) : Prop :=
  ∃ row, state.store.getExecution report.execution.id = some row ∧
    row.toExecutionRequest = report.execution.toExecutionRequest ∧
    row.Precedes job maxAttempts nextAttempt

structure Numbered (job : String) (maxAttempts : Nat) (state : CompletionState) : Prop where
  links : ∀ source retry, state.Retried source retry →
    state.LinkNumbered job maxAttempts source retry
  plans : ∀ slot report nextAttempt, (state.slots slot).plannedRetry = some (report, nextAttempt) →
    state.PlanNumbered job maxAttempts report nextAttempt

end CompletionState

theorem Execution.Follows.precedes {row next : Execution} (follows : row.Follows next)
    {job : String} {maxAttempts nextAttempt : Nat}
    (precedes : row.Precedes job maxAttempts nextAttempt) :
    next.Precedes job maxAttempts nextAttempt := by
  intro isJob
  have sameAttempt : next.attempt = row.attempt := congrArg attempt follows.request
  have sameJob : next.jobKey = row.jobKey := congrArg jobKey follows.request
  rw [sameAttempt]
  exact precedes (sameJob ▸ isJob)

namespace Change

open CompletionState

variable {state next : CompletionState} {label : CompletionLabel} {job : String}
  {maxAttempts : Nat} {source retry : Uuid} {report : Report} {nextAttempt : Nat}

section

variable (change : Change state label next)
include change

theorem linkNumbered (numbered : state.LinkNumbered job maxAttempts source retry) :
    next.LinkNumbered job maxAttempts source retry := by
  obtain ⟨row,after,found,foundAfter,sameJob,precedes⟩ := numbered
  obtain ⟨nextRow,foundNext,follows⟩ := change.survives found
  obtain ⟨nextAfter,foundNextAfter,followsAfter⟩ := change.survives foundAfter
  have sameAttempt : nextAfter.attempt = after.attempt := congrArg attempt followsAfter.request
  refine ⟨nextRow,nextAfter,foundNext,foundNextAfter,?_,
    sameAttempt ▸ follows.precedes precedes⟩
  calc
    nextAfter.jobKey = after.jobKey := congrArg jobKey followsAfter.request
    _ = row.jobKey := sameJob
    _ = nextRow.jobKey := (congrArg jobKey follows.request).symm

theorem planNumbered (numbered : state.PlanNumbered job maxAttempts report nextAttempt) :
    next.PlanNumbered job maxAttempts report nextAttempt := by
  obtain ⟨row,found,sameRequest,precedes⟩ := numbered
  obtain ⟨nextRow,foundNext,follows⟩ := change.survives found
  exact ⟨nextRow,foundNext,follows.request.trans sameRequest,follows.precedes precedes⟩

theorem plannedRetry {slot : Nat}
    (planned : (next.slots slot).plannedRetry = some (report, nextAttempt)) :
    (state.slots slot).plannedRetry = some (report, nextAttempt) ∨
      ∃ applyJitter delay,
        label = .read slot report.now (some report.job) applyJitter none ∧
        state.slots slot = .received report.event ∧
        report.event.executionId = .uuid report.execution.id ∧
        state.store.getExecution report.execution.id = some report.execution ∧
        report.decision applyJitter = .retry nextAttempt delay := by
  cases change with
  | wrote | claimed | noted => exact .inl planned
  | moved label moving stage ephemeral notWriting =>
    rcases plannedRetry_setSlot planned with ⟨_,plans⟩ | ⟨_,plans⟩
    · cases stage <;> cases notWriting <;> cases plans
    · exact .inl plans
  | decided deciding read applyJitter received names found =>
    rcases plannedRetry_setSlot planned with ⟨rfl,plans⟩ | ⟨_,plans⟩
    · right
      generalize decides : Report.decision _ applyJitter = outcome at plans
      cases outcome <;> cases plans
      exact ⟨applyJitter,_,rfl,received,names,found,decides⟩
    · exact .inl plans
  | recorded writer freshId written decision outcome stage op before after writing found isClaimed
      held notClaim ends isEnded keepsLetters goesOn =>
      rcases plannedRetry_setSlot planned with ⟨rfl,plans⟩ | ⟨_,plans⟩
      · left
        rcases goesOn with ⟨event,processed,rfl⟩ | ⟨attempt,delay,rfl,_,rfl⟩
        · cases plans
        · rw [writing]
          exact plans
      · exact .inl plans
  | retried | buried =>
    rcases plannedRetry_setSlot planned with ⟨_,plans⟩ | ⟨_,plans⟩
    · cases plans
    · exact .inl plans

theorem retried_cases (retried : next.Retried source retry) : state.Retried source retry ∨
      ∃ slot report nextAttempt after, report.execution.id = source ∧
        (state.slots slot).plannedRetry = some (report, nextAttempt) ∧
        next.store.getExecution retry = some after ∧
        after.jobKey = report.execution.jobKey ∧ after.attempt = nextAttempt := by
  obtain ⟨slot,isEffect⟩ := retried
  have otherEffect {effect : Effect}
      (isAdded : .retried slot source retry ∈ state.effects ++ [effect])
      (isOther : effect ≠ .retried slot source retry) :
      state.Retried source retry := by
    rcases mem_append.mp isAdded with isOld | isNew
    · exact ⟨slot,isOld⟩
    · exact absurd (mem_singleton.mp isNew).symm isOther
  cases change with
  | wrote | claimed | noted | moved | decided => exact .inl ⟨slot,isEffect⟩
  | recorded | buried => exact .inl (otherEffect isEffect nofun)
  | retried creating report nextAttempt delay retryId event processed created retrying
      creates =>
      rcases mem_append.mp isEffect with isOld | isNew
      · exact .inl ⟨slot,isOld⟩
      · cases mem_singleton.mp isNew
        exact .inr ⟨slot,report,nextAttempt,_,rfl,by rw [retrying]; rfl,
          Store.getExecution_createExecution creates,rfl,rfl⟩

end

end Change

namespace CompletionState

variable {state next : CompletionState} {label : CompletionLabel} {job : String}
  {maxAttempts : Nat}

theorem Numbered.initial (job : String) (maxAttempts : Nat) : initial.Numbered job maxAttempts where
  links := fun _ _ ⟨_,isEffect⟩ => nomatch isEffect
  plans := fun _ _ _ planned => nomatch planned

theorem Numbered.step (numbered : state.Numbered job maxAttempts)
    (underPolicy : state.UnderPolicy job maxAttempts label)
    (storedAttempts : state.StoredAttempts job label) (change : Change state label next) :
    next.Numbered job maxAttempts where
  links := by
    intro source retry retried
    rcases change.retried_cases retried with
      old | ⟨slot,report,nextAttempt,after,rfl,planned,foundAfter,sameJob,isNext⟩
    · exact change.linkNumbered (numbered.links source retry old)
    obtain ⟨row,found,sameRequest,precedes⟩ :=
      change.planNumbered (numbered.plans slot report nextAttempt planned)
    refine ⟨row,after,found,foundAfter,?_,isNext ▸ precedes⟩
    rw [sameJob]
    exact (congrArg jobKey sameRequest).symm
  plans := by
    intro slot report nextAttempt planned
    rcases change.plannedRetry planned with
      old | ⟨applyJitter,delay,rfl,received,names,found,retries⟩
    · exact change.planNumbered (numbered.plans slot report nextAttempt old)
    refine change.planNumbered ⟨report.execution,found,rfl,?_⟩
    intro isJob
    obtain ⟨isFailure,isNext,within⟩ := Report.decision_eq_retry retries
    rw [underPolicy _ _ _ received names found isJob] at within
    rw [storedAttempts _ _ _ received names found isJob isFailure] at isNext
    exact ⟨isNext,within⟩

theorem Booking.retried_unique {source first second : Uuid} (booking : state.Booking source)
    (isFirst : state.Retried source first) (isSecond : state.Retried source second) :
    first = second := by
  have isReport {slot : Nat} {retry : Uuid}
      (isEffect : .retried slot source retry ∈ state.effects) :
      .retried slot source retry ∈ state.reportsOn source := by
    simp [reportsOn,effectsOn,isEffect,Effect.id,Effect.isBurial]
  obtain ⟨firstSlot,firstEffect⟩ := isFirst
  obtain ⟨secondSlot,secondEffect⟩ := isSecond
  have firstReport := isReport firstEffect
  have secondReport := isReport secondEffect
  cases booking with
  | fresh noReports => simp [noReports] at firstReport
  | recorded slot outcome oneReport => simp [oneReport] at firstReport
  | retried slot retryId withRetry =>
    simp only [withRetry,mem_cons,reduceCtorEq,Effect.retried.injEq,not_mem_nil,
      or_false,false_or] at firstReport secondReport
    exact firstReport.2.2.trans secondReport.2.2.symm

/-- One retry for each execution, with the next attempt. -/
structure Chained (job : String) (maxAttempts : Nat) (state : CompletionState) : Prop where
  booking : ∀ id, state.Booking id
  numbered : state.Numbered job maxAttempts

theorem Chained.initial (job : String) (maxAttempts : Nat) : initial.Chained job maxAttempts where
  booking := Booking.initial
  numbered := .initial job maxAttempts

theorem Chained.step (chained : state.Chained job maxAttempts)
    (underPolicy : state.UnderPolicy job maxAttempts label)
    (storedAttempts : state.StoredAttempts job label) (steps : state.step label = some next) :
    next.Chained job maxAttempts where
  booking := fun id => (chained.booking id).step (.of_step steps)
  numbered := chained.numbered.step underPolicy storedAttempts (.of_step steps)

theorem Chained.ranked (chained : state.Chained job maxAttempts) :
    Ranked state.Retried (fun id => (state.attemptOf id).getD 0) maxAttempts
      (fun id => ∃ row, state.store.getExecution id = some row ∧ row.jobKey = job) where
  unique := fun {node} _ _ _ isFirst isSecond =>
    (chained.booking node).retried_unique isFirst isSecond
  closed := by
    rintro source retry ⟨row,found,isJob⟩ retried
    obtain ⟨other,after,foundOther,foundAfter,sameJob,_⟩ :=
      chained.numbered.links source retry retried
    rw [found] at foundOther
    cases foundOther
    exact ⟨after,foundAfter,sameJob.trans isJob⟩
  rises := by
    rintro source retry ⟨row,found,isJob⟩ retried
    obtain ⟨other,after,foundOther,foundAfter,_,precedes⟩ :=
      chained.numbered.links source retry retried
    rw [found] at foundOther
    cases foundOther
    simp only [attemptOf,found,foundAfter,map_some,getD_some]
    exact (precedes isJob).1
  bounded := by
    rintro source retry ⟨row,found,isJob⟩ retried
    obtain ⟨other,after,foundOther,foundAfter,_,precedes⟩ :=
      chained.numbered.links source retry retried
    rw [found] at foundOther
    cases foundOther
    simp only [attemptOf,foundAfter,map_some,getD_some]
    exact (precedes isJob).2

end CompletionState

open CompletionState Relation

/-- Where failures are reported with the stored attempt, the executions of one fire form a chain
within the limit of the policy, with the attempts 1, 2, 3 and so on. -/
theorem retry_chain_bounded (job : String) (maxAttempts : Nat) (positive : 1 ≤ maxAttempts)
    (labels : List CompletionLabel) (state : CompletionState) (along : Along step
      (fun state label => state.UnderPolicy job maxAttempts label ∧ state.StoredAttempts job label)
      .initial labels)
    (reaches : run step .initial labels = some state)
    (fire : Uuid) (row : Execution) (found : state.store.getExecution fire = some row)
    (isJob : row.jobKey = job) (first : row.attempt = 1) :
    ∃ chain : List Uuid,
      chain.head? = some fire ∧ chain.IsChain state.Retried ∧
      (∀ id, ReflTransGen state.Retried fire id ↔ id ∈ chain) ∧
      chain.length ≤ maxAttempts ∧
      chain.map state.attemptOf = (range' 1 chain.length).map some := by
  have chained : state.Chained job maxAttempts :=
    invariant_of_along (fun _ _ _ chained meets steps => chained.step meets.1 meets.2 steps)
      (.initial job maxAttempts) along reaches
  have rank : (state.attemptOf fire).getD 0 = 1 := by simp [attemptOf,found,first]
  obtain ⟨later,chain⟩ := chained.ranked.exists_chain ⟨row,found,isJob⟩ (rank.trans_le positive)
  have fits := chain.fits
  refine ⟨fire :: later,rfl,chain.isChain,chain.reaches,?_,?_⟩
  · rw [length_cons]
    omega
  · have ranks := chain.ranks
    rw [rank] at ranks
    rw [length_cons,← ranks,List.map_map]
    apply map_congr_left
    intro id isId
    obtain ⟨idRow,foundId,_⟩ := chain.allInside id isId
    simp [attemptOf,foundId]

theorem retry_chain_bounded_firstFailure :
    ∃ state, run step .initial (firstFailureRun 3) = some state ∧
      state.Retried 7 8 ∧
      ∃ chain : List Uuid,
        chain.head? = some 7 ∧ chain.IsChain state.Retried ∧
        (∀ id, Relation.ReflTransGen state.Retried 7 id ↔ id ∈ chain) ∧
        chain.length ≤ 3 ∧ chain.map state.attemptOf = (range' 1 chain.length).map some := by
  refine ⟨_,rfl,⟨0,by decide⟩,retry_chain_bounded "billing:invoice" 3 (by decide)
    (firstFailureRun 3) _ ?_ rfl 7 _ rfl rfl rfl⟩
  refine .cons ⟨trivial,trivial⟩ rfl ?_
  refine .cons ⟨trivial,trivial⟩ rfl ?_
  refine .cons ⟨trivial,trivial⟩ rfl ?_
  refine .cons ⟨fun _ _ _ _ _ _ _ => rfl,?_⟩ rfl ?_
  · rintro _ _ _ ⟨⟩ ⟨⟩ ⟨⟩ _ _
    rfl
  refine .cons ⟨trivial,trivial⟩ rfl ?_
  refine .cons ⟨trivial,trivial⟩ rfl ?_
  trivial

/-- Two attempts are allowed, and every failure reports the default attempt: the retry is retried.
-/
theorem defaultAttempt_outlives_limit :
    ∃ state,
      run step .initial
        (firstFailureRun 2 ++ [.claim 8 "runner-1" 3,
          .deliver 1 (invoiceFailure 8 defaultAttempt),
          .read 1 4 (some (invoiceJob 2)) id none,.advance 1 9 none,
          .advance 1 9 none]) = some state ∧
      state.Retried 7 8 ∧ state.Retried 8 9 ∧
      [7,8,9].map state.attemptOf = [some 1,some 2,some 2] :=
  ⟨_,rfl,⟨0,by decide⟩,⟨1,by decide⟩,by decide⟩

end Croniq

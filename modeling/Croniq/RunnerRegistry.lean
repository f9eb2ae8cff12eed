import Croniq.ScheduleFires

/-!
# The registry of runners

Every poll registers its runner or refreshes the entry that is there.  A process
announces itself by an instance id.
-/

namespace Croniq

open Function List Option

structure Runner where
  runnerId : String
  capabilities : List String
  maxInflight : Nat
  lastPollAt : Int
  inflight : List String
  (instanceId deposedInstanceId : Option String)
  tags : List String
deriving DecidableEq

structure PollRequest where
  runnerId : String
  capabilities : List String
  maxInflight : Nat
  inflight : List String
  instanceId : Option String
  tags : List String
deriving DecidableEq

inductive RegisterOutcome where
  | new
  | updated
  | tookOver (previousInstanceId : String)
deriving DecidableEq

/-- The runners that have polled, with the recent takeovers of each id and when they were last
reported. -/
structure RunnerRegistry where
  runners : String → Option Runner
  takeoverHistory : String → List Int
  lastFlapSignal : String → Option Int

namespace RunnerRegistry

def empty : RunnerRegistry where
  runners _ := none
  takeoverHistory _ := []
  lastFlapSignal _ := none

section

variable (registry : RunnerRegistry)

def setRunner (runnerId : String) (runner : Option Runner) : RunnerRegistry :=
  { registry with runners := update registry.runners runnerId runner }

/-- The instance that holds the entry, if another polls. -/
def rival (request : PollRequest) : Option String :=
  match request.instanceId, (registry.runners request.runnerId).bind Runner.instanceId with
  | some polling, some current => if current = polling then none else some current
  | _, _ => none

/-- The polling instance was deposed by the latest takeover. -/
def fenced (request : PollRequest) : Bool :=
  match registry.runners request.runnerId with
  | some existing => existing.deposedInstanceId == request.instanceId
  | none => false

end

def freshRunner (request : PollRequest) (now : Int) : Runner where
  runnerId := request.runnerId
  capabilities := request.capabilities
  maxInflight := request.maxInflight
  lastPollAt := now
  inflight := request.inflight
  instanceId := request.instanceId
  deposedInstanceId := none
  tags := request.tags

/-- An entry with what a poll reports; without an instance id the old one stays. -/
def refreshRunner (runner : Runner) (request : PollRequest) (now : Int) : Runner :=
  { runner with
    capabilities := request.capabilities
    maxInflight := request.maxInflight
    lastPollAt := now
    inflight := request.inflight
    tags := request.tags
    instanceId := request.instanceId <|> runner.instanceId }

def registerOrUpdate (registry : RunnerRegistry) (request : PollRequest) (now : Int) :
    Except String (RegisterOutcome × RunnerRegistry) :=
  match registry.rival request with
  | some current =>
    if registry.fenced request then .error current
    else
      let runner := refreshRunner (freshRunner request now) request now
      .ok (.tookOver current, registry.setRunner request.runnerId
        (some { runner with deposedInstanceId := some current }))
  | none =>
    match registry.runners request.runnerId with
    | some existing =>
      .ok (.updated, registry.setRunner request.runnerId
        (some (refreshRunner existing request now)))
    | none =>
      .ok (.new, registry.setRunner request.runnerId
        (some (refreshRunner (freshRunner request now) request now)))

def flapWindowSecs : Int := 600

def flapThreshold : Nat := 3

/-- Whether takeovers have become frequent, reported once in a window. -/
def recordTakeover (registry : RunnerRegistry) (runnerId : String) (now : Int) :
    Bool × RunnerRegistry :=
  let windowStart := now - flapWindowSecs * oneSecond
  let history := (registry.takeoverHistory runnerId ++ [now]).dropWhile (· < windowStart)
  let recorded : RunnerRegistry :=
    { registry with
      takeoverHistory := update registry.takeoverHistory runnerId history }
  if history.length < flapThreshold then (false, recorded)
  else if (registry.lastFlapSignal runnerId).any (windowStart ≤ ·) then (false, recorded)
  else
    (true, { recorded with
      lastFlapSignal := update registry.lastFlapSignal runnerId (some now) })

/-- Polls, and what other requests and the watchdog do; deregistration and expiry remove an entry.
-/
inductive Step where
  | poll (request : PollRequest) (now : Int)
  | remove (runnerId : String)
  | claim (runnerId executionId : String)
  | release (runnerId executionId : String)
  | renew (runnerId : String) (now : Int)

section

variable (registry : RunnerRegistry)

def answer (request : PollRequest) (now : Int) : Except String RegisterOutcome :=
  (registry.registerOrUpdate request now).map Prod.fst

/-- A poll under the lock, with the record of a takeover. -/
def poll (request : PollRequest) (now : Int) : RunnerRegistry :=
  match registry.registerOrUpdate request now with
  | .error _ => registry
  | .ok (.tookOver _, registered) => (registered.recordTakeover request.runnerId now).2
  | .ok (_, registered) => registered

def modifyRunner (runnerId : String) (change : Runner → Runner) : RunnerRegistry :=
  registry.setRunner runnerId ((registry.runners runnerId).map change)

def apply : Step → RunnerRegistry
  | .poll request now => registry.poll request now
  | .remove runnerId => registry.setRunner runnerId none
  | .claim runnerId executionId =>
    registry.modifyRunner runnerId fun runner =>
      { runner with inflight := runner.inflight ++ [executionId] }
  | .release runnerId executionId =>
    registry.modifyRunner runnerId fun runner =>
      { runner with inflight := runner.inflight.filter (· ≠ executionId) }
  | .renew runnerId now =>
    registry.modifyRunner runnerId fun runner => { runner with lastPollAt := now }

end

/-- The polls of one runner: the instance, and its answer. -/
def pollsOf (runnerId : String) :
    RunnerRegistry → List Step → List (Option String × Except String RegisterOutcome)
  | _, [] => []
  | registry, .poll request now :: steps =>
    if request.runnerId = runnerId then
      (request.instanceId, registry.answer request now) ::
        pollsOf runnerId (registry.poll request now) steps
    else pollsOf runnerId (registry.poll request now) steps
  | registry, step :: steps => pollsOf runnerId (registry.apply step) steps

section

variable (registry : RunnerRegistry)

/-- The instance that holds the entry, and the one fenced. -/
def identityOf (runnerId : String) : Option (Option String × Option String) :=
  (registry.runners runnerId).map fun runner => (runner.instanceId, runner.deposedInstanceId)

@[simp]
theorem runners_setRunner (runnerId : String) (runner : Option Runner) :
    (registry.setRunner runnerId runner).runners = update registry.runners runnerId runner :=
  rfl

@[simp]
theorem runners_recordTakeover (runnerId : String) (now : Int) :
    (registry.recordTakeover runnerId now).2.runners = registry.runners := by
  simp only [recordTakeover]
  split_ifs <;> rfl

end

variable {registry : RunnerRegistry} {request : PollRequest} {deposed : Option String}
  {runnerId first second winner loser : String} {step : Step} (now : Int)

theorem poll_of_fenced {current : String}
    (isRival : registry.rival request = some current) (isFenced : registry.fenced request = true) :
    registry.answer request now = .error current ∧ registry.poll request now = registry := by
  simp [answer,poll,registerOrUpdate,isRival,isFenced,Except.map]

theorem poll_of_rival {current : String} (isRival : registry.rival request = some current)
    (notFenced : registry.fenced request = false) :
    registry.answer request now = .ok (.tookOver current) ∧
      (registry.poll request now).identityOf request.runnerId =
        some (request.instanceId, some current) := by
  simp [answer,poll,registerOrUpdate,isRival,notFenced,Except.map,refreshRunner,freshRunner,
    identityOf]

theorem poll_of_known {current : Option String} (noRival : registry.rival request = none)
    (known : registry.identityOf request.runnerId = some (current, deposed)) :
    registry.answer request now = .ok .updated ∧
      (registry.poll request now).identityOf request.runnerId =
        some (request.instanceId <|> current, deposed) := by
  obtain ⟨existing,found,same⟩ := map_eq_some_iff.mp known
  cases same
  simp [answer,poll,registerOrUpdate,noRival,found,Except.map,refreshRunner,identityOf]

theorem poll_of_unknown (unknown : registry.identityOf request.runnerId = none) :
    registry.answer request now = .ok .new ∧
      (registry.poll request now).identityOf request.runnerId =
        some (request.instanceId, none) := by
  have notFound : registry.runners request.runnerId = none := map_eq_none_iff.mp unknown
  have noRival : registry.rival request = none := by
    rw [rival,notFound]
    split
    next polling current _ held => cases held
    · rfl
  simp [answer,poll,registerOrUpdate,noRival,notFound,Except.map,refreshRunner,freshRunner,
    identityOf]

theorem identityOf_poll_of_ne (other : request.runnerId ≠ runnerId) :
    (registry.poll request now).identityOf runnerId = registry.identityOf runnerId := by
  unfold identityOf poll registerOrUpdate
  cases registry.rival request with
  | none => cases registry.runners request.runnerId <;> simp [Ne.symm other]
  | some => cases registry.fenced request <;> simp [Ne.symm other]

theorem identityOf_modifyRunner (registry : RunnerRegistry) (changed runnerId : String)
    {change : Runner → Runner} (keeps : ∀ runner, (change runner).instanceId = runner.instanceId ∧
      (change runner).deposedInstanceId = runner.deposedInstanceId) :
    (registry.modifyRunner changed change).identityOf runnerId = registry.identityOf runnerId := by
  unfold identityOf modifyRunner
  by_cases same : runnerId = changed
  · subst same
    simp [keeps,comp_def]
  · simp [same]

theorem rival_eq {holder polling : String}
    (known : registry.identityOf request.runnerId = some (some holder, deposed))
    (polls : request.instanceId = some polling) :
    registry.rival request = (if holder = polling then none else some holder) ∧
      registry.fenced request = (deposed == some polling) := by
  obtain ⟨existing,found,same⟩ := map_eq_some_iff.mp known
  simp only [Prod.mk.injEq] at same
  simp [rival,fenced,found,same,polls]

theorem rival_of_anonymous (registry : RunnerRegistry) (anonymous : request.instanceId = none) :
    registry.rival request = none := by
  simp [rival,anonymous]

theorem rival_of_unnamed (unnamed : registry.identityOf request.runnerId = some (none, deposed)) :
    registry.rival request = none := by
  obtain ⟨existing,found,same⟩ := map_eq_some_iff.mp unnamed
  simp only [Prod.mk.injEq] at same
  rw [rival,found,bind_some,same.1]
  split
  next held => cases held
  · rfl

/-- Only the two instances poll for the runner under an instance id, and its entry stays. -/
def Step.SharedBy (runnerId first second : String) : Step → Prop
  | .poll request _ =>
    request.runnerId = runnerId → request.instanceId ∈ [none,some first,some second]
  | .remove removed => removed ≠ runnerId
  | _ => True

def HeldBy (registry : RunnerRegistry) (runnerId first second : String) : Prop :=
  ∀ identity ∈ registry.identityOf runnerId, identity.1 ∈ [none,some first,some second]

/-- One instance holds the entry, the other is fenced. -/
def Settled (registry : RunnerRegistry) (runnerId winner loser : String) : Prop :=
  registry.identityOf runnerId = some (some winner, some loser)

theorem identityOf_apply (shared : step.SharedBy runnerId first second)
    (noPoll : ∀ request now, step = .poll request now → request.runnerId ≠ runnerId) :
    (registry.apply step).identityOf runnerId = registry.identityOf runnerId := by
  cases step with
  | poll request now => exact identityOf_poll_of_ne now (noPoll request now rfl)
  | remove removed => simp [apply,identityOf,Ne.symm (show removed ≠ runnerId from shared)]
  | claim changed executionId | release changed | renew changed =>
    exact identityOf_modifyRunner registry changed runnerId fun _ => ⟨rfl,rfl⟩

theorem pollsOf_cons_of_poll (registry : RunnerRegistry) (request : PollRequest) (now : Int)
    (steps : List Step) :
    pollsOf request.runnerId registry (.poll request now :: steps) =
      (request.instanceId, registry.answer request now) ::
        pollsOf request.runnerId (registry.apply (.poll request now)) steps := by
  rw [pollsOf,if_pos rfl]
  rfl

theorem pollsOf_cons_of_no_poll
    (noPoll : ∀ request now, step = .poll request now → request.runnerId ≠ runnerId)
    (steps : List Step) :
    pollsOf runnerId registry (step :: steps) = pollsOf runnerId (registry.apply step) steps := by
  cases step with
  | poll request now =>
    rw [pollsOf,if_neg (noPoll request now rfl)]
    rfl
  | remove _ | claim _ _ | release _ _ | renew _ _ => rfl

theorem Settled.poll (settled : registry.Settled request.runnerId winner loser)
    (differ : winner ≠ loser) (now : Int)
    (shared : request.instanceId ∈ [none,some winner,some loser]) :
    (registry.poll request now).Settled request.runnerId winner loser ∧
      registry.answer request now =
        if request.instanceId = some loser then .error winner else .ok .updated := by
  simp only [mem_cons,not_mem_nil,or_false] at shared
  rcases shared with anonymous | isWinner | isLoser
  · have noRival := registry.rival_of_anonymous anonymous
    obtain ⟨answered,after⟩ := poll_of_known now noRival settled
    simp [answered,Settled,after,anonymous]
  · have noRival : registry.rival request = none := by simp [(rival_eq settled isWinner).1]
    obtain ⟨answered,after⟩ := poll_of_known now noRival settled
    simp [answered,Settled,after,isWinner,differ]
  · obtain ⟨isRival,isFenced⟩ := rival_eq settled isLoser
    rw [if_neg differ] at isRival
    obtain ⟨answered,after⟩ := poll_of_fenced now isRival (by simp [isFenced])
    simp [answered,after,settled,isLoser]

theorem Settled.pollsOf (settled : registry.Settled runnerId winner loser)
    (differ : winner ≠ loser) {steps : List Step}
    (shared : ∀ step ∈ steps, step.SharedBy runnerId winner loser) :
    ∀ poll ∈ RunnerRegistry.pollsOf runnerId registry steps,
      poll.2 = if poll.1 = some loser then .error winner else .ok .updated := by
  induction steps generalizing registry with
  | nil => simp [RunnerRegistry.pollsOf]
  | cons step steps ih =>
    obtain ⟨sharedStep,sharedTail⟩ := forall_mem_cons.mp shared
    by_cases polled : ∃ request now, step = .poll request now ∧ request.runnerId = runnerId
    · obtain ⟨request,now,rfl,rfl⟩ := polled
      obtain ⟨stays,answered⟩ := settled.poll differ now (sharedStep rfl)
      rw [pollsOf_cons_of_poll]
      exact forall_mem_cons.mpr ⟨answered,ih stays sharedTail⟩
    · have noPoll : ∀ request now, step = .poll request now → request.runnerId ≠ runnerId :=
        fun request now same isPoll => polled ⟨request,now,same,isPoll⟩
      rw [pollsOf_cons_of_no_poll noPoll]
      exact ih ((identityOf_apply sharedStep noPoll).trans settled) sharedTail

/-- A poll of one of the two takes the entry over and fences the other, or takes nothing over. -/
theorem HeldBy.poll (held : registry.HeldBy request.runnerId first second) (now : Int)
    (shared : request.instanceId ∈ [none,some first,some second]) :
    (∃ winner loser, winner ≠ loser ∧ winner ∈ [first,second] ∧ loser ∈ [first,second] ∧
      request.instanceId = some winner ∧ registry.answer request now = .ok (.tookOver loser) ∧
      (registry.poll request now).Settled request.runnerId winner loser) ∨
    ((∀ loser, registry.answer request now ≠ .ok (.tookOver loser)) ∧
      (registry.poll request now).HeldBy request.runnerId first second) := by
  cases known : registry.identityOf request.runnerId with
  | none =>
    obtain ⟨answered,after⟩ := poll_of_unknown now known
    exact .inr ⟨by simp [answered],by simpa [HeldBy,after] using shared⟩
  | some identity =>
    obtain ⟨holder,deposed⟩ := identity
    have isHolder : holder ∈ [none,some first,some second] := held _ known
    have updates : registry.rival request = none →
        (∀ loser, registry.answer request now ≠ .ok (.tookOver loser)) ∧
          (registry.poll request now).HeldBy request.runnerId first second := by
      intro noRival
      obtain ⟨answered,after⟩ := poll_of_known now noRival known
      refine ⟨by simp [answered],?_⟩
      cases polls : request.instanceId with
      | none => simpa [HeldBy,after,polls] using isHolder
      | some => simpa [HeldBy,after,polls] using shared
    cases polls : request.instanceId with
    | none => exact .inr (updates (registry.rival_of_anonymous polls))
    | some polling =>
      cases holder with
      | none => exact .inr (updates (rival_of_unnamed known))
      | some holder =>
        obtain ⟨isRival,isFenced⟩ := rival_eq known polls
        by_cases same : holder = polling
        · rw [if_pos same] at isRival
          exact .inr (updates isRival)
        rw [if_neg same] at isRival
        cases fence : registry.fenced request with
        | true =>
          obtain ⟨answered,after⟩ := poll_of_fenced now isRival fence
          exact .inr ⟨by simp [answered],by rwa [after]⟩
        | false =>
          obtain ⟨answered,after⟩ := poll_of_rival now isRival fence
          rw [polls] at after shared
          refine .inl ⟨polling,holder,Ne.symm same,by simpa using shared,
            by simpa using isHolder,rfl,answered,after⟩

theorem Step.SharedBy.mono (shared : step.SharedBy runnerId first second)
    (differ : winner ≠ loser) (isWinner : winner ∈ [first,second])
    (isLoser : loser ∈ [first,second]) : step.SharedBy runnerId winner loser := by
  cases step with
  | poll request now =>
    intro polled
    have instances := shared polled
    grind
  | remove _ | claim _ _ | release _ _ | renew _ _ => exact shared

def isTakeover : Option String × Except String RegisterOutcome → Bool
  | (_, .ok (.tookOver _)) => true
  | _ => false

/-- At most one takeover, after which the deposed instance is refused while the other goes on. -/
structure Converges (history : List (Option String × Except String RegisterOutcome)) : Prop where
  once : history.countP isTakeover ≤ 1
  fences : ∀ before polling loser after,
    history = before ++ (polling, .ok (.tookOver loser)) :: after →
      ∃ winner, polling = some winner ∧ ∀ poll ∈ after,
        (poll.1 = some loser → poll.2 = .error winner) ∧
        (poll.1 = some winner → poll.2 = .ok .updated)

variable {poll : Option String × Except String RegisterOutcome}

theorem isTakeover_eq_false
    (noTakeover : ∀ loser, poll.2 ≠ .ok (.tookOver loser)) : isTakeover poll = false := by
  unfold isTakeover
  split
  next polling loser => exact absurd rfl (noTakeover loser)
  · rfl

theorem Converges.cons {history : List (Option String × Except String RegisterOutcome)}
    (converges : Converges history)
    (noTakeover : ∀ loser, poll.2 ≠ .ok (.tookOver loser)) : Converges (poll :: history) := by
  constructor
  · rw [countP_cons_of_neg (by simp [isTakeover_eq_false noTakeover])]
    exact converges.once
  · intro before polling loser after split
    cases before with
    | nil =>
      cases split
      exact absurd rfl (noTakeover loser)
    | cons head before =>
      obtain ⟨-,rest⟩ := List.cons.inj split
      exact converges.fences before polling loser after rest

theorem converges_takeover (differ : winner ≠ loser)
    {after : List (Option String × Except String RegisterOutcome)} (fenced : ∀ poll ∈ after,
      poll.2 = if poll.1 = some loser then .error winner else .ok .updated) :
    Converges ((some winner, .ok (.tookOver loser)) :: after) := by
  have noTakeover : ∀ poll ∈ after, ∀ other, poll.2 ≠ .ok (.tookOver other) := by
    intro poll member other
    rw [fenced poll member]
    split <;> simp
  constructor
  · have none : after.countP isTakeover = 0 := by
      rw [countP_eq_zero]
      intro poll member
      simp [isTakeover_eq_false (noTakeover poll member)]
    simp [countP_cons,none,isTakeover]
  · intro before polling other rest split
    cases before with
    | nil =>
      cases split
      refine ⟨winner,rfl,fun poll member => ⟨fun isLoser => ?_,fun isWinner => ?_⟩⟩
      · rw [fenced poll member,if_pos isLoser]
      · rw [fenced poll member,if_neg (by simpa [isWinner] using differ)]
    | cons =>
      obtain ⟨-,tail⟩ := List.cons.inj split
      have member : (polling, .ok (.tookOver other)) ∈ after := by simp [tail]
      exact absurd rfl (noTakeover _ member other)

/-- Two instances that share a runner id settle on one of them. -/
theorem two_instances_converge {registry : RunnerRegistry} {runnerId first second : String}
    (held : registry.HeldBy runnerId first second) {steps : List Step}
    (shared : ∀ step ∈ steps, step.SharedBy runnerId first second) :
    Converges (pollsOf runnerId registry steps) := by
  induction steps generalizing registry with
  | nil => exact ⟨Nat.zero_le _,by simp [pollsOf]⟩
  | cons step steps ih =>
    obtain ⟨sharedStep,sharedTail⟩ := forall_mem_cons.mp shared
    by_cases polled : ∃ request now, step = .poll request now ∧ request.runnerId = runnerId
    · obtain ⟨request,now,rfl,rfl⟩ := polled
      rw [pollsOf_cons_of_poll]
      rcases held.poll now (sharedStep rfl) with
        ⟨winner,loser,differ,isWinner,isLoser,polls,answered,settled⟩ | ⟨noTakeover,after⟩
      · rw [polls,answered]
        apply converges_takeover differ
        exact settled.pollsOf differ fun later member =>
          Step.SharedBy.mono (sharedTail later member) differ isWinner isLoser
      · exact (ih after sharedTail).cons noTakeover
    · have noPoll : ∀ request now, step = .poll request now → request.runnerId ≠ runnerId :=
        fun request now same isPoll => polled ⟨request,now,same,isPoll⟩
      rw [pollsOf_cons_of_no_poll noPoll]
      apply ih _ sharedTail
      rwa [HeldBy,identityOf_apply sharedStep noPoll]

def pollBy (instanceId : String) (now : Int) : Step :=
  .poll ⟨"worker-1",["billing"],3,[],some instanceId,[]⟩ now

def twoDeployments : List Step :=
  [pollBy "blue" 0,.claim "worker-1" "exec-7",pollBy "green" 10,pollBy "blue" 20,
    .release "worker-1" "exec-7",pollBy "green" 30]

theorem two_instances_converge_deployments :
    pollsOf "worker-1" empty twoDeployments =
        [(some "blue", .ok .new),(some "green", .ok (.tookOver "blue")),
          (some "blue", .error "green"),(some "green", .ok .updated)] ∧
      Converges (pollsOf "worker-1" empty twoDeployments) := by
  have shared : ∀ step ∈ twoDeployments, step.SharedBy "worker-1" "blue" "green" := by
    simp [twoDeployments,pollBy,Step.SharedBy]
  have unknown : empty.HeldBy "worker-1" "blue" "green" := by simp [HeldBy,identityOf,empty]
  exact ⟨rfl,two_instances_converge unknown shared⟩

end RunnerRegistry

end Croniq

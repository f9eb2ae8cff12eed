import Croniq.ExecutionLifecycle
import Croniq.LabelledRuns
import Mathlib.Data.List.Sort

/-!
# Returning lost claims to the queue

Three paths end a claim that nobody is going to complete.  The reaper looks at a
snapshot of old claims and of the leases.
-/

namespace Croniq

open KeyedTables LabelledRuns List Option

structure Lease where
  runnerId : String
  renewedAt : Int
deriving DecidableEq

structure ClaimRef where
  id : Uuid
  runnerId : Option String
  claimedAt : Option Int
deriving DecidableEq

def Execution.claimRef (row : Execution) : ClaimRef where
  id := row.id
  runnerId := row.runnerId
  claimedAt := row.claimedAt

/-- Oldest claims first, before them those without a time. -/
def claimedNoLater (first second : Execution) : Bool :=
  match first.claimedAt, second.claimedAt with
  | none, _ => true
  | some _, none => false
  | some firstAt, some secondAt => firstAt ≤ secondAt

def Store.listClaimedOlderThan (store : Store) (cutoff : Int) (limit : Nat) : List Execution :=
  ((store.executions.rows.filter fun row =>
    row.state = .claimed && row.claimedAt.all (· ≤ cutoff)).insertionSort
      fun first second => claimedNoLater first second = true).take limit

/-- The settings of the reaper; `timeoutSecs` is the timeout in force. -/
structure ReaperConfig where
  (leaseTtlSecs claimSweepLimit : Nat)
  timeoutSecs : Execution → Nat

namespace ReaperConfig

variable (config : ReaperConfig)

def graceSecs : Nat :=
  max (2 * config.leaseTtlSecs) 120

/-- The runner itself renewed the lease within the grace. -/
def leaseFresh (leases : List (Uuid × Lease)) (now : Int) (execution : Execution) : Bool :=
  execution.runnerId.any fun runnerId =>
    (leases.lookup execution.id).any fun lease =>
      lease.runnerId = runnerId && numSeconds (now - lease.renewedAt) < config.graceSecs

/-- A claim outlives its timeout and grace; a fresh lease doubles that. -/
def isReapable (leases : List (Uuid × Lease)) (now : Int) (execution : Execution) : Bool :=
  let ageBasis := (execution.claimedAt.or execution.startedAt).getD execution.createdAt
  let threshold := config.timeoutSecs execution + config.graceSecs
  let age := numSeconds (now - ageBasis)
  threshold < age &&
    !(config.leaseFresh leases now execution && age ≤ (2 * threshold : Nat))

end ReaperConfig

def unreportedClaimGraceSecs : Int := 60

def restartReconcileLimit : Nat := 10000

/-- A release under way. The claim of a candidate is on record here only: the code keeps the id and
reads the row again. -/
inductive Intent where
  | listed (now : Int) (row : Execution)
  | reap (now : Int) (leases : List (Uuid × Lease)) (row : Execution)
  | candidate (runnerId : String) (claim : ClaimRef) (beforeRestart : Bool)
  | unreported (runnerId : String) (claim : ClaimRef) (beforeRestart : Bool)
  | refused (claim : ClaimRef)
deriving DecidableEq

/-- The claim that a release was decided about. -/
def Intent.basis : Intent → ClaimRef
  | .listed _ row => row.claimRef
  | .reap _ _ row => row.claimRef
  | .candidate _ claim _ => claim
  | .unreported _ claim _ => claim
  | .refused claim => claim

/-- The claim of an execution; a lease may be all that is left of one. -/
def Store.claimOf (store : Store) (runnerId : String) (id : Uuid) : ClaimRef :=
  ((store.getExecution id).map Execution.claimRef).getD ⟨id,some runnerId,none⟩

/-- The store with a claim written; an error of the store comes before or after the write. -/
def Store.claimWritten (store : Store) (id : Uuid) (runnerId : String) (now : Int)
    (fault : Option Bool) : Option Store :=
  if fault = some false then none
  else (store.claimExecution id runnerId now).toOption.map Prod.snd

structure ReleaseState where
  store : Store
  leases : List (Uuid × Lease)
  restartReconciled : List String
  intents : List Intent
  flipped : List (ClaimRef × Execution)

open ReleaseState

inductive ReleaseLabel where
  | write (op : StoreOp)
  | claim (id : Uuid) (runnerId : String) (now : Int) (fault : Option Bool)
      (grouped refused : Bool)
  | touchLease (id : Uuid) (lease : Lease)
  | sweep (now : Int)
  | readLeases
  | select (runnerId : String) (reported : List Uuid) (now startedAt : Int) (fails : Bool)
  | inspect (intent : Intent) (fails : Bool)
  | requeue (intent : Intent) (fails : Bool)

namespace ReleaseState

def initial : ReleaseState where
  store := .empty
  leases := []
  restartReconciled := []
  intents := []
  flipped := []

variable (state : ReleaseState) (runnerId : String)

def clearLease (id : Uuid) : ReleaseState :=
  { state with
    leases := state.leases.filter fun (leased, lease) =>
      !(leased = id && lease.runnerId = runnerId) }

/-- The claims a poll considers lost: an old lease the runner does not report and, on the first
poll, those from before this process. -/
def select (reported : List Uuid) (now startedAt : Int) (fails : Bool) : ReleaseState :=
  let cutoff := now - unreportedClaimGraceSecs * 1000000000
  let unreported := (state.leases.filter fun (id, lease) =>
    lease.runnerId = runnerId && lease.renewedAt < cutoff && !reported.contains id).map Prod.fst
  let firstPoll := !state.restartReconciled.contains runnerId
  let beforeRestart :=
    if firstPoll && !fails then
      ((state.store.listClaimedOlderThan startedAt restartReconcileLimit).filter fun row =>
        row.runnerId = some runnerId && !reported.contains row.id &&
          !unreported.contains row.id).map Execution.claimRef
    else []
  { state with
    restartReconciled :=
      if firstPoll && !fails then runnerId :: state.restartReconciled
      else state.restartReconciled
    intents :=
      state.intents ++
        (unreported.map fun id => .candidate runnerId (state.store.claimOf runnerId id) false) ++
        beforeRestart.map (.candidate runnerId · true) }

/-- Read the row of a candidate, which goes on if the runner still holds it. -/
def inspect (claim : ClaimRef) (beforeRestart fails : Bool) : ReleaseState :=
  if fails then
    { state with
      restartReconciled :=
        if beforeRestart then state.restartReconciled.filter (· ≠ runnerId)
        else state.restartReconciled }
  else
    match state.store.getExecution claim.id with
    | none => state.clearLease runnerId claim.id
    | some row =>
      if row.state ≠ .claimed ∨ row.runnerId ≠ some runnerId then
        state.clearLease runnerId claim.id
      else { state with intents := .unreported runnerId claim beforeRestart :: state.intents }

/-- The write that returns a row to the queue, with the row it finds. -/
def flip (claim : ClaimRef) : ReleaseState :=
  let requeued := state.store.requeueIfClaimed claim.id
  { state with
    store := requeued.1
    flipped :=
      match requeued.2, state.store.getExecution claim.id with
      | true, some row => (claim, row) :: state.flipped
      | _, _ => state.flipped }

def requeue (config : ReaperConfig) (state : ReleaseState) : Intent → Bool → Option ReleaseState
  | .reap now leases row, fails =>
    some
      (if config.isReapable leases now row && !fails then state.flip row.claimRef else state)
  | .unreported runnerId claim beforeRestart, fails =>
    some
      (if fails then
        { state with
          restartReconciled :=
            if beforeRestart then state.restartReconciled.filter (· ≠ runnerId)
            else state.restartReconciled }
      else (state.flip claim).clearLease runnerId claim.id)
  | .refused claim, fails => some (if fails then state else state.flip claim)
  | .listed _ _, _ => none
  | .candidate _ _ _, _ => none

def step (config : ReaperConfig) (state : ReleaseState) : ReleaseLabel → Option ReleaseState
  | .write op => if op.isClaim then none else some { state with store := op.apply state.store }
  | .claim id runnerId now fault grouped refused =>
    let written := state.store.claimWritten id runnerId now fault
    -- An item without a group is handed out although the store failed.
    let kept := if fault.isSome then !grouped else written.isSome
    some
      { state with
        store := written.getD state.store
        intents :=
          if kept && refused then .refused ⟨id,some runnerId,some now⟩ :: state.intents
          else state.intents }
  | .touchLease id lease =>
    some { state with leases := (id, lease) :: state.leases.filter (·.1 ≠ id) }
  | .sweep now =>
    some
      { state with
        intents :=
          state.intents ++
            (state.store.listClaimedOlderThan (now - config.graceSecs * 1000000000)
              config.claimSweepLimit).map (.listed now) }
  | .readLeases =>
    some
      { state with
        intents := state.intents.map fun
          | .listed now row => .reap now state.leases row
          | intent => intent }
  | .select runnerId reported now startedAt fails =>
    some (state.select runnerId reported now startedAt fails)
  | .inspect intent fails =>
    match intent with
    | .candidate runnerId claim beforeRestart =>
      if intent ∈ state.intents then
        some
          ({ state with intents := state.intents.erase intent }.inspect runnerId claim
            beforeRestart fails)
      else none
    | _ => none
  | .requeue intent fails =>
    if intent ∈ state.intents then
      { state with intents := state.intents.erase intent }.requeue config intent fails
    else none

end ReleaseState

variable {store : Store} {row : Execution} {intent : Intent}

theorem Store.getExecution_of_mem_listClaimedOlderThan {cutoff : Int}
    {limit : Nat} (listed : row ∈ store.listClaimedOlderThan cutoff limit) :
    store.getExecution row.id = some row := by
  have isRow := mem_of_mem_filter ((mem_insertionSort _).mp (mem_of_mem_take listed))
  exact store.executions.find?_eq_some_iff.mpr ⟨isRow,rfl⟩

/-- If the execution is claimed, it is by the claim the release was decided about. -/
def ClaimRef.Current (store : Store) (claim : ClaimRef) : Prop :=
  ∀ row, store.getExecution claim.id = some row → row.state = .claimed → row.claimRef = claim

theorem Execution.current_claimRef (read : store.getExecution row.id = some row) :
    row.claimRef.Current store := by
  intro found isFound _
  cases read.symm.trans isFound
  rfl

theorem Store.current_claimOf (store : Store) (runnerId : String) (id : Uuid) :
    (store.claimOf runnerId id).Current store := by
  unfold claimOf
  cases found : store.getExecution id with
  | none =>
    intro row isRow
    cases found.symm.trans isRow
  | some row =>
    have sameId : row.id = id := store.executions.key_of_find? found
    exact row.current_claimRef (sameId ▸ found)

variable {claim : ClaimRef}

theorem ClaimRef.Current.apply (current : claim.Current store)
    (op : StoreOp) (notClaim : op.isClaim = false) : claim.Current (op.apply store) := by
  intro row found claimed
  exact current row ((op.apply_rowsStep store).find?_of_claimed notClaim found claimed) claimed

section

variable {written : Store} {id : Uuid} {runnerId : String} {now : Int} {fault : Option Bool}
  (claims : store.claimWritten id runnerId now fault = some written)
include claims

theorem Store.claimExecution_of_claimWritten :
    ∃ row, store.claimExecution id runnerId now = .ok (row, written) := by
  obtain ⟨-,claims⟩ := ite_none_left_eq_some.mp claims
  cases answer : store.claimExecution id runnerId now with
  | error => simp [answer,Except.toOption] at claims
  | ok claimed =>
    simp only [answer,Except.toOption,map_some,some.injEq] at claims
    exact ⟨claimed.1,by rw [← claims]⟩

theorem ClaimRef.Current.claimWritten (current : claim.Current store) (undecided : claim.id ≠ id) :
    claim.Current written := by
  obtain ⟨row,claims⟩ := Store.claimExecution_of_claimWritten claims
  intro other found
  rw [Store.getExecution_claimExecution_of_ne claims undecided] at found
  exact current other found

theorem ClaimRef.current_of_claimWritten :
    (ClaimRef.mk id (some runnerId) (some now)).Current written := by
  obtain ⟨row,claims⟩ := Store.claimExecution_of_claimWritten claims
  obtain ⟨before,-,-,rfl,read⟩ := Store.claimExecution_row claims
  intro found isFound _
  cases read.symm.trans isFound
  have sameId : (Store.claimRow runnerId now before).id = id := written.executions.key_of_find? read
  rw [← sameId]
  rfl

end

namespace ReleaseState

/-- Every release under way is current, and every row returned was held by the claim it was returned
for. -/
structure Fenced (state : ReleaseState) : Prop where
  pending : ∀ intent ∈ state.intents, intent.basis.Current state.store
  flipped : ∀ entry ∈ state.flipped, entry.2.claimRef = entry.1

/-- No execution is claimed while a release of it is decided and not written; one that the store
failed to claim, before the registry refused it, is under no claim. -/
def UndecidedClaims (state : ReleaseState) : ReleaseLabel → Prop
  | .claim id runnerId now fault grouped refused =>
    if (state.store.claimWritten id runnerId now fault).isSome then
      ∀ intent ∈ state.intents, intent.basis.id ≠ id
    else
      fault.isSome ∧ grouped = false ∧ refused = true →
        ∀ row ∈ state.store.getExecution id, row.state ≠ .claimed
  | _ => True

instance (state : ReleaseState) (label : ReleaseLabel) :
    Decidable (state.UndecidedClaims label) := by
  cases label <;> unfold UndecidedClaims <;> infer_instance

variable {state : ReleaseState}

theorem Fenced.clearLease (fenced : state.Fenced) (runnerId : String) (id : Uuid) :
    (state.clearLease runnerId id).Fenced :=
  ⟨fenced.pending,fenced.flipped⟩

variable {intent : Intent} {config : ReaperConfig} {next : ReleaseState} {claim : ClaimRef}

theorem Fenced.flip (fenced : state.Fenced) (current : claim.Current state.store) :
    (state.flip claim).Fenced := by
  constructor
  · intro other isIntent
    exact (fenced.pending other isIntent).apply (.requeueIfClaimed claim.id) rfl
  · intro entry isEntry
    simp only [ReleaseState.flip] at isEntry
    split at isEntry
    · rename_i row returned found
      rcases mem_cons.mp isEntry with rfl | old
      · obtain ⟨held,isHeld,claimed⟩ :=
          (state.store.requeueIfClaimed_eq_true_iff claim.id).mp returned
        rw [found] at isHeld
        cases isHeld
        exact current row found claimed
      · exact fenced.flipped entry old
    · exact fenced.flipped entry isEntry

theorem Fenced.erase (fenced : state.Fenced) (intent : Intent) :
    { state with intents := state.intents.erase intent }.Fenced :=
  ⟨fun other isOther => fenced.pending other (mem_of_mem_erase isOther),fenced.flipped⟩

theorem Fenced.addIntents (fenced : state.Fenced) {added : List Intent}
    (current : ∀ intent ∈ added, intent.basis.Current state.store) :
    ∀ intent ∈ state.intents ++ added, intent.basis.Current state.store := by
  exact forall_mem_append.mpr ⟨fenced.pending,current⟩

section

variable (fenced : state.Fenced)
include fenced

theorem Fenced.select (runnerId : String) (reported : List Uuid)
    (now startedAt : Int) (fails : Bool) :
    (state.select runnerId reported now startedAt fails).Fenced := by
  refine ⟨?_,fenced.flipped⟩
  simp only [ReleaseState.select,append_assoc]
  apply fenced.addIntents
  intro intent isCandidate
  rcases mem_append.mp isCandidate with unreported | beforeRestart
  · obtain ⟨id,-,rfl⟩ := mem_map.mp unreported
    exact state.store.current_claimOf runnerId id
  · obtain ⟨claim,isListed,rfl⟩ := mem_map.mp beforeRestart
    split at isListed
    · obtain ⟨row,listed,rfl⟩ := mem_map.mp isListed
      exact row.current_claimRef
        (Store.getExecution_of_mem_listClaimedOlderThan (mem_of_mem_filter listed))
    · cases isListed

theorem Fenced.inspect (current : claim.Current state.store) (runnerId : String)
    (beforeRestart fails : Bool) : (state.inspect runnerId claim beforeRestart fails).Fenced := by
  unfold ReleaseState.inspect
  split
  · exact ⟨fenced.pending,fenced.flipped⟩
  split
  · exact fenced.clearLease runnerId claim.id
  split
  · exact fenced.clearLease runnerId claim.id
  · exact ⟨forall_mem_cons.mpr ⟨current,fenced.pending⟩,fenced.flipped⟩

theorem Fenced.requeue (current : intent.basis.Current state.store) {fails : Bool}
    (requeues : state.requeue config intent fails = some next) : next.Fenced := by
  cases intent with
  | listed now row | candidate => cases requeues
  | reap =>
    cases requeues
    split
    · exact fenced.flip current
    · exact fenced
  | unreported runnerId claim =>
    cases requeues
    split
    · exact ⟨fenced.pending,fenced.flipped⟩
    · exact (fenced.flip current).clearLease runnerId claim.id
  | refused =>
    cases requeues
    split
    · exact fenced
    · exact fenced.flip current

theorem Fenced.claimed {id : Uuid} {runnerId : String} {now : Int} {fault : Option Bool}
    {grouped refused : Bool}
    (undecided : state.UndecidedClaims (.claim id runnerId now fault grouped refused))
    (steps : state.step config (.claim id runnerId now fault grouped refused) = some next) :
    next.Fenced := by
  cases steps
  simp only [UndecidedClaims] at undecided
  cases claims : state.store.claimWritten id runnerId now fault with
  | some written =>
    simp only [claims,isSome_some,if_true] at undecided
    have pending : ∀ intent ∈ state.intents, intent.basis.Current written := fun intent isIntent =>
      (fenced.pending intent isIntent).claimWritten claims (undecided intent isIntent)
    have ofClaim : (Intent.refused ⟨id,some runnerId,some now⟩).basis.Current written :=
      ClaimRef.current_of_claimWritten claims
    refine ⟨?_,fenced.flipped⟩
    simp only [isSome_some,getD_some]
    generalize ((if fault.isSome then !grouped else true) && refused) = handedBack
    cases handedBack
    · exact pending
    · exact forall_mem_cons.mpr ⟨ofClaim,pending⟩
  | none =>
    simp only [claims,isSome_none,Bool.false_eq_true,if_false] at undecided
    refine ⟨?_,fenced.flipped⟩
    simp only [isSome_none,getD_none]
    by_cases handedBack : fault.isSome ∧ grouped = false ∧ refused = true
    · have unclaimed := undecided handedBack
      simp only [handedBack,if_true,Bool.not_false,Bool.and_self]
      exact forall_mem_cons.mpr ⟨fun row found isClaimed =>
        absurd isClaimed (unclaimed row found),fenced.pending⟩
    · rw [if_neg (by cases fault <;> simp_all)]
      exact fenced.pending

theorem Fenced.step {label : ReleaseLabel} (undecided : state.UndecidedClaims label)
    (steps : state.step config label = some next) : next.Fenced := by
  cases label with
  | write op =>
    obtain ⟨notClaim,rfl⟩ := of_unless steps
    exact ⟨fun intent isIntent =>
      (fenced.pending intent isIntent).apply op (by simpa using notClaim),fenced.flipped⟩
  | claim => exact fenced.claimed undecided steps
  | touchLease =>
    cases steps
    exact ⟨fenced.pending,fenced.flipped⟩
  | sweep =>
    cases steps
    refine ⟨fenced.addIntents ?_,fenced.flipped⟩
    intro intent isListed
    obtain ⟨row,listed,rfl⟩ := mem_map.mp isListed
    exact row.current_claimRef (Store.getExecution_of_mem_listClaimedOlderThan listed)
  | readLeases =>
    cases steps
    refine ⟨?_,fenced.flipped⟩
    intro intent isIntent
    obtain ⟨old,isOld,rfl⟩ := mem_map.mp isIntent
    have current := fenced.pending old isOld
    cases old <;> exact current
  | select runnerId reported now startedAt fails =>
    cases steps
    exact fenced.select runnerId reported now startedAt fails
  | inspect intent fails =>
    simp only [ReleaseState.step] at steps
    split at steps
    · split at steps
      · rename_i isIntent
        cases steps
        exact (fenced.erase _).inspect (fenced.pending _ isIntent) _ _ fails
      · cases steps
    · cases steps
  | requeue intent fails =>
    simp only [ReleaseState.step] at steps
    split at steps
    · rename_i isIntent
      exact (fenced.erase intent).requeue (fenced.pending intent isIntent) steps
    · cases steps

end

end ReleaseState

def fiveMinuteReaper : ReaperConfig where
  leaseTtlSecs := 30
  claimSweepLimit := 500
  timeoutSecs := fun _ => 300

def nightlyExecution (id : Uuid) : FreshExecution :=
  newExecution id "etl:nightly" 0 0 none []

/-- The reaper's decision about the first claim of the execution. -/
def nightlyReap : Intent :=
  .reap 1000000000000 [] (Store.claimRow "runner-1" 0 (nightlyExecution 7).execution)

/-- A claim goes stale, and the reaper looks at it. -/
def staleClaimRun : List ReleaseLabel :=
  [.write (.create (nightlyExecution 7)),.write (.create (nightlyExecution 8)),
    .claim 7 "runner-1" 0 none false false,.sweep 1000000000000,.readLeases]

end Croniq

import Croniq.LabelledRuns
import Croniq.WorkDispatch

/-!
# The budget of a concurrency group

A shared group bounds how many of its executions are claimed at a time.
-/

namespace Croniq

open Dispatch DispatchState Function KeyedTables LabelledRuns List Option Store

/-- The item takes a unit of the group's budget when its row is claimed. -/
def WorkItem.drawsOn (group : String) (item : WorkItem) : Bool :=
  !item.isEphemeral && item.concurrencyGroup.any (·.1 = group)

def Store.claimedIn (store : Store) (group : String) : Nat :=
  store.countExecutionsInGroupInStates group [.claimed]

/-- The units a poll means to take and has not claimed yet. -/
def Poll.pending (group : String) : Poll → Nat
  | .idle => 0
  | .picking batch => batch.items.countP (·.drawsOn group)
  | .claiming _ _ remaining _ => remaining.countP (·.drawsOn group)

variable {op : StoreOp}

theorem Store.count_claimed_le_of_rowsStep {before after : Table Execution.key}
    (step : RowsStep op before after) (notClaim : op.isClaim = false) (group : String) :
    after.count (fun row => concurrencyGroupOf row.toExecutionRequest = some group &&
        [ExecutionState.claimed].contains row.state) ≤
      before.count (fun row => concurrencyGroupOf row.toExecutionRequest = some group &&
        [ExecutionState.claimed].contains row.state) := by
  cases step with
  | unchanged same =>
    subst same
    exact Nat.le_refl _
  | inserted fresh created inserts =>
    rw [Table.count,before.rows_insert inserts,countP_append,Table.count]
    simp [fresh.queued]
  | updated condition change keepsRequest keepsKey updates moves fields byClaim =>
    subst updates
    apply before.count_updateWhere_le
    intro row _ changed counted
    simp only [Bool.and_eq_true,decide_eq_true_eq,contains_cons,contains_nil,
      Bool.or_false,beq_iff_eq] at counted
    have claims := byClaim row changed counted.2
    rw [notClaim] at claims
    cases claims

theorem StoreOp.claimedIn_apply_le (notClaim : op.isClaim = false) (store : Store)
    (group : String) : (op.apply store).claimedIn group ≤ store.claimedIn group :=
  count_claimed_le_of_rowsStep (op.apply_rowsStep store) notClaim group

section

variable {onError : Bool} {budget : Option (String × Nat)} {storeCount : String → Option Nat}
  {batch : String → Nat} {cache : String → Option Nat} {name : String} {inflight : Nat}

theorem hasFreeSlot_remembers (remembered : cache name = some inflight) :
    (hasFreeSlot onError budget storeCount batch cache).2 name = some inflight := by
  unfold hasFreeSlot
  split
  · exact remembered
  rename_i asked bound
  split
  · exact remembered
  split
  · exact remembered
  rename_i notRemembered
  split
  · exact remembered
  have otherName : name ≠ asked := by
    rintro rfl
    rw [remembered] at notRemembered
    cases notRemembered
  exact (update_of_ne otherName _ _).trans remembered

theorem hasFreeSlot_told
    (remembered : (hasFreeSlot onError budget storeCount batch cache).2 name = some inflight) :
    cache name = some inflight ∨ storeCount name = some inflight := by
  unfold hasFreeSlot at remembered
  split at remembered
  · exact .inl remembered
  rename_i asked bound
  split at remembered
  · exact .inl remembered
  split at remembered
  · exact .inl remembered
  split at remembered
  · exact .inl remembered
  rename_i told answered
  by_cases sameName : name = asked
  · subst sameName
    have sameCount : some told = some inflight := by simpa using remembered
    exact .inr (answered.trans sameCount)
  · exact .inl ((update_of_ne sameName _ _).symm.trans remembered)

/-- A guard that blocks on errors lets an item through only on a count it remembers. -/
theorem lt_of_hasFreeSlot {bound : Nat} (isBudget : budget = some (name, bound))
    (free : (hasFreeSlot false budget storeCount batch cache).1 = true) :
    ∃ inflight, (hasFreeSlot false budget storeCount batch cache).2 name = some inflight ∧
      inflight + batch name < bound := by
  subst isBudget
  unfold hasFreeSlot at free ⊢
  dsimp only at free ⊢
  split at free
  · cases free
  rename_i notFull
  rw [if_neg notFull]
  cases remembered : cache name with
  | some inflight =>
    rw [remembered] at free
    exact ⟨inflight,remembered,by simpa using free⟩
  | none =>
    rw [remembered] at free
    cases answered : storeCount name with
    | none =>
      rw [answered] at free
      cases free
    | some inflight =>
      rw [answered] at free
      exact ⟨inflight,update_self ..,by simpa using free⟩

end

section Stamps

variable (groupOf : Uuid → Option String) (limit : String → Nat)

/-- A persisted item names its execution and carries the stamps of its group. -/
def WorkItem.Stamped (item : WorkItem) : Prop :=
  item.isEphemeral = false → ∃ id, item.executionId = .uuid id ∧
    item.concurrencyGroup = (groupOf id).map fun group => (group, limit group)

def Store.Stamped (store : Store) : Prop :=
  ∀ row ∈ store.executions.rows, concurrencyGroupOf row.toExecutionRequest = groupOf row.id

/-- The rows a write creates carry the stamps of their execution. -/
def StoreOp.Stamped (op : StoreOp) : Prop :=
  ∀ fresh, op.Creates fresh →
    concurrencyGroupOf fresh.execution.toExecutionRequest = groupOf fresh.execution.id

/-- What the producers of rows and items see to. -/
def DispatchLabel.Stamped : DispatchLabel → Prop
  | .write op => op.Stamped groupOf
  | .enqueue item => item.Stamped groupOf limit
  | _ => True

variable {groupOf limit}

theorem RowsStep.stamped {before after : Table Execution.key}
    (step : RowsStep op before after) (created : op.Stamped groupOf)
    (stamped : ∀ row ∈ before.rows, concurrencyGroupOf row.toExecutionRequest = groupOf row.id) :
    ∀ row ∈ after.rows, concurrencyGroupOf row.toExecutionRequest = groupOf row.id := by
  intro row isRow
  cases step with
  | unchanged same =>
    subst same
    exact stamped row isRow
  | inserted fresh isCreated inserts =>
    rw [before.rows_insert inserts,mem_append,mem_singleton] at isRow
    rcases isRow with old | rfl
    · exact stamped row old
    · exact created fresh isCreated
  | updated condition change keepsRequest keepsKey updates =>
    subst updates
    obtain ⟨old,isOld,rfl⟩ := Table.mem_updateWhere.mp isRow
    have sameRequest : (changeWhere condition change old).toExecutionRequest =
        old.toExecutionRequest := by
      unfold changeWhere
      split
      · exact keepsRequest old
      · rfl
    rw [sameRequest]
    exact stamped old isOld

variable {item : WorkItem} {state : DispatchState} {store : Store} {batch : Picking}
  {runnerId : String} {now : Int}

theorem WorkItem.Stamped.limit_of_drawsOn (stamped : item.Stamped groupOf limit) {group : String}
    (draws : item.drawsOn group = true) :
    ∃ id, item.executionId = .uuid id ∧ groupOf id = some group ∧
      item.concurrencyGroup = some (group, limit group) := by
  simp only [drawsOn,Bool.and_eq_true,Bool.not_eq_true'] at draws
  obtain ⟨persisted,inGroup⟩ := draws
  obtain ⟨id,isId,stamps⟩ := stamped persisted
  rw [stamps] at inGroup
  cases isGroup : groupOf id with
  | none => simp [isGroup] at inGroup
  | some name =>
    have sameName : name = group := by simpa [isGroup] using inGroup
    subst sameName
    exact ⟨id,isId,isGroup,by rw [stamps,isGroup]; rfl⟩

/-- What a poll remembers of a group is no less than its claims, and the best item still fits. -/
structure Picking.Sound (groupOf : Uuid → Option String) (limit : String → Nat) (store : Store)
    (picking : Picking) : Prop where
  items : ∀ item ∈ picking.items, item.Stamped groupOf limit
  rest : ∀ item ∈ picking.rest, item.Stamped groupOf limit
  candidate : ∀ found ∈ picking.candidate, found.2.Stamped groupOf limit
  best : ∀ found ∈ picking.best, found.2.Stamped groupOf limit
  remembered : ∀ group inflight, picking.groupInflightCache group = some inflight →
    store.claimedIn group ≤ inflight
  batched : ∀ group, picking.items.countP (·.drawsOn group) ≤ picking.groupBatchClaims group
  fits : ∀ found ∈ picking.best, ∀ group bound, found.2.concurrencyGroup = some (group, bound) →
    ∃ inflight, picking.groupInflightCache group = some inflight ∧
      inflight + picking.groupBatchClaims group < bound

/-- A grouped item on its way out was claimed by its poll, and its row is still claimed for its
runner unless another write changed it meanwhile. -/
structure Dispatch.Held (groupOf : Uuid → Option String) (limit : String → Nat) (store : Store)
    (dispatch : Dispatch) : Prop where
  stamped : dispatch.item.Stamped groupOf limit
  claimed : dispatch.item.isEphemeral = false → dispatch.item.concurrencyGroup.isSome = true →
    dispatch.claimed = true ∧ (dispatch.touched = false →
      ∃ row, dispatch.row store = some row ∧ row.state = .claimed ∧
        row.runnerId = some dispatch.runnerId)

def Poll.Sound (groupOf : Uuid → Option String) (limit : String → Nat) (store : Store) : Poll → Prop
  | .idle => True
  | .picking batch => batch.Sound groupOf limit store
  | .claiming _ _ remaining kept =>
    (∀ item ∈ remaining, item.Stamped groupOf limit) ∧
      ∀ dispatch ∈ kept, dispatch.Held groupOf limit store

/-- The claimed rows and the picks of a running poll stay within the limit of each group. -/
structure DispatchState.Budgeted (groupOf : Uuid → Option String) (limit : String → Nat)
    (state : DispatchState) : Prop where
  rows : state.store.Stamped groupOf
  queue : ∀ item ∈ state.queue, item.Stamped groupOf limit
  refused : ∀ item ∈ state.refused, item.Stamped groupOf limit
  dispatching : ∀ dispatch ∈ state.dispatching, dispatch.Held groupOf limit state.store
  poll : state.poll.Sound groupOf limit state.store
  within : ∀ group, state.store.claimedIn group + state.poll.pending group ≤ limit group
  last : ∀ group, 0 < state.store.claimedIn group → state.lastLimit group = some (limit group)

theorem DispatchState.initial_budgeted : initial.Budgeted groupOf limit where
  rows := by simp [Store.Stamped,initial,empty,Table.empty]
  queue := by simp [initial]
  refused := by simp [initial]
  dispatching := by simp [initial]
  poll := trivial
  within := by
    intro group
    exact Nat.zero_le _
  last := by
    intro group claimed
    cases claimed

variable {before claimed : Store} {next : Picking} {queue remaining : List WorkItem} {id : Uuid}
  {row : Execution} {kept : List Dispatch}

theorem Dispatch.Held.touch {dispatch : Dispatch}
    (held : dispatch.Held groupOf limit before) (after : Store) :
    (dispatch.touch before after).Held groupOf limit after where
  stamped := held.stamped
  claimed := by
    intro persisted grouped
    obtain ⟨claimed,current⟩ := held.claimed persisted grouped
    refine ⟨claimed,?_⟩
    intro untouched
    simp only [Dispatch.touch,Bool.or_eq_false_iff,bne_eq_false_iff_eq] at untouched
    obtain ⟨row,isRow,isClaimed,holder⟩ := current untouched.1
    exact ⟨row,untouched.2 ▸ isRow,isClaimed,holder⟩

theorem Dispatch.held_map_touch {dispatches : List Dispatch}
    (held : ∀ dispatch ∈ dispatches, dispatch.Held groupOf limit before) (after : Store) :
    ∀ dispatch ∈ dispatches.map (touch before after), dispatch.Held groupOf limit after := by
  intro dispatch isDispatch
  obtain ⟨old,isOld,rfl⟩ := mem_map.mp isDispatch
  exact (held old isOld).touch after

theorem DispatchState.Budgeted.setStore (budgeted : state.Budgeted groupOf limit) (store : Store)
    (stamped : store.Stamped groupOf)
    (fewer : ∀ group, store.claimedIn group ≤ state.store.claimedIn group) :
    (state.setStore store).Budgeted groupOf limit := by
  obtain ⟨rows,queue,refused,dispatching,poll,within,last⟩ := budgeted
  have sameLast : ∀ group, 0 < store.claimedIn group → state.lastLimit group = some (limit group) :=
    fun group claimed => last group (Nat.lt_of_lt_of_le claimed (fewer group))
  have lower : ∀ group count, state.store.claimedIn group + count ≤ limit group →
      store.claimedIn group + count ≤ limit group :=
    fun group count bound => Nat.le_trans (Nat.add_le_add_right (fewer group) count) bound
  unfold DispatchState.setStore
  cases holder : state.poll with
  | idle =>
    rw [holder] at within
    exact ⟨stamped,queue,refused,held_map_touch dispatching store,trivial,
      fun group => lower group _ (within group),sameLast⟩
  | picking =>
    rw [holder] at poll within
    refine ⟨stamped,queue,refused,held_map_touch dispatching store,?_,
      fun group => lower group _ (within group),sameLast⟩
    exact { poll with
      remembered := fun group inflight remembered =>
        Nat.le_trans (fewer group) (poll.remembered group inflight remembered) }
  | claiming =>
    rw [holder] at poll within
    exact ⟨stamped,queue,refused,held_map_touch dispatching store,
      ⟨poll.1,held_map_touch poll.2 store⟩,
      fun group => lower group _ (within group),sameLast⟩

section

variable (sound : batch.Sound groupOf limit store)
include sound

variable {storeCount : String → Option Nat}

theorem Picking.Sound.examineJob (examines : batch.examineJob storeCount = some next) :
    next.Sound groupOf limit store ∧ next.items = batch.items := by
  unfold Picking.examineJob at examines
  split at examines
  · rename_i item rest noCandidate isRest
    have restStamped : ∀ other ∈ rest, other.Stamped groupOf limit := by
      intro other member
      exact sound.rest other (isRest ▸ mem_cons_of_mem _ member)
    have itemStamped := sound.rest item (isRest ▸ mem_cons_self)
    dsimp only at examines
    split at examines
    · cases examines
      exact ⟨{ sound with rest := restStamped },rfl⟩
    cases examines
    refine ⟨{ sound with rest := restStamped, candidate := ?_ },rfl⟩
    intro found isFound
    split at isFound
    · cases isFound
      exact itemStamped
    · cases isFound
  · cases examines

theorem Picking.Sound.examineGroup (counts : ∀ group inflight, storeCount group = some inflight →
      store.claimedIn group ≤ inflight) (examines : batch.examineGroup storeCount = some next) :
    next.Sound groupOf limit store ∧ next.items = batch.items := by
  obtain ⟨⟨rank,item⟩,isCandidate,rfl⟩ := map_eq_some_iff.mp examines
  refine ⟨⟨sound.items,?_,by simp,?_,?_,sound.batched,?_⟩,rfl⟩
  · intro other member
    dsimp only at member
    split at member
    · cases member
    · exact sound.rest other member
  · intro found isFound
    dsimp only at isFound
    split at isFound
    · cases isFound
      exact sound.candidate _ isCandidate
    · exact sound.best found isFound
  · intro group inflight remembered
    rcases hasFreeSlot_told remembered with before | told
    · exact sound.remembered group inflight before
    · exact counts group inflight told
  · intro found isFound group bound inGroup
    dsimp only at isFound
    split at isFound
    · rename_i free
      cases isFound
      exact lt_of_hasFreeSlot inGroup free
    · obtain ⟨inflight,remembered,fits⟩ := sound.fits found isFound group bound inGroup
      exact ⟨inflight,hasFreeSlot_remembers remembered,fits⟩

theorem Picking.Sound.take {rank : Nat} (isBest : batch.best = some (rank, item))
    (queueStamped : ∀ other ∈ queue, other.Stamped groupOf limit)
    (within : ∀ group, store.claimedIn group + batch.items.countP (·.drawsOn group) ≤ limit group) :
    (batch.take item queue).Sound groupOf limit store ∧
      ∀ group, store.claimedIn group + (batch.take item queue).items.countP (·.drawsOn group) ≤
        limit group := by
  have itemStamped := sound.best _ isBest
  constructor
  · refine ⟨?_,queueStamped,sound.candidate,by simp [Picking.take],sound.remembered,?_,
      by simp [Picking.take]⟩
    · exact forall_mem_append.mpr ⟨sound.items,forall_mem_singleton.mpr itemStamped⟩
    · intro group
      have before := sound.batched group
      simp only [Picking.take,countP_append,countP_singleton]
      cases inGroup : item.concurrencyGroup with
      | none =>
        have drawsNothing : item.drawsOn group = false := by simp [WorkItem.drawsOn,inGroup]
        simpa [drawsNothing] using before
      | some stamp =>
        by_cases sameGroup : stamp.1 = group
        · subst sameGroup
          simp only [Picking.addClaim,update_self]
          split <;> omega
        have drawsNothing : item.drawsOn group = false := by
          simp [WorkItem.drawsOn,inGroup,sameGroup]
        have otherGroup : group ≠ stamp.1 := fun same => sameGroup same.symm
        simpa [drawsNothing,Picking.addClaim,update_of_ne otherGroup] using before
  · intro group
    have before := within group
    simp only [Picking.take,countP_append,countP_singleton]
    split
    · rename_i draws
      obtain ⟨-,-,-,inGroup⟩ := itemStamped.limit_of_drawsOn draws
      obtain ⟨inflight,remembered,fits⟩ := sound.fits _ isBest group _ inGroup
      have counted := sound.remembered group inflight remembered
      have batched := sound.batched group
      omega
    · simpa using before

end

theorem Store.claimedIn_claimExecution_le (stamped : store.Stamped groupOf)
    (claims : store.claimExecution id runnerId now = .ok (row, claimed)) (group : String) :
    claimed.claimedIn group ≤ store.claimedIn group + if groupOf id = some group then 1 else 0 := by
  rw [claimExecution_eq_ok claims]
  split
  · exact store.executions.count_updateWhere_le_succ (claimRow_key runnerId now)
      fun _ claimable => (id_of_isClaimable claimable).1
  rename_i otherGroup
  refine store.executions.count_updateWhere_le (claimRow_key runnerId now) ?_
  intro other isRow claimable counted
  rw [Bool.and_eq_true] at counted
  have isGroup : concurrencyGroupOf other.toExecutionRequest = some group :=
    of_decide_eq_true counted.1
  have inGroup := stamped other isRow
  rw [isGroup,(id_of_isClaimable claimable).1] at inGroup
  exact absurd inGroup.symm otherGroup

theorem Store.Stamped.claimExecution (stamped : store.Stamped groupOf)
    (claims : store.claimExecution id runnerId now = .ok (row, claimed)) :
    claimed.Stamped groupOf := by
  refine (claimExecution_rowsStep claims).stamped ?_ stamped
  intro fresh creates
  cases creates

omit groupOf limit in
theorem claimItem_cases (store : Store) (runnerId : String) (now : Int) (item : WorkItem)
    (fault : ClaimFault) : ((claimItem store runnerId now item fault).store = store ∧
      (claimItem store runnerId now item fault).claimed = false ∧
      ((claimItem store runnerId now item fault).kept = true → item.isEphemeral = false →
        ∀ id, item.executionId = .uuid id → item.concurrencyGroup = none)) ∨
    ((claimItem store runnerId now item fault).claimed = true ∧ item.isEphemeral = false ∧
      ∃ id row, item.executionId = .uuid id ∧
        store.claimExecution id runnerId now =
          .ok (row, (claimItem store runnerId now item fault).store)) := by
  unfold claimItem
  split
  · rename_i ephemeral
    left
    refine ⟨rfl,rfl,?_⟩
    intro _ persisted
    rw [ephemeral] at persisted
    cases persisted
  · rename_i persisted
    split
    · rename_i isText
      left
      refine ⟨rfl,rfl,?_⟩
      intro _ _ id isId
      rw [isText] at isId
      cases isId
    · rename_i id isId
      split
      · exact .inl ⟨rfl,rfl,fun kept _ _ _ => by simpa using kept⟩
      split
      · rename_i claimed claims
        exact .inr ⟨rfl,by simpa using persisted,id,claimed.1,isId,claims⟩
      · exact .inl ⟨rfl,rfl,nofun⟩
      · exact .inl ⟨rfl,rfl,nofun⟩
      · exact .inl ⟨rfl,rfl,fun kept _ _ _ => by simpa using kept⟩

section

variable (holder : state.poll = .claiming runnerId now (item :: remaining) kept)
include holder

theorem DispatchState.Budgeted.afterClaim (budgeted : state.Budgeted groupOf limit)
    {result : ClaimResult}
    (stamped : result.store.Stamped groupOf)
    (within : ∀ group, result.store.claimedIn group + remaining.countP (·.drawsOn group) ≤
      limit group) (newHeld : result.kept = true →
      (Dispatch.mk runnerId item result.claimed false).Held groupOf limit result.store)
    (last : ∀ group, 0 < result.store.claimedIn group →
      (if result.claimed then recordLimit state.lastLimit item else state.lastLimit) group =
        some (limit group)) :
    (state.afterClaim runnerId now item remaining kept result).Budgeted groupOf limit := by
  have poll := budgeted.poll
  rw [holder] at poll
  refine ⟨stamped,budgeted.queue,budgeted.refused,
    held_map_touch budgeted.dispatching _,⟨?_,?_⟩,within,last⟩
  · exact (forall_mem_cons.mp poll.1).2
  · have markedHeld := held_map_touch poll.2 result.store
    split
    · exact forall_mem_append.mpr ⟨markedHeld,forall_mem_singleton.mpr (newHeld ‹_›)⟩
    · exact markedHeld

theorem DispatchState.Budgeted.claimNext (budgeted : state.Budgeted groupOf limit)
    (fault : ClaimFault) :
    (state.afterClaim runnerId now item remaining kept
      (claimItem state.store runnerId now item fault)).Budgeted groupOf limit := by
  have poll := budgeted.poll
  rw [holder] at poll
  have itemStamped := poll.1 item mem_cons_self
  have before : ∀ group, state.store.claimedIn group + (remaining.countP (·.drawsOn group) +
      if item.drawsOn group then 1 else 0) ≤ limit group := by
    intro group
    have within := budgeted.within group
    rw [holder,Poll.pending,countP_cons] at within
    exact within
  rcases claimItem_cases state.store runnerId now item fault with
    ⟨sameStore,notClaimed,keptCases⟩ | ⟨claimed,persisted,id,row,isId,claims⟩
  · apply budgeted.afterClaim holder
    · rw [sameStore]
      exact budgeted.rows
    · intro group
      have := before group
      rw [sameStore]
      omega
    · intro isKept
      refine ⟨itemStamped,?_⟩
      intro persisted grouped
      obtain ⟨id,isId,-⟩ := itemStamped persisted
      have ungrouped : item.concurrencyGroup = none := keptCases isKept persisted id isId
      rw [ungrouped] at grouped
      cases grouped
    · intro group isClaimed
      rw [sameStore] at isClaimed
      simpa [notClaimed] using budgeted.last group isClaimed
  · obtain ⟨_,isId',stamps⟩ := itemStamped persisted
    cases isId.symm.trans isId'
    have raised := claimedIn_claimExecution_le budgeted.rows claims
    apply budgeted.afterClaim holder
    · exact budgeted.rows.claimExecution claims
    · intro group
      have := before group
      have := raised group
      by_cases inGroup : groupOf id = some group
      · have draws : item.drawsOn group = true := by
          simp [WorkItem.drawsOn,persisted,stamps,inGroup]
        simp only [draws,inGroup,if_true] at *
        omega
      · simp only [inGroup,if_false] at *
        omega
    · intro _
      refine ⟨itemStamped,fun _ _ => ⟨claimed,fun _ => ?_⟩⟩
      obtain ⟨queuedRow,-,-,rfl,isRow⟩ := claimExecution_row claims
      refine ⟨claimRow runnerId now queuedRow,?_,rfl,rfl⟩
      simp only [Dispatch.row,isId]
      exact isRow
    · intro group isClaimed
      rw [claimed,if_pos rfl,recordLimit,stamps]
      cases isGroup : groupOf id with
      | none =>
        have := raised group
        simp only [isGroup,reduceCtorEq,if_false] at this
        exact budgeted.last group (by omega)
      | some name =>
        by_cases sameGroup : group = name
        · subst sameGroup
          exact update_self ..
        have := raised group
        have otherGroup : name ≠ group := fun same => sameGroup same.symm
        simp only [isGroup,some.injEq,otherGroup,if_false] at this
        exact (update_of_ne sameGroup _ _).trans (budgeted.last group (by omega))

end

theorem stamped_enqueue
    (queued : ∀ other ∈ queue, other.Stamped groupOf limit) (stamped : item.Stamped groupOf limit) :
    ∀ other ∈ enqueue queue item, other.Stamped groupOf limit := by
  intro other member
  rcases mem_enqueue member with old | rfl
  · exact queued other old
  · exact stamped

theorem DispatchState.Budgeted.finishScan (budgeted : state.Budgeted groupOf limit)
    (holder : state.poll = .picking batch) (claimNow : Int) :
    (state.finishScan batch claimNow).Budgeted groupOf limit := by
  have sound := budgeted.poll
  have within := budgeted.within
  rw [holder] at sound within
  unfold DispatchState.finishScan
  split
  · exact { budgeted with poll := ⟨sound.items,by simp⟩, within := within }
  rename_i rank item isBest
  have queueStamped : ∀ other ∈ state.queue.erase item, other.Stamped groupOf limit :=
    fun other member => budgeted.queue other (mem_of_mem_erase member)
  obtain ⟨takenSound,takenWithin⟩ := sound.take isBest queueStamped within
  dsimp only
  split
  · exact { budgeted with queue := queueStamped, poll := takenSound, within := takenWithin }
  · exact { budgeted with
      queue := queueStamped, poll := ⟨takenSound.items,by simp⟩, within := takenWithin }

theorem DispatchState.Budgeted.handBack (budgeted : state.Budgeted groupOf limit)
    (isRefused : item ∈ state.refused) (fails : Bool) :
    (state.handBack item fails).Budgeted groupOf limit := by
  have itemStamped := budgeted.refused item isRefused
  have taken : { state with refused := state.refused.erase item }.Budgeted groupOf limit :=
    { budgeted with
      refused := fun other member => budgeted.refused other (mem_of_mem_erase member) }
  have queued := stamped_enqueue budgeted.queue itemStamped
  unfold DispatchState.handBack
  dsimp only
  split
  · exact { taken with queue := queued }
  rename_i id _
  split
  · exact taken
  have written := taken.setStore (state.store.requeueIfClaimed id).1
    (((StoreOp.requeueIfClaimed id).apply_rowsStep state.store).stamped
      (fun fresh creates => by cases creates) budgeted.rows)
    ((StoreOp.requeueIfClaimed id).claimedIn_apply_le rfl state.store)
  split
  · exact { written with queue := queued }
  · exact written

theorem answer_eq_some {fails : Bool} {count : String → Nat} {name : String} {told : Nat}
    (answered : answer fails count name = some told) : count name = told := by
  unfold answer at answered
  split at answered
  · cases answered
  · simpa using answered

theorem DispatchState.Budgeted.step {next : DispatchState} {label : DispatchLabel}
    (budgeted : state.Budgeted groupOf limit) (stamped : label.Stamped groupOf limit)
    (steps : state.step label = some next) : next.Budgeted groupOf limit := by
  cases label with
  | write op =>
    obtain ⟨notClaim,rfl⟩ := of_unless steps
    exact budgeted.setStore _ ((op.apply_rowsStep _).stamped stamped budgeted.rows)
      (op.claimedIn_apply_le (by simpa using notClaim) _)
  | enqueue =>
    obtain ⟨-,⟨⟩⟩ := of_idle steps
    exact { budgeted with queue := stamped_enqueue budgeted.queue stamped }
  | removeItems =>
    obtain ⟨-,⟨⟩⟩ := of_idle steps
    exact { budgeted with
      queue := fun item member => budgeted.queue item (mem_filter.mp member).1 }
  | beginPoll =>
    obtain ⟨idle,⟨⟩⟩ := of_idle steps
    have within := budgeted.within
    rw [idle] at within
    split
    · exact { budgeted with
        poll := ⟨by simp,budgeted.queue,by simp,by simp,by simp,by simp,by simp⟩
        within := within }
    · exact { budgeted with poll := ⟨by simp,by simp⟩, within := within }
  | examineJob =>
    obtain ⟨batch,holder,steps⟩ := of_picking steps
    obtain ⟨examined,examines,rfl⟩ := map_eq_some_iff.mp steps
    have sound := budgeted.poll
    have within := budgeted.within
    rw [holder] at sound within
    obtain ⟨nextSound,sameItems⟩ := sound.examineJob examines
    refine { budgeted with poll := nextSound, within := ?_ }
    intro group
    rw [Poll.pending,sameItems]
    exact within group
  | examineGroup =>
    obtain ⟨batch,holder,steps⟩ := of_picking steps
    obtain ⟨examined,examines,rfl⟩ := map_eq_some_iff.mp steps
    have sound := budgeted.poll
    have within := budgeted.within
    rw [holder] at sound within
    obtain ⟨nextSound,sameItems⟩ := sound.examineGroup
      (fun group inflight answered => Nat.le_of_eq (answer_eq_some answered)) examines
    refine { budgeted with poll := nextSound, within := ?_ }
    intro group
    rw [Poll.pending,sameItems]
    exact within group
  | finishScan claimNow =>
    obtain ⟨batch,holder,steps⟩ := of_picking steps
    obtain ⟨-,rfl⟩ := of_guard steps
    exact budgeted.finishScan holder claimNow
  | claimNext fault =>
    simp only [DispatchState.step] at steps
    split at steps
    · rename_i runnerId now item remaining kept holder
      cases steps
      exact budgeted.claimNext holder fault
    · cases steps
  | release =>
    simp only [DispatchState.step] at steps
    split at steps
    · rename_i runnerId now kept holder
      have poll := budgeted.poll
      have within := budgeted.within
      rw [holder] at poll within
      cases steps
      refine { budgeted with dispatching := ?_, poll := trivial, within := within }
      exact forall_mem_append.mpr ⟨budgeted.dispatching,poll.2⟩
    · cases steps
  | handOut dispatch accepted =>
    simp only [DispatchState.step] at steps
    split at steps
    · rename_i isDispatch
      have remaining : ∀ other ∈ state.dispatching.erase dispatch,
          other.Held groupOf limit state.store :=
        fun other member => budgeted.dispatching other (mem_of_mem_erase member)
      split at steps
      · cases steps
        exact { budgeted with dispatching := remaining }
      cases steps
      refine { budgeted with dispatching := remaining, refused := ?_ }
      exact forall_mem_cons.mpr
        ⟨(budgeted.dispatching dispatch isDispatch).stamped,budgeted.refused⟩
    · cases steps
  | handBack item fails =>
    obtain ⟨-,steps⟩ := of_idle steps
    obtain ⟨isRefused,rfl⟩ := of_guard steps
    exact budgeted.handBack isRefused fails
  | restart =>
    cases steps
    refine ⟨budgeted.rows,by simp,by simp,by simp,trivial,?_,budgeted.last⟩
    intro group
    exact Nat.le_trans (Nat.le_add_right _ _) (budgeted.within group)

end Stamps

/-- The claims of a group stay within the limit of the item claimed last.  A grouped item about to
be handed out was claimed by the poll that took it, and is still claimed for its runner unless
another write changed its row since. -/
theorem group_budget_holds (groupOf : Uuid → Option String) (limit : String → Nat)
    (labels : List DispatchLabel) (state : DispatchState)
    (stamped : Along step (fun _ label => label.Stamped groupOf limit) .initial labels)
    (reaches : run step .initial labels = some state) :
    (∀ group, state.store.claimedIn group ≤ (state.lastLimit group).getD 0) ∧
    ∀ dispatch ∈ state.dispatching, dispatch.item.isEphemeral = false →
      dispatch.item.concurrencyGroup.isSome = true → dispatch.claimed = true ∧
      (dispatch.touched = false → ∃ row, dispatch.row state.store = some row ∧
        row.state = .claimed ∧ row.runnerId = some dispatch.runnerId) := by
  have budgeted : state.Budgeted groupOf limit :=
    invariant_of_along (fun _ _ _ budgeted stamped steps => budgeted.step stamped steps)
      initial_budgeted stamped reaches
  constructor
  · intro group
    rcases Nat.eq_zero_or_pos (state.store.claimedIn group) with none | some
    · rw [none]
      exact Nat.zero_le _
    · rw [budgeted.last group some]
      exact Nat.le_trans (Nat.le_add_right _ _) (budgeted.within group)
  · intro dispatch isDispatch
    exact (budgeted.dispatching dispatch isDispatch).claimed

/-- An execution of a group with one slot. -/
def crawlExecution (id : Uuid) : FreshExecution :=
  newExecution id "crawl:site" 0 0 none
    [("__concurrency_group", "api"),("__concurrency_group_max", "1")]

def crawlItem (id : Uuid) : WorkItem where
  executionId := .uuid id
  jobKey := "crawl:site"
  fireAt := 0
  require := []
  metadata := [("__concurrency_group", .text "api"),("__concurrency_group_max", .text "1")]
  isEphemeral := false

/-- One poll takes an item through the whole section; the second finds no slot. -/
def crawlPoll : List DispatchLabel :=
  [.write (.create (crawlExecution 7)),.write (.create (crawlExecution 8)),
    .enqueue (crawlItem 7),.enqueue (crawlItem 8),.beginPoll "runner-1" [] 2 0 5,
    .examineJob false,.examineGroup false,.examineJob false,.finishScan 5,
    .examineJob false,.examineGroup false,.finishScan 5,.claimNext .none,.release]

def crawlGroup (_ : Uuid) : Option String :=
  some "api"

theorem crawlPoll_stamped {label : DispatchLabel}
    (member : label ∈ crawlPoll ++ [.write (.cancel 7 6)]) :
    label.Stamped crawlGroup fun _ => 1 := by
  have itemStamped (id : Uuid) : (crawlItem id).Stamped crawlGroup fun _ => 1 :=
    fun _ => ⟨id,rfl,rfl⟩
  have createStamped (id : Uuid) : (StoreOp.create (crawlExecution id)).Stamped crawlGroup := by
    intro fresh creates
    cases creates
    rfl
  have cancelStamped : (StoreOp.cancel 7 6).Stamped crawlGroup := by rintro _ ⟨⟩
  revert label
  simp [crawlPoll,DispatchLabel.Stamped,itemStamped,createStamped,cancelStamped]

theorem group_budget_holds_crawlPoll :
    ∃ state, run step .initial crawlPoll = some state ∧
      state.store.claimedIn "api" = 1 ∧ state.queue = [crawlItem 8] ∧
      ∀ group, state.store.claimedIn group ≤ (state.lastLimit group).getD 0 :=
  ⟨_,rfl,by decide,by decide,(group_budget_holds crawlGroup (fun _ => 1) crawlPoll _
    (along_of_forall_mem (fun _ member _ => crawlPoll_stamped (mem_append_left _ member)) _)
    rfl).1⟩

/-- Cancelled between the claim and the hand-out, an execution is handed to the runner all the same.
-/
theorem handOut_of_cancelled_row :
    (∀ label ∈ crawlPoll ++ [.write (.cancel 7 6)], label.Stamped crawlGroup fun _ => 1) ∧
    ∃ state dispatch next,
      run step .initial (crawlPoll ++ [.write (.cancel 7 6)]) = some state ∧
      dispatch.item = crawlItem 7 ∧ (crawlItem 7).concurrencyGroup = some ("api", 1) ∧
      state.step (.handOut dispatch true) = some next ∧
      (dispatch.row state.store).map Execution.state = some .cancelled :=
  ⟨fun _ => crawlPoll_stamped,_,⟨"runner-1",crawlItem 7,true,true⟩,_,rfl,rfl,by decide,rfl,
    by decide⟩

end Croniq

import Croniq.WorkDispatch

/-!
# The steps of a poll

What one step of a poll does to the queue, to the batch it is filling or
claiming and to the store: nothing, or it takes one item out of the queue into
the batch, or it claims the row of the first item of the batch.
-/

namespace Croniq

open Dispatch List

namespace Picking

/-- What a scan has still to look at, and what has passed. -/
structure Scans (seen passed : WorkItem → Prop) (picking : Picking) : Prop where
  rest : ∀ item ∈ picking.rest, seen item
  candidate : ∀ rank item, picking.candidate = some (rank, item) → passed item
  best : ∀ rank item, picking.best = some (rank, item) → passed item

structure SameBatch (picking next : Picking) : Prop where
  runnerId : next.runnerId = picking.runnerId
  capabilities : next.capabilities = picking.capabilities
  dispatchNow : next.dispatchNow = picking.dispatchNow
  items : next.items = picking.items

variable {seen passed : WorkItem → Prop} {picking next : Picking}
  {storeCount : String → Option Nat}

theorem Scans.examineJob (scans : picking.Scans seen passed)
    (passes : ∀ item, seen item → item.require.all picking.capabilities.contains = true →
      passed item) (examines : picking.examineJob storeCount = some next) :
    next.Scans seen passed ∧ picking.SameBatch next := by
  unfold Picking.examineJob at examines
  split at examines
  · rename_i item rest noCandidate isRest
    have first : seen item := scans.rest item (isRest ▸ mem_cons_self)
    have later : ∀ other ∈ rest, seen other :=
      fun other member => scans.rest other (isRest ▸ mem_cons_of_mem item member)
    dsimp only at examines
    split at examines
    · cases examines
      exact ⟨{ scans with rest := later },rfl,rfl,rfl,rfl⟩
    rename_i examined
    cases examines
    refine ⟨{ scans with rest := later, candidate := ?_ },rfl,rfl,rfl,rfl⟩
    intro rank other isCandidate
    split at isCandidate
    · cases isCandidate
      simp only [Bool.or_eq_true,not_or] at examined
      exact passes item first (by simpa using examined.1)
    · cases isCandidate
  · cases examines

theorem Scans.examineGroup (scans : picking.Scans seen passed)
    (examines : picking.examineGroup storeCount = some next) :
    next.Scans seen passed ∧ picking.SameBatch next := by
  obtain ⟨⟨rank,item⟩,isCandidate,rfl⟩ := Option.map_eq_some_iff.mp examines
  refine ⟨⟨?_,fun _ _ found => (nomatch found),?_⟩,rfl,rfl,rfl,rfl⟩
  · intro other member
    dsimp only at member
    split at member
    · cases member
    · exact scans.rest other member
  · intro otherRank other isBest
    dsimp only at isBest
    split at isBest
    · cases isBest
      exact scans.candidate rank item isCandidate
    · exact scans.best otherRank other isBest

end Picking

namespace Poll

/-- The items a poll has taken and not claimed yet. -/
def batch : Poll → List WorkItem
  | .idle => []
  | .picking scan => scan.items
  | .claiming _ _ remaining _ => remaining

def kept : Poll → List Dispatch
  | .claiming _ _ _ kept => kept
  | _ => []

def Within (queue : List WorkItem) : Poll → Prop
  | .picking scan => scan.Scans (· ∈ queue) (· ∈ queue)
  | _ => True

theorem Within.of_idle {queue : List WorkItem} {poll : Poll} (isIdle : poll = .idle) :
    poll.Within queue := by
  rw [isIdle]
  trivial

end Poll

/-- The steps of a poll and of the hand-out after it. -/
def DispatchLabel.isPoll : DispatchLabel → Bool
  | .beginPoll _ _ _ _ _ => true
  | .examineJob _ => true
  | .examineGroup _ => true
  | .finishScan _ => true
  | .claimNext _ => true
  | .release => true
  | .handOut _ _ => true
  | _ => false

/-- The items that left the batch: claimed, on the way to a runner, or refused. -/
def DispatchState.handled (state : DispatchState) : List WorkItem :=
  state.poll.kept.map item ++ state.dispatching.map item ++ state.refused

inductive BatchChange (state next : DispatchState) : Prop
  | none (sameStore : next.store = state.store) (sameQueue : next.queue = state.queue)
      (sameBatch : next.poll.batch = state.poll.batch) (handled : next.handled ⊆ state.handled)
  | took (item : WorkItem) (inQueue : item ∈ state.queue) (sameStore : next.store = state.store)
      (queue : next.queue = state.queue.erase item)
      (batch : next.poll.batch = state.poll.batch ++ [item])
      (handled : next.handled ⊆ state.handled)
  | claimed (runnerId : String) (now : Int) (item : WorkItem) (fault : ClaimFault)
      (store : next.store = (claimItem state.store runnerId now item fault).store)
      (sameQueue : next.queue = state.queue)
      (batch : state.poll.batch = item :: next.poll.batch)
      (handled : next.handled ⊆ item :: state.handled)

namespace DispatchState

variable {state next : DispatchState}

theorem map_item_touch (before after : Store) (dispatches : List Dispatch) :
    (dispatches.map (.touch before after)).map item = dispatches.map item := by
  rw [map_map]
  rfl

theorem poll_setStore (state : DispatchState) (store : Store) :
    (state.setStore store).poll.batch = state.poll.batch ∧
      (state.setStore store).poll.kept.map item = state.poll.kept.map item ∧
      ((state.setStore store).poll.Within state.queue ↔ state.poll.Within state.queue) := by
  unfold setStore
  cases state.poll with
  | claiming runnerId now remaining kept => exact ⟨rfl,map_item_touch _ _ kept,Iff.rfl⟩
  | idle | picking => exact ⟨rfl,rfl,Iff.rfl⟩

theorem handled_setStore (state : DispatchState) (store : Store) :
    (state.setStore store).handled = state.handled := by
  have sameDispatching : (state.setStore store).dispatching.map item = state.dispatching.map item :=
    map_item_touch _ _ _
  unfold handled
  rw [(state.poll_setStore store).2.1,sameDispatching]
  rfl

theorem handled_of_poll {poll : Poll} (nothingKept : poll.kept = []) :
    { state with poll }.handled ⊆ state.handled := by
  unfold handled
  rw [nothingKept,map_nil,nil_append,append_assoc]
  exact subset_append_right _ _

theorem finishScan_change {picking : Picking} (holder : state.poll = .picking picking)
    (within : picking.Scans (· ∈ state.queue) (· ∈ state.queue))
    (scanned : picking.candidate = none) (claimNow : Int) :
    (state.finishScan picking claimNow).poll.Within (state.finishScan picking claimNow).queue ∧
      BatchChange state (state.finishScan picking claimNow) := by
  unfold finishScan
  split
  · exact ⟨trivial,.none rfl rfl (by rw [holder]; rfl) (handled_of_poll rfl)⟩
  rename_i rank item isBest
  have inQueue := within.best rank item isBest
  dsimp only
  split
  · refine ⟨⟨fun _ member => member,?_,fun _ _ found => (nomatch found)⟩,
      .took item inQueue rfl rfl (by rw [holder]; rfl) (handled_of_poll rfl)⟩
    intro otherRank other isCandidate
    rw [Picking.take,scanned] at isCandidate
    cases isCandidate
  · exact ⟨trivial,.took item inQueue rfl rfl (by rw [holder]; rfl) (handled_of_poll rfl)⟩

theorem afterClaim_change {runnerId : String} {now : Int} {item : WorkItem}
    {remaining : List WorkItem} {kept : List Dispatch}
    (holder : state.poll = .claiming runnerId now (item :: remaining) kept) (fault : ClaimFault) :
    BatchChange state
      (state.afterClaim runnerId now item remaining kept
        (claimItem state.store runnerId now item fault)) := by
  refine .claimed runnerId now item fault rfl rfl (by rw [holder]; rfl) ?_
  have sameDispatching :
      (state.setStore (claimItem state.store runnerId now item fault).store).dispatching.map
        Dispatch.item = state.dispatching.map Dispatch.item :=
    map_item_touch _ _ _
  have sameRefused :
      (state.setStore (claimItem state.store runnerId now item fault).store).refused =
        state.refused := rfl
  intro other member
  simp only [handled,afterClaim,sameDispatching,sameRefused,holder,Poll.kept,mem_cons,
    mem_append] at member ⊢
  split at member
  · simp only [map_append,map_item_touch,mem_append,map_singleton,mem_singleton] at member
    tauto
  · rw [map_item_touch] at member
    exact .inr member

theorem batchChange_of_step {label : DispatchLabel} (isPoll : label.isPoll = true)
    (within : state.poll.Within state.queue) (steps : state.step label = some next) :
    next.poll.Within next.queue ∧ BatchChange state next := by
  cases label with
  | beginPoll runnerId capabilities capacity dispatchNow claimNow =>
    obtain ⟨isIdle,⟨⟩⟩ := of_idle steps
    split
    · exact ⟨⟨fun _ member => member,by simp,by simp⟩,
        .none rfl rfl (by rw [isIdle]; rfl) (handled_of_poll rfl)⟩
    · exact ⟨trivial,.none rfl rfl (by rw [isIdle]; rfl) (handled_of_poll rfl)⟩
  | examineJob =>
    obtain ⟨picking,holder,steps⟩ := of_picking steps
    obtain ⟨examined,examines,rfl⟩ := Option.map_eq_some_iff.mp steps
    rw [holder] at within
    obtain ⟨scans,same⟩ := Picking.Scans.examineJob within (fun _ seen _ => seen) examines
    exact ⟨scans,.none rfl rfl (by rw [holder]; exact same.items) (handled_of_poll rfl)⟩
  | examineGroup =>
    obtain ⟨picking,holder,steps⟩ := of_picking steps
    obtain ⟨examined,examines,rfl⟩ := Option.map_eq_some_iff.mp steps
    rw [holder] at within
    obtain ⟨scans,same⟩ := Picking.Scans.examineGroup within examines
    exact ⟨scans,.none rfl rfl (by rw [holder]; exact same.items) (handled_of_poll rfl)⟩
  | finishScan claimNow =>
    obtain ⟨picking,holder,steps⟩ := of_picking steps
    obtain ⟨scanned,⟨⟩⟩ := Option.ite_none_right_eq_some.mp steps
    rw [holder] at within
    exact finishScan_change holder within scanned.2 claimNow
  | claimNext fault =>
    simp only [step] at steps
    split at steps
    · rename_i runnerId now item remaining kept holder
      cases steps
      exact ⟨trivial,afterClaim_change holder fault⟩
    · cases steps
  | release =>
    simp only [step] at steps
    split at steps
    · rename_i runnerId now kept holder
      cases steps
      refine ⟨trivial,.none rfl rfl (by rw [holder]; rfl) ?_⟩
      intro item member
      simp only [handled,holder,Poll.kept,map_append,mem_append] at member ⊢
      tauto
    · cases steps
  | handOut dispatch accepted =>
    simp only [step] at steps
    split at steps
    · rename_i isDispatching
      have remains : ∀ item ∈ (state.dispatching.erase dispatch).map Dispatch.item,
          item ∈ state.dispatching.map Dispatch.item :=
        map_subset _ (erase_subset)
      have itsItem : dispatch.item ∈ state.dispatching.map item := mem_map_of_mem isDispatching
      split at steps <;> cases steps <;> refine ⟨within,.none rfl rfl rfl ?_⟩ <;>
        intro item member <;> simp only [handled,mem_append,mem_cons] at member ⊢
      · rcases member with (isKept | isDispatched) | isRefused
        · exact .inl (.inl isKept)
        · exact .inl (.inr (remains item isDispatched))
        · exact .inr isRefused
      · rcases member with (isKept | isDispatched) | rfl | isRefused
        · exact .inl (.inl isKept)
        · exact .inl (.inr (remains item isDispatched))
        · exact .inl (.inr itsItem)
        · exact .inr isRefused
    · cases steps
  | _ => cases isPoll

theorem store_of_poll_step {label : DispatchLabel} (isPoll : label.isPoll = true)
    (notClaim : ∀ fault, label ≠ .claimNext fault) (steps : state.step label = some next) :
    next.store = state.store := by
  cases label with
  | beginPoll runnerId capabilities capacity dispatchNow claimNow | release =>
    simp only [step] at steps
    split at steps <;> cases steps
    rfl
  | examineJob fails | examineGroup =>
    obtain ⟨picking,-,steps⟩ := of_picking steps
    obtain ⟨examined,_,rfl⟩ := Option.map_eq_some_iff.mp steps
    rfl
  | finishScan =>
    obtain ⟨picking,-,steps⟩ := of_picking steps
    obtain ⟨-,⟨⟩⟩ := Option.ite_none_right_eq_some.mp steps
    unfold finishScan
    split <;> rfl
  | claimNext fault => exact absurd rfl (notClaim fault)
  | handOut =>
    simp only [step] at steps
    split at steps
    · split at steps <;> cases steps <;> rfl
    · cases steps
  | _ => cases isPoll

end DispatchState

end Croniq

import Croniq.CompletionEffects

/-!
# Reports of earlier dispatches

A claim that is returned to the queue can be given out again while a report of
the first dispatch is still on its way.
-/

namespace Croniq

open CompletionState KeyedTables LabelledRuns List

def Processing.event? : Processing → Option CompletionEvent
  | .idle => none
  | .received event => some event
  | .writing report _ => some report.event
  | .retrying report _ _ => some report.event
  | .burying report _ => some report.event
  | .done event _ => some event

def Processing.report? : Processing → Option Report
  | .writing report _ => some report
  | .retrying report _ _ => some report
  | .burying report _ => some report
  | _ => none

def CompletionLabel.slot? : CompletionLabel → Option Nat
  | .deliver slot _ => some slot
  | .read slot _ _ _ _ => some slot
  | .advance slot _ _ => some slot
  | _ => none

/-- The first of two elements is not the last one. -/
private theorem getLast?_ne_of_sublist_pair {Entry : Type*} {entries : List Entry}
    {first second : Entry} (nodup : entries.Nodup) (inOrder : [first,second].Sublist entries) :
    entries.getLast? ≠ some first := by
  intro isLast
  obtain ⟨before,after,rfl,isBefore,isAfter⟩ := cons_sublist_iff.mp inOrder
  have notEmpty : after ≠ [] := by
    rintro rfl
    simp at isAfter
  rw [getLast?_append_of_ne_nil _ notEmpty] at isLast
  exact (nodup_append.mp nodup).2.2 first isBefore first (mem_of_getLast? isLast) rfl

namespace CompletionState

variable (state : CompletionState)

def claimsOf (id : Uuid) : List (Uuid × String) :=
  state.claims.filter (·.1 = id)

def FreshRunner : CompletionLabel → Prop
  | .claim id runnerId _ => (id, runnerId) ∉ state.claims
  | _ => True

instance (label : CompletionLabel) : Decidable (state.FreshRunner label) := by
  cases label <;> unfold FreshRunner <;> infer_instance

/-- Rows are held by their last claim, and reports name their row. -/
structure Fenced (state : CompletionState) : Prop where
  booking : ∀ id, state.Booking id
  claimsNodup : state.claims.Nodup
  heldByLast : ∀ id row, state.store.getExecution id = some row → row.state = .claimed →
    ∃ runnerId, row.runnerId = some runnerId ∧ (state.claimsOf id).getLast? = some (id, runnerId)
  named : ∀ slot report, (state.slots slot).report? = some report →
    report.event.executionId = .uuid report.execution.id

end CompletionState

namespace Change

open CompletionState

variable {state next : CompletionState} {label : CompletionLabel}

theorem claims_cases (change : Change state label next) :
    (∃ id runnerId now row, label = .claim id runnerId now ∧
      state.store.claimExecution id runnerId now = .ok (row, next.store) ∧
      next.claims = state.claims ++ [(id, runnerId)]) ∨
    (next.claims = state.claims ∧
      ∀ id row, next.store.getExecution id = some row → row.state = .claimed →
        state.store.getExecution id = some row) := by
  cases change with
  | wrote op notClaim =>
    exact .inr ⟨rfl,fun _ _ => (op.apply_rowsStep state.store).find?_of_claimed notClaim⟩
  | claimed id runnerId now row store claims => exact .inl ⟨id,runnerId,now,row,rfl,claims,rfl⟩
  | noted | moved | decided => exact .inr ⟨rfl,fun _ _ found _ => found⟩
  | recorded slot freshId report decision outcome stage op before after writing found isClaimed
      held notClaim =>
      exact .inr ⟨rfl,fun _ _ => (op.apply_rowsStep state.store).find?_of_claimed notClaim⟩
  | retried slot report nextAttempt delay retryId event processed created retrying creates =>
    exact .inr ⟨rfl,fun _ _ => (Store.createExecution_rowsStep _ creates).find?_of_claimed rfl⟩
  | buried slot freshId report deadLetter event processed op before after decided found stillOpen
      held notClaim =>
      exact .inr ⟨rfl,fun _ _ => (op.apply_rowsStep state.store).find?_of_claimed notClaim⟩

theorem report_cases (change : Change state label next) {slot : Nat} {report : Report}
    (isReport : (next.slots slot).report? = some report) :
    (state.slots slot).report? = some report ∨
      report.event.executionId = .uuid report.execution.id := by
  have cases_setSlot {base : CompletionState} {changed : Nat} {stage : Processing}
      (inSlot : ((base.setSlot changed stage).slots slot).report? = some report) :
      (slot = changed ∧ stage.report? = some report) ∨
        (slot ≠ changed ∧ (base.slots slot).report? = some report) :=
    setSlot_cases (fun stage => stage.report? = some report) inSlot
  cases change with
  | wrote | claimed | noted => exact .inl isReport
  | moved label changed stage ephemeral notWriting lostRetry =>
    rcases cases_setSlot isReport with ⟨rfl,inStage⟩ | ⟨_,old⟩
    · cases stage with
      | burying lost reason =>
        obtain ⟨nextAttempt,delay,retrying⟩ := lostRetry lost reason rfl
        rw [retrying]
        exact .inl inStage
      | writing | retrying => cases notWriting
      | _ => cases inStage
    · exact .inl old
  | decided changed read applyJitter received names =>
    rcases cases_setSlot isReport with ⟨rfl,inStage⟩ | ⟨_,old⟩
    · cases inStage
      exact .inr names
    · exact .inl old
  | recorded changed freshId written decision outcome stage op before after writing found isClaimed
      held notClaim ends isEnded keepsLetters goesOn =>
      rcases cases_setSlot isReport with ⟨rfl,inStage⟩ | ⟨_,old⟩
      · rcases goesOn with ⟨event,processed,rfl⟩ | ⟨nextAttempt,delay,_,_,rfl⟩
        · cases inStage
        · rw [writing]
          exact .inl inStage
      · exact .inl old
  | retried | buried =>
    rcases cases_setSlot isReport with ⟨_,inStage⟩ | ⟨_,old⟩
    · cases inStage
    · exact .inl old

end Change

namespace CompletionState

variable {state next : CompletionState} {label : CompletionLabel}

theorem Fenced.initial : initial.Fenced where
  booking := Booking.initial
  claimsNodup := nodup_nil
  heldByLast := fun _ _ found => nomatch found
  named := fun _ _ isReport => nomatch isReport

theorem Fenced.heldByLast_of_claim (fenced : state.Fenced) {id : Uuid} {runnerId : String}
    {now : Int} {claimedRow : Execution}
    (claims : state.store.claimExecution id runnerId now = .ok (claimedRow, next.store))
    (adds : next.claims = state.claims ++ [(id, runnerId)]) (other : Uuid) (row : Execution)
    (found : next.store.getExecution other = some row) (isClaimed : row.state = .claimed) :
    ∃ holder, row.runnerId = some holder ∧
      (next.claimsOf other).getLast? = some (other, holder) := by
  by_cases isOther : other = id
  · subst isOther
    obtain ⟨before,_,_,rfl,foundClaimed⟩ := Store.claimExecution_row claims
    rw [foundClaimed] at found
    cases found
    exact ⟨runnerId,rfl,by simp [claimsOf,adds]⟩
  · rw [Store.getExecution_claimExecution_of_ne claims isOther] at found
    obtain ⟨holder,isHolder,isLast⟩ := fenced.heldByLast other row found isClaimed
    refine ⟨holder,isHolder,?_⟩
    have sameClaims : next.claimsOf other = state.claimsOf other := by
      simp [claimsOf,adds,Ne.symm isOther]
    rw [sameClaims,isLast]

theorem Fenced.step (fenced : state.Fenced) (freshRunner : state.FreshRunner label)
    (change : Change state label next) : next.Fenced where
  booking := fun id => (fenced.booking id).step change
  claimsNodup := by
    rcases change.claims_cases with ⟨id,runnerId,now,row,rfl,_,adds⟩ | ⟨same,_⟩
    · rw [adds,← concat_eq_append]
      exact fenced.claimsNodup.concat freshRunner
    · rw [same]
      exact fenced.claimsNodup
  heldByLast := by
    intro other row found isClaimed
    rcases change.claims_cases with ⟨id,runnerId,now,claimedRow,_,claims,adds⟩ | ⟨same,old⟩
    · exact fenced.heldByLast_of_claim claims adds other row found isClaimed
    · rw [claimsOf,same]
      exact fenced.heldByLast other row (old other row found isClaimed) isClaimed
  named := by
    intro slot report isReport
    rcases change.report_cases isReport with old | names
    · exact fenced.named slot report old
    · exact names

end CompletionState

open CompletionState

/-- Unless a runner claims an execution twice, a report of an earlier dispatch changes nothing
under a later claim. -/
theorem report_ends_own_dispatch (labels : List CompletionLabel) (state : CompletionState)
    (freshRunner : Along step FreshRunner .initial labels)
    (reaches : run step .initial labels = some state)
    (id : Uuid) (row : Execution) (earlier later : String)
    (inOrder : [(id, earlier),(id, later)].Sublist state.claims)
    (found : state.store.getExecution id = some row) (isClaimed : row.state = .claimed)
    (slot : Nat) (event : CompletionEvent) (inFlight : (state.slots slot).event? = some event)
    (names : event.executionId = .uuid id) (fromEarlier : event.runnerId = earlier)
    (label : CompletionLabel) (next : CompletionState) (processes : label.slot? = some slot)
    (steps : state.step label = some next) :
    next.store = state.store ∧ next.effects = state.effects := by
  have fenced : state.Fenced :=
    invariant_of_along (fun _ _ _ fenced fresh steps => fenced.step fresh (.of_step steps)) .initial
      freshRunner reaches
  have notHeld : row.runnerId ≠ some earlier := by
    intro held
    obtain ⟨holder,isHolder,isLast⟩ := fenced.heldByLast id row found isClaimed
    rw [held] at isHolder
    cases isHolder
    have inOrderOf : [(id, earlier),(id, later)].Sublist (state.claimsOf id) := by
      simpa [claimsOf] using inOrder.filter fun claim => decide (claim.1 = id)
    exact getLast?_ne_of_sublist_pair (fenced.claimsNodup.filter _) inOrderOf isLast
  have isNamed {report : Report} (isReport : (state.slots slot).report? = some report)
      (isEvent : report.event = event) : report.execution.id = id := by
    have named := fenced.named slot report isReport
    rw [isEvent,names] at named
    exact (ExecutionId.uuid.inj named).symm
  cases Change.of_step steps with
  | wrote | claimed | noted => cases processes
  | moved | decided => exact ⟨rfl,rfl⟩
  | recorded changed freshId report decision outcome stage op before after writing foundBefore
      wasClaimed held =>
      cases processes
      rw [writing] at inFlight isNamed
      cases inFlight
      cases isNamed rfl rfl
      rw [found] at foundBefore
      cases foundBefore
      exact absurd (fromEarlier ▸ held) notHeld
  | retried changed report nextAttempt delay retryId event processed created retrying =>
    cases processes
    rw [retrying] at inFlight isNamed
    cases inFlight
    cases isNamed rfl rfl
    obtain ⟨_,settled⟩ := (fenced.booking _).fresh_of_claimed found isClaimed
    exact absurd (by rw [retrying]; rfl) (settled slot)
  | buried changed freshId report deadLetter event processed op before after decided foundBefore
      stillOpen held =>
      cases processes
      have ofStage : (state.slots slot).report? = some report ∧
          (state.slots slot).event? = some report.event := by
        rcases decided with ⟨reason,operatorHint,expiresAfter,writing⟩ | ⟨reason,burying⟩
        · rw [writing]
          exact ⟨rfl,rfl⟩
        · rw [burying]
          exact ⟨rfl,rfl⟩
      rw [ofStage.2] at inFlight
      cases inFlight
      cases isNamed ofStage.1 rfl
      rw [found] at foundBefore
      cases foundBefore
      exact absurd (fromEarlier ▸ held) notHeld

def invoiceSuccess : CompletionEvent where
  runnerId := "runner-1"
  executionId := .uuid 7
  status := .success
  error := none
  durationMs := 20
  attempt := 1

/-- The first runner is given up before its report is processed, and the execution claimed again. -/
def reissuedRun (secondRunner : String) : List CompletionLabel :=
  [.write (.create invoiceExecution),.claim 7 "runner-1" 1,.deliver 0 invoiceSuccess,
    .write (.requeueAbandoned "runner-1"),.claim 7 secondRunner 2,
    .read 0 3 (some (invoiceJob 3)) id none]

theorem report_ends_own_dispatch_otherRunner :
    ∃ state next, run step .initial (reissuedRun "runner-2") = some state ∧
      state.step (.advance 0 9 none) = some next ∧
      next.store = state.store ∧ next.effects = state.effects := by
  refine ⟨_,_,rfl,rfl,report_ends_own_dispatch (reissuedRun "runner-2") _ ?_ rfl 7 _
    "runner-1" "runner-2" (by decide) rfl rfl 0 invoiceSuccess rfl rfl rfl (.advance 0 9 none) _
    rfl rfl⟩
  decide

/-- A new instance of the same runner holds the second claim, which the report of the first dispatch
ends. -/
theorem report_ends_later_dispatch :
    ∃ state next,
      run step .initial (reissuedRun "runner-1") = some state ∧
      (state.store.getExecution 7).map (fun row => (row.state, row.claimedAt)) =
        some (.claimed, some 2) ∧
      state.step (.advance 0 9 none) = some next ∧
      (next.store.getExecution 7).map (fun row => (row.state, row.claimedAt)) =
        some (.completed, some 2) ∧ next.effects = [.recorded 0 7 .completed] :=
  ⟨_,_,rfl,by decide,rfl,by decide,by decide⟩

end Croniq

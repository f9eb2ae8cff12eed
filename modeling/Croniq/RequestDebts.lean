import Croniq.RequestViews

/-!
# Requests that leave something to be settled

A write may break, at one key, what should hold between the parts of a store;
the request that made it then owes the call that settles the key again.
-/

namespace CallPrograms

open Function LabelledRuns

variable {Store Request Call : Type} {Answer : Call → Type} {Credential Result View Key : Type}

/-- What is to be settled at each key, which calls settle it, which may fail, and when a call is
made. -/
structure Duties (Store Call View Key : Type) where
  Settled : Store → Key → Prop
  Settles : Call → Key → Prop
  mayFail : Call → Bool
  Condition : View → Store → Call → Prop

section

variable (perform : Store → (what : Call) → Answer what × Store)
  (observer : Observer Call Answer View) (duties : Duties Store Call View Key)

/-- The program settles the key, whatever the store answers. -/
def Program.Owes (key : Key) : Program Call Answer Credential Result → Prop
  | .done _ => False
  | .redeem _ rest => rest.Owes key
  | .call what next =>
    duties.Settles what key ∨
      ∀ now, (∀ store, (next now (some (perform store what).1)).Owes key) ∧
        (duties.mayFail what = true → (next now none).Owes key)

/-- A call settles the keys it is made for; any other stays settled or is owed from then on. -/
structure CallMinds (store : Store) (what : Call)
    (after : Program Call Answer Credential Result) : Prop where
  settles : ∀ key, duties.Settles what key → duties.Settled (perform store what).2 key
  keeps : ∀ key, duties.Settled store key →
    duties.Settled (perform store what).2 key ∨ after.Owes perform duties key

/-- Every call minds its debts, as long as the conditions are met. -/
def Program.Minds : View → Program Call Answer Credential Result → Prop
  | _, .done _ => True
  | view, .redeem _ rest => rest.Minds view
  | view, .call what next => ∀ now,
      (∀ store, duties.Condition view store what →
        CallMinds perform duties store what (next now (some (perform store what).1)) ∧
          (next now (some (perform store what).1)).Minds
            (observer.observe view what (perform store what).1)) ∧
      (duties.mayFail what = true → (next now none).Minds view)

end

section

variable (service : Service Store Request Call Answer Credential Result)
  (observer : Observer Call Answer View) (duties : Duties Store Call View Key)

/-- The call meets its condition, or may fail. -/
def Scene.Careful (scene : Scene Store Call Answer Credential Result View) : Label Request → Prop
  | .start _ _ => True
  | .act slot _ fails =>
    match scene.requests slot with
    | some (.call what _) =>
      if fails then duties.mayFail what = true
      else duties.Condition (scene.views slot) scene.store what
    | _ => True

/-- The requests in flight mind their debts, and every key is settled or owed by one of
them. -/
structure Scene.Accounted (scene : Scene Store Call Answer Credential Result View) : Prop where
  minds : ∀ slot program, scene.requests slot = some program →
    program.Minds service.perform observer duties (scene.views slot)
  accounted : ∀ key, duties.Settled scene.store key ∨
    ∃ slot program, scene.requests slot = some program ∧ program.Owes service.perform duties key

variable {service observer duties}
variable {store : Store} {scene next : Scene Store Call Answer Credential Result View}

/-- When one slot changes, the keys its request owed are accounted for. -/
theorem Scene.Accounted.update_slot
    (before : scene.Accounted service observer duties) {slot : Nat} {view : View}
    {program : Option (Program Call Answer Credential Result)}
    (requests : next.requests = update scene.requests slot program)
    (views : next.views = update scene.views slot view)
    (minds : ∀ running, program = some running → running.Minds service.perform observer duties view)
    (settled : ∀ key, duties.Settled scene.store key → duties.Settled next.store key ∨
      ∃ running, program = some running ∧ running.Owes service.perform duties key)
    (owed : ∀ key running, scene.requests slot = some running →
      running.Owes service.perform duties key → duties.Settled next.store key ∨
        ∃ running, program = some running ∧ running.Owes service.perform duties key) :
    next.Accounted service observer duties := by
  have own : ∀ key, (duties.Settled next.store key ∨
        ∃ running, program = some running ∧ running.Owes service.perform duties key) →
      duties.Settled next.store key ∨ ∃ other running, next.requests other = some running ∧
        running.Owes service.perform duties key := by
    rintro key (isSettled | ⟨running,isProgram,owes⟩)
    · exact .inl isSettled
    · exact .inr ⟨slot,running,by rw [requests,update_self,isProgram],owes⟩
  constructor
  · intro other running runs
    rw [requests] at runs
    rw [views]
    by_cases isSlot : other = slot
    · subst isSlot
      rw [update_self] at runs ⊢
      exact minds running runs
    · rw [update_of_ne isSlot] at runs ⊢
      exact before.minds other running runs
  · intro key
    obtain isSettled | ⟨other,running,runs,owes⟩ := before.accounted key
    · exact own key (settled key isSettled)
    · by_cases isSlot : other = slot
      · subst isSlot
        exact own key (owed key running runs owes)
      · exact .inr ⟨other,running,by rw [requests,update_of_ne isSlot,runs],owes⟩

section

variable (minds : ∀ request, (service.handle request).Minds service.perform
    observer duties observer.initial)
include minds

section

variable (reliable : ∀ what key, duties.Settles what key → duties.mayFail what = false)
include reliable

theorem Scene.Accounted.step (before : scene.Accounted service observer duties)
    {label : Label Request} (careful : scene.Careful duties label)
    (step : scene.step service observer label = some next) :
    next.Accounted service observer duties := by
  have sameView : ∀ slot, scene.views = update scene.views slot (scene.views slot) :=
    fun slot => (update_eq_self slot scene.views).symm
  cases label with
  | start slot request =>
    simp only [Scene.step] at step
    split at step
    · cases step
    next free =>
      cases step
      refine before.update_slot rfl rfl ?_ (fun _ => .inl) ?_
      · rintro running ⟨⟩
        exact minds request
      · intro key running runs
        rw [free] at runs
        cases runs
  | act slot now fails =>
    simp only [Scene.step] at step
    split at step
    · cases step
    next result runs =>
      cases step
      refine before.update_slot rfl (sameView slot) (by rintro _ ⟨⟩)
        (fun _ => .inl) ?_
      intro key running isRunning owes
      rw [runs] at isRunning
      cases isRunning
      exact owes.elim
    next credential rest runs =>
      cases step
      refine before.update_slot rfl (sameView slot) ?_ (fun _ => .inl) ?_
      · rintro running ⟨⟩
        exact before.minds slot (.redeem credential rest) runs
      · intro key running isRunning owes
        rw [runs] at isRunning
        cases isRunning
        exact .inr ⟨rest,rfl,owes⟩
    next what continuation runs =>
      have minds := before.minds slot _ runs now
      simp only [Scene.Careful,runs] at careful
      cases fails with
      | true =>
        cases step
        refine before.update_slot rfl (sameView slot) ?_ (fun _ => .inl) ?_
        · rintro running ⟨⟩
          exact minds.2 careful
        · intro key running isRunning owes
          rw [runs] at isRunning
          cases isRunning
          obtain settles | onwards := owes
          · exact absurd careful (by simp [reliable what key settles])
          · exact .inr ⟨_,rfl,(onwards now).2 careful⟩
      | false =>
        cases step
        obtain ⟨call,rest⟩ := minds.1 scene.store careful
        refine before.update_slot rfl rfl ?_ ?_ ?_
        · rintro running ⟨⟩
          exact rest
        · intro key isSettled
          exact (call.keeps key isSettled).imp id fun owes => ⟨_,rfl,owes⟩
        · intro key running isRunning owes
          rw [runs] at isRunning
          cases isRunning
          obtain settles | onwards := owes
          · exact .inl (call.settles key settles)
          · exact .inr ⟨_,rfl,(onwards now).1 scene.store⟩

theorem settled_of_careful
    {labels : List (Label Request)} {final : Scene Store Call Answer Credential Result View}
    (initially : ∀ key, duties.Settled store key)
    (careful : Along (Scene.step service observer) (Scene.Careful duties)
      (Scene.initial observer store) labels)
    (reaches : run (Scene.step service observer) (Scene.initial observer store) labels = some final)
    (ended : ∀ slot, final.requests slot = none) (key : Key) : duties.Settled final.store key := by
  have atEnd : final.Accounted service observer duties := invariant_of_along
    (fun _ _ _ before carefulStep step => before.step minds reliable carefulStep step)
    ⟨fun _ _ runs => (by cases runs),fun key => .inl (initially key)⟩ careful reaches
  obtain isSettled | ⟨slot,running,runs,-⟩ := atEnd.accounted key
  · exact isSettled
  · rw [ended slot] at runs
    cases runs

end

end

end

end CallPrograms

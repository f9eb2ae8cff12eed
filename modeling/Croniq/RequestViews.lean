import Croniq.CallPrograms

/-!
# What requests know of the store

A request decides on its writes from the answers to its earlier calls, and these
may have been overtaken by the writes of other requests.
-/

namespace CallPrograms

open Function LabelledRuns

variable {Store Request Call : Type} {Answer : Call → Type} {Credential Result View : Type}

/-- The view of a request at first, and how an answer changes it. -/
structure Observer (Call : Type) (Answer : Call → Type) (View : Type) where
  initial : View
  observe : View → (what : Call) → Answer what → View

/-- Every call is granted to what the program has seen. -/
def Program.Respects (perform : Store → (what : Call) → Answer what × Store)
    (observer : Observer Call Answer View) (grants : View → Call → Prop) :
    View → Program Call Answer Credential Result → Prop
  | _, .done _ => True
  | view, .redeem _ rest => rest.Respects perform observer grants view
  | view, .call what next =>
    grants view what ∧
      ∀ now,
        (∀ store, (next now (some (perform store what).1)).Respects perform observer grants
          (observer.observe view what (perform store what).1)) ∧
        (next now none).Respects perform observer grants view

/-- The store, the requests in flight and their views. -/
structure Scene (Store Call : Type) (Answer : Call → Type) (Credential Result View : Type) where
  store : Store
  requests : Nat → Option (Program Call Answer Credential Result)
  views : Nat → View

def Scene.initial (observer : Observer Call Answer View) (store : Store) :
    Scene Store Call Answer Credential Result View where
  store
  requests := fun _ => none
  views := fun _ => observer.initial

section

variable (service : Service Store Request Call Answer Credential Result)
  (observer : Observer Call Answer View)

def Scene.step (scene : Scene Store Call Answer Credential Result View) :
    Label Request → Option (Scene Store Call Answer Credential Result View)
  | .start slot request =>
    match scene.requests slot with
    | some _ => none
    | none =>
      some { scene with
        requests := update scene.requests slot (some (service.handle request))
        views := update scene.views slot observer.initial }
  | .act slot now fails =>
    match scene.requests slot with
    | none => none
    | some (.done _) => some { scene with requests := update scene.requests slot none }
    | some (.redeem _ rest) =>
      some { scene with requests := update scene.requests slot (some rest) }
    | some (.call what next) =>
      if fails then
        some { scene with
          requests := update scene.requests slot (some (next now none)) }
      else
        let performed := service.perform scene.store what
        some
          { store := performed.2
            requests := update scene.requests slot
              (some (next now (some performed.1)))
            views := update scene.views slot
              (observer.observe (scene.views slot) what performed.1) }

/-- The call about to be performed meets the condition. -/
def Scene.Timely (condition : View → Store → Call → Prop)
    (scene : Scene Store Call Answer Credential Result View) : Label Request → Prop
  | .start _ _ => True
  | .act slot _ fails =>
    match scene.requests slot with
    | some (.call what _) => fails = false → condition (scene.views slot) scene.store what
    | _ => True

instance {condition : View → Store → Call → Prop}
    [∀ view store what,Decidable (condition view store what)]
    (scene : Scene Store Call Answer Credential Result View) :
    (label : Label Request) → Decidable (scene.Timely condition label)
  | .start _ _ => isTrue trivial
  | .act slot _ fails =>
    match running : scene.requests slot with
    | none => isTrue (by simp [Scene.Timely,running])
    | some (.done _) => isTrue (by simp [Scene.Timely,running])
    | some (.redeem _ _) => isTrue (by simp [Scene.Timely,running])
    | some (.call what _) =>
      decidable_of_iff (fails = false → condition (scene.views slot) scene.store what)
        (by simp [Scene.Timely,running])

/-- The requests in flight respect the policy, and the store keeps its
invariant. -/
structure Scene.Sound (grants : View → Call → Prop) (invariant : Store → Prop)
    (scene : Scene Store Call Answer Credential Result View) : Prop where
  respects : ∀ slot program, scene.requests slot = some program →
    program.Respects service.perform observer grants (scene.views slot)
  store : invariant scene.store

variable {service observer} {grants : View → Call → Prop} {invariant : Store → Prop}
  {condition : View → Store → Call → Prop}
variable {store : Store} {scene next : Scene Store Call Answer Credential Result View}

theorem Scene.sound_initial (initially : invariant store) :
    (Scene.initial observer store : Scene Store Call Answer Credential Result View).Sound
      service observer grants invariant where
  respects _ _ running := by cases running
  store := initially

theorem Scene.Sound.update_slot
    (sound : scene.Sound service observer grants invariant) {slot : Nat} {view : View}
    {program : Option (Program Call Answer Credential Result)}
    (requests : next.requests = update scene.requests slot program)
    (views : next.views = update scene.views slot view)
    (respects : ∀ running, program = some running →
      running.Respects service.perform observer grants view) (store : invariant next.store) :
    next.Sound service observer grants invariant where
  respects other running runs := by
    rw [requests] at runs
    rw [views]
    by_cases isSlot : other = slot
    · subst isSlot
      rw [update_self] at runs ⊢
      exact respects running runs
    · rw [update_of_ne isSlot] at runs ⊢
      exact sound.respects other running runs
  store := store

section

variable (respects : ∀ request, (service.handle request).Respects service.perform
    observer grants observer.initial)
  (keeps : ∀ {view store what}, grants view what → condition view store what →
    invariant store → invariant (service.perform store what).2)
include respects keeps

theorem Scene.Sound.step (sound : scene.Sound service observer grants invariant)
    {label : Label Request} (timely : scene.Timely condition label)
    (step : scene.step service observer label = some next) :
    next.Sound service observer grants invariant := by
  have sameView : ∀ slot, scene.views = update scene.views slot (scene.views slot) :=
    fun slot => (update_eq_self slot scene.views).symm
  cases label with
  | start slot request =>
    simp only [Scene.step] at step
    split at step
    · cases step
    cases step
    refine sound.update_slot rfl rfl ?_ sound.store
    rintro running ⟨⟩
    exact respects request
  | act slot now fails =>
    simp only [Scene.step] at step
    split at step
    · cases step
    · cases step
      exact sound.update_slot rfl (sameView slot) nofun sound.store
    · rename_i credential rest runs
      cases step
      refine sound.update_slot rfl (sameView slot) ?_ sound.store
      rintro running ⟨⟩
      exact sound.respects slot (.redeem credential rest) runs
    · rename_i what continuation runs
      obtain ⟨granted,goesOn⟩ := sound.respects slot _ runs
      simp only [Scene.Timely,runs] at timely
      cases fails with
      | true =>
        cases step
        refine sound.update_slot rfl (sameView slot) ?_ sound.store
        rintro running ⟨⟩
        exact (goesOn now).2
      | false =>
        cases step
        refine sound.update_slot rfl rfl ?_ (keeps granted (timely rfl) sound.store)
        rintro running ⟨⟩
        exact (goesOn now).1 scene.store

/-- Programs that respect the policy keep the invariant in every interleaving
whose calls meet the condition. -/
theorem invariant_of_timely {labels : List (Label Request)}
    {final : Scene Store Call Answer Credential Result View} (initially : invariant store)
    (timely : Along (Scene.step service observer) (Scene.Timely condition)
      (Scene.initial observer store) labels)
    (reaches : run (Scene.step service observer) (Scene.initial observer store) labels =
      some final) : invariant final.store := by
  exact (invariant_of_along
    (fun _ _ _ sound timelyStep step => sound.step respects keeps timelyStep step)
    (Scene.sound_initial initially) timely reaches).store

end

end

end CallPrograms

import Mathlib.Data.Int.Order.Basic
import Mathlib.Data.List.Induction
import Mathlib.Order.Bounds.Basic

/-!
# The maintenance switch

Since when maintenance has been on without a break, over the updates of the switch.
-/

namespace Croniq

open List

structure MaintenanceState where
  manualActive : Bool := false
  windowStart : Option Int := none
  windowEnd : Option Int := none
  updatedAt : Option Int := none
  activeSince : Option Int := none

namespace MaintenanceState

variable (state : MaintenanceState) (now : Int)

def hasWindow : Bool :=
  state.windowStart.isSome || state.windowEnd.isSome

def windowActive : Bool :=
  state.hasWindow && state.windowStart.all (· ≤ now) && state.windowEnd.all (now < ·)

def isActive : Bool :=
  state.manualActive || state.windowActive now

/-- The method `active_since`; the field of that name holds what the last update stored. -/
def activeSinceAt : Option Int :=
  if state.isActive now then (state.activeSince.or state.windowStart).or state.updatedAt
  else none

def nextActiveSince (previous : MaintenanceState) : Option Int :=
  if state.isActive now then (previous.activeSinceAt now).or (some now) else none

variable {state}

theorem isActive_iff : state.isActive now = true ↔ state.manualActive = true ∨
    state.hasWindow = true ∧ (∀ start, state.windowStart = some start → start ≤ now) ∧
      ∀ stop, state.windowEnd = some stop → now < stop := by
  rcases state with ⟨_,start,stop,_,_⟩
  cases start <;> cases stop <;> simp [isActive,windowActive,hasWindow]

variable {now}

theorem isActive_of_between {first last : Int} (atFirst : state.isActive first = true)
    (atLast : state.isActive last = true) (after : first ≤ now) (before : now ≤ last) :
    state.isActive now = true := by
  rw [isActive_iff] at *
  grind

theorem isActive_pred (off : state.isActive now = false) (goesOn : state.windowEnd ≠ some now) :
    state.isActive (now - 1) = false := by
  rw [← Bool.not_eq_true,isActive_iff] at *
  grind

theorem windowStart_of_opens {later : Int} (off : state.isActive now = false)
    (on : state.isActive later = true) (le : now ≤ later) :
    ∃ start, state.windowStart = some start ∧ now < start ∧ start ≤ later ∧
      state.isActive start = true ∧ state.isActive (start - 1) = false := by
  simp only [← Bool.not_eq_true,isActive_iff] at *
  grind

end MaintenanceState

open MaintenanceState

structure SetMaintenanceRequest where
  manualActive : Bool
  (windowStart windowEnd : Option Int)
  now : Int

def handleSetMaintenance (previous : MaintenanceState) (request : SetMaintenanceRequest) :
    MaintenanceState :=
  let newState : MaintenanceState :=
    { manualActive := request.manualActive
      windowStart := request.windowStart
      windowEnd := request.windowEnd
      updatedAt := some request.now }
  { newState with activeSince := newState.nextActiveSince request.now previous }

/-- The state in force is the one the last update wrote. -/
def inForce (requests : List SetMaintenanceRequest) (instant : Int) : MaintenanceState :=
  (requests.filter (·.now ≤ instant)).foldl handleSetMaintenance {}

/-- The instants since which maintenance was effective up to `now`. -/
def UnbrokenSince (requests : List SetMaintenanceRequest) (now : Int) : Set Int :=
  {start | start ≤ now ∧
    ∀ instant, start ≤ instant → instant ≤ now → (inForce requests instant).isActive instant = true}

variable {front requests : List SetMaintenanceRequest} {request : SetMaintenanceRequest}
  {now instant : Int}

theorem isLeast_of_break {start : Int} (since : start ∈ UnbrokenSince requests now)
    (off : (inForce requests (start - 1)).isActive (start - 1) = false) :
    IsLeast (UnbrokenSince requests now) start := by
  refine ⟨since,fun earlier unbroken => ?_⟩
  by_contra before
  have on := unbroken.2 (start - 1) (by omega) (by have := since.1; omega)
  simp [off] at on

theorem inForce_before (before : instant < request.now) :
    inForce (front ++ [request]) instant = inForce front instant := by
  simp [inForce,filter_append,before]

theorem inForce_of_done (done : ∀ earlier ∈ front, earlier.now ≤ instant) :
    inForce front instant = front.foldl handleSetMaintenance {} := by
  rw [inForce,filter_eq_self.2 (by simpa using done)]

theorem inForce_after (done : ∀ earlier ∈ front, earlier.now ≤ request.now)
    (after : request.now ≤ instant) :
    inForce (front ++ [request]) instant =
      handleSetMaintenance (inForce front request.now) request := by
  have allDone : ∀ earlier ∈ front ++ [request], earlier.now ≤ instant := by
    intro earlier member
    rcases mem_append.1 member with member | member
    · exact (done earlier member).trans after
    · rwa [mem_singleton.1 member]
  rw [inForce_of_done done,inForce_of_done allDone,foldl_append]
  rfl

theorem unbrokenSince_before (before : now < request.now) :
    UnbrokenSince (front ++ [request]) now = UnbrokenSince front now := by
  ext start
  refine and_congr_right fun _ => forall_congr' fun instant => ?_
  refine forall_congr' fun _ => forall_congr' fun upTo => ?_
  rw [inForce_before (upTo.trans_lt before)]

/-- An update that finds maintenance on and leaves it on does not end the stretch. -/
theorem isLeast_carried {since : Int}
    (isLeast : IsLeast (UnbrokenSince front request.now) since)
    (wasOn : (inForce front request.now).isActive request.now = true)
    (after : request.now ≤ now) (stays : ∀ instant, request.now ≤ instant → instant ≤ now →
      (inForce (front ++ [request]) instant).isActive instant = true) :
    IsLeast (UnbrokenSince (front ++ [request]) now) since := by
  obtain ⟨⟨le,unbroken⟩,least⟩ := isLeast
  refine ⟨⟨le.trans after,fun instant since upTo => ?_⟩,?_⟩
  · rcases lt_or_ge instant request.now with before | here
    · rw [inForce_before before]
      exact unbroken instant since before.le
    · exact stays instant here upTo
  · rintro start ⟨_,begins⟩
    rcases le_or_gt start request.now with early | late
    · refine least ⟨early,fun instant since upTo => ?_⟩
      rcases upTo.lt_or_eq with before | rfl
      · rw [← inForce_before before]
        exact begins instant since (upTo.trans after)
      · exact wasOn
    · exact le.trans late.le

/-- No update that finds maintenance off comes at the end of the window in force or at the instant
of an earlier one. -/
def SwitchedApart (requests : List SetMaintenanceRequest) : Prop :=
  ∀ front request, front ++ [request] <+: requests →
    (inForce front request.now).isActive request.now = false →
      (∀ earlier ∈ front, earlier.now < request.now) ∧
        (inForce front request.now).windowEnd ≠ some request.now

theorem exists_activeSince (ordered : requests.Pairwise (·.now ≤ ·.now))
    (apart : SwitchedApart requests) (now : Int) (on : (inForce requests now).isActive now = true) :
    ∃ since, (inForce requests now).activeSinceAt now = some since ∧
      IsLeast (UnbrokenSince requests now) since := by
  induction requests using reverseRecOn generalizing now with
  | nil => simp [inForce,isActive_iff,hasWindow] at on
  | append_singleton front request ih =>
    have done := fun earlier member =>
      (pairwise_append.1 ordered).2.2 earlier member request (mem_singleton_self _)
    have earlier := ih (pairwise_append.1 ordered).1
      fun first next isFront => apart first next (isFront.trans (prefix_append _ _))
    rcases lt_or_ge now request.now with before | after
    · rw [unbrokenSince_before before]
      rw [inForce_before before] at on ⊢
      exact earlier now on
    · rw [inForce_after done after] at on ⊢
      rw [activeSinceAt,if_pos on]
      set written := handleSetMaintenance (inForce front request.now) request
      have stored : written.activeSince =
        written.nextActiveSince request.now (inForce front request.now) := rfl
      have stays {start} (first : request.now ≤ start) (atStart : written.isActive start = true)
          (instant) (begins : start ≤ instant) (upTo : instant ≤ now) :
          (inForce (front ++ [request]) instant).isActive instant = true := by
        rw [inForce_after done (first.trans begins)]
        exact isActive_of_between atStart on begins upTo
      rw [stored,nextActiveSince]
      cases opened : written.isActive request.now with
      | false =>
        -- The update left maintenance off; its own window opened since.
        obtain ⟨start,isStart,later,upTo,isOpen,closed⟩ := windowStart_of_opens opened on after
        refine ⟨start,by simp [isStart],isLeast_of_break ⟨upTo,stays later.le isOpen⟩ ?_⟩
        rwa [inForce_after done (by omega)]
      | true =>
        cases wasOn : (inForce front request.now).isActive request.now with
        | false =>
          obtain ⟨strictly,notEnd⟩ := apart front request prefix_rfl wasOn
          refine ⟨request.now,?_,isLeast_of_break ⟨after,stays le_rfl opened⟩ ?_⟩
          · simp [activeSinceAt,wasOn]
          · rw [inForce_before (by omega),
              inForce_of_done fun earlier member => by have := strictly earlier member; omega,
              ← inForce_of_done done]
            exact isActive_pred wasOn notEnd
        | true =>
          obtain ⟨since,isSince,isLeast⟩ := earlier request.now wasOn
          refine ⟨since,?_,isLeast_carried isLeast wasOn after (stays le_rfl opened)⟩
          simp [isSince]

/-- Maintenance is measured from the start of the longest unbroken stretch up to now in which the
state in force was effective. -/
theorem activeSinceAt_exact (ordered : requests.Pairwise (·.now ≤ ·.now))
    (apart : SwitchedApart requests) (now : Int) :
    ((inForce requests now).activeSinceAt now).isSome = (inForce requests now).isActive now ∧
      ∀ since, (inForce requests now).activeSinceAt now = some since →
        IsLeast (UnbrokenSince requests now) since := by
  cases on : (inForce requests now).isActive now with
  | false => simp [activeSinceAt,on]
  | true =>
    obtain ⟨since,isSince,isLeast⟩ := exists_activeSince ordered apart now on
    simp [isSince,isLeast]

/-- A window closes at 2, the switch goes on at 3 and off at 5, inside the next window. -/
theorem activeSinceAt_switched_on_at_three : let requests :=
      [⟨false,some 0,some 2,1⟩,⟨true,none,none,3⟩,⟨false,some 4,some 9,5⟩]
    SwitchedApart requests ∧ (inForce requests 3).windowEnd = none ∧
      IsLeast (UnbrokenSince requests 7) 3 := by
  intro requests
  have apart : SwitchedApart requests := by
    intro front request isFront
    rcases front with _ | ⟨first,_ | ⟨second,_ | ⟨third,front⟩⟩⟩ <;> simp [requests] at isFront
    · obtain rfl := isFront
      decide
    · obtain ⟨rfl,rfl⟩ := isFront
      decide
    · obtain ⟨rfl,rfl,rfl⟩ := isFront
      decide
  exact ⟨apart,rfl,(activeSinceAt_exact (by simp [requests]) apart 7).2 3 (by decide)⟩

/-- Switched off and on at one instant: the clock restarts, though the state in force is effective
throughout. -/
theorem activeSinceAt_restarted :
    let requests := [⟨true,none,none,0⟩,⟨false,none,none,10⟩,⟨true,none,none,10⟩]
    requests.Pairwise (·.now ≤ ·.now) ∧ (∀ request ∈ requests, request.windowEnd = none) ∧
      (inForce requests 10).activeSinceAt 10 = some 10 ∧
      ¬ IsLeast (UnbrokenSince requests 10) 10 := by
  refine ⟨by simp,by simp,by decide,fun isLeast => ?_⟩
  have unbroken : (0 : Int) ∈ UnbrokenSince [⟨true,none,none,0⟩,⟨false,none,none,10⟩,
      ⟨true,none,none,10⟩] 10 := by
    refine ⟨by decide,fun instant begins upTo => ?_⟩
    rcases upTo.lt_or_eq with before | rfl
    · simp [inForce,before,begins,handleSetMaintenance,isActive]
    · decide
  simpa using isLeast.2 unbroken

end Croniq

import Croniq.PendingFireBounds
import Mathlib.Data.List.DropRight
import Mathlib.Tactic.Linarith
import Mathlib.Tactic.Ring

/-!
# The fires of a ticking trigger

A trigger is evaluated at every tick and marked when it fires.
-/

namespace Croniq

open List OpeningSearch Option

namespace Trigger

/-- Evaluate a trigger at each tick; a fire comes with its tick. -/
def tickRun (trigger : Trigger) : List Int → List (Int × Int) × Trigger
  | [] => ([], trigger)
  | tick :: ticks =>
    match trigger.evaluate tick with
    | none => trigger.tickRun ticks
    | some fireAt =>
      let later := (trigger.markFired fireAt tick).tickRun ticks
      ((fireAt, tick) :: later.1, later.2)

theorem tickRun_of_fire {trigger : Trigger} {tick fireAt : Int}
    (fires : trigger.evaluate tick = some fireAt) (ticks : List Int) :
    trigger.tickRun (tick :: ticks) =
      ((fireAt, tick) :: ((trigger.markFired fireAt tick).tickRun ticks).1,
        ((trigger.markFired fireAt tick).tickRun ticks).2) := by
  rw [tickRun,fires]

/-- An interval schedule without a calendar and a window, outside a replay. -/
structure Beats (trigger : Trigger) (seconds : Nat) : Prop where
  isInterval : trigger.schedule = .interval seconds
  noCalendar : trigger.calendar = none
  noWindow : trigger.window = none
  notReplaying : trigger.replayUntil = none

section

variable {trigger : Trigger} {seconds : Nat} (beats : trigger.Beats seconds)
include beats

theorem computeNextFire_of_beats (after : Int) :
    trigger.computeNextFire after = some (after + seconds * oneSecond) := by
  have allowed : trigger.gateAllows (after + seconds * oneSecond) = true := by
    simp [FireRule.gateAllows,FireRule.calendarAllows,FireRule.windowAllows,beats.noCalendar,
      beats.noWindow]
  rw [FireRule.computeNextFire,beats.isInterval]
  exact guardedJumps_of_allowed _ allowed

variable (fireAt now : Int)

theorem markFired_beats : (trigger.markFired fireAt now).Beats seconds where
  isInterval := beats.isInterval
  noCalendar := beats.noCalendar
  noWindow := beats.noWindow
  notReplaying := by simp [markFired,beats.notReplaying]

theorem markFired_nextFireAt_of_beats :
    (trigger.markFired fireAt now).nextFireAt =
      (some (trigger.advanceAnchor fireAt now + seconds * oneSecond)).filter
        fun next => !trigger.notAfter.any (· < next) := by
  simp only [markFired,beats.notReplaying,bind_none,isSome_none,
    Bool.false_eq_true,if_false,computeNextFire_of_beats beats]

theorem advanceAnchor_of_beats :
    trigger.advanceAnchor fireAt now =
      if fireAt ≤ now ∧ now - fireAt < seconds * oneSecond then fireAt else now := by
  rw [advanceAnchor,beats.isInterval]

/-- Each fire is made within its beat. -/
def InBeat (start beat : Int) (fires : List (Int × Int)) : Prop :=
  ∀ (index : Nat) (fireAt tick : Int), fires[index]? = some (fireAt, tick) →
    start + index * beat ≤ tick ∧ tick < start + (index + 1) * beat

def OnBeat (start beat : Int) (fires : List (Int × Int)) : Prop :=
  ∀ (index : Nat) (fireAt tick : Int), fires[index]? = some (fireAt, tick) →
    fireAt = start + index * beat

theorem fires_of_beats (ticks : List Int) {start : Int}
    (pending : ∀ next, trigger.nextFireAt = some next → next = start)
    (inBeat : InBeat start (seconds * oneSecond) (trigger.tickRun ticks).1) :
    OnBeat start (seconds * oneSecond) (trigger.tickRun ticks).1 ∧
      (trigger.notAfter = none → trigger.nextFireAt = some start →
        (trigger.tickRun ticks).2.nextFireAt =
          some (start + (trigger.tickRun ticks).1.length * (seconds * oneSecond))) := by
  induction ticks generalizing trigger start with
  | nil => exact ⟨by simp [tickRun,OnBeat],fun _ isStart => by simpa [tickRun] using isStart⟩
  | cons tick ticks ih =>
    cases fires : trigger.evaluate tick with
    | none =>
      simp only [tickRun,fires] at inBeat ⊢
      exact ih beats pending inBeat
    | some fireAt =>
      rw [tickRun_of_fire fires] at inBeat ⊢
      obtain ⟨-,-,-,isPending,come⟩ := evaluate_eq_some.mp fires
      obtain rfl : fireAt = start := pending fireAt isPending
      have inTime : tick - fireAt < seconds * oneSecond := by
        have := (inBeat 0 fireAt tick rfl).2
        push_cast at this
        linarith
      have isNext := markFired_nextFireAt_of_beats beats fireAt tick
      rw [advanceAnchor_of_beats beats,if_pos ⟨come,inTime⟩] at isNext
      have laterPending : ∀ next, (trigger.markFired fireAt tick).nextFireAt = some next →
          next = fireAt + seconds * oneSecond := by
        intro next found
        rw [isNext] at found
        exact (some.inj (filter_eq_some_iff.mp found).1).symm
      obtain ⟨laterFires,goesOn⟩ := ih (markFired_beats beats fireAt tick) laterPending (by
        intro index laterFire laterTick isLater
        have := inBeat (index + 1) laterFire laterTick (by simpa using isLater)
        push_cast at this
        constructor <;> linarith)
      constructor
      · intro index laterFire laterTick isLater
        cases index with
        | zero =>
          cases isLater
          simp
        | succ index =>
          rw [laterFires index laterFire laterTick (by simpa using isLater)]
          push_cast
          ring
      · intro unbounded _
        have isSome : (trigger.markFired fireAt tick).nextFireAt =
            some (fireAt + seconds * oneSecond) := by
          rw [isNext,unbounded]
          rfl
        rw [goesOn unbounded isSome,length_cons]
        push_cast
        ring_nf

end

/-- An interval outside a replay keeps its beat while fires are in time; one a beat late starts it
anew. -/
theorem interval_keeps_beat (trigger : Trigger) (seconds : Nat) (beats : trigger.Beats seconds)
    (start : Int) (pending : trigger.nextFireAt = some start) :
    (∀ ticks, InBeat start (seconds * oneSecond) (trigger.tickRun ticks).1 →
      OnBeat start (seconds * oneSecond) (trigger.tickRun ticks).1 ∧
        (trigger.notAfter = none → (trigger.tickRun ticks).2.nextFireAt =
          some (start + (trigger.tickRun ticks).1.length * (seconds * oneSecond)))) ∧
    ∀ fireAt tick, trigger.evaluate tick = some fireAt →
      fireAt + seconds * oneSecond ≤ tick →
      (trigger.markFired fireAt tick).nextFireAt =
        (some (tick + seconds * oneSecond)).filter
          fun next => !trigger.notAfter.any (· < next) := by
  constructor
  · intro ticks inBeat
    obtain ⟨onBeat,goesOn⟩ := fires_of_beats beats ticks
      (fun next isNext => some.inj (isNext.symm.trans pending)) inBeat
    exact ⟨onBeat,fun unbounded => goesOn unbounded pending⟩
  · intro fireAt tick _ late
    rw [markFired_nextFireAt_of_beats beats,advanceAnchor_of_beats beats,if_neg (by omega)]

def everyTenSeconds : Trigger :=
  { (plainSpec (.interval 10)).build 0 with missedFires := .all 5 }

theorem interval_keeps_beat_tenSeconds :
    (everyTenSeconds.tickRun [10300000000,12000000000,20900000000]).1.map Prod.snd =
        [10300000000,20900000000] ∧
      OnBeat 10000000000 10000000000
        (everyTenSeconds.tickRun [10300000000,12000000000,20900000000]).1 := by
  have fires : (everyTenSeconds.tickRun [10300000000,12000000000,20900000000]).1 =
      [(10000000000, 10300000000),(20000000000, 20900000000)] := by
    decide
  refine ⟨by rw [fires]; rfl,?_⟩
  refine ((interval_keeps_beat everyTenSeconds 10 ⟨rfl,rfl,rfl,rfl⟩ 10000000000 (by decide)).1
    _ ?_).1
  rw [fires]
  rintro (_ | _ | index) fireAt tick isFire <;> simp at isFire <;> obtain ⟨rfl,rfl⟩ := isFire <;>
    decide

/-- The fire that ends a replay is three seconds late, and so is the beat. -/
theorem replay_moves_beat :
    let planned := (everyTenSeconds.planMissedFires 13000000000).1
    planned.schedule = .interval 10 ∧ planned.calendar = none ∧ planned.window = none ∧
      planned.nextFireAt = some 10000000000 ∧
      InBeat 10000000000 10000000000 (planned.tickRun [13000000000,23000000000]).1 ∧
      (planned.tickRun [13000000000,23000000000]).1 =
        [(10000000000, 13000000000),(23000000000, 23000000000)] := by
  intro planned
  have fires : (planned.tickRun [13000000000,23000000000]).1 =
      [(10000000000, 13000000000),(23000000000, 23000000000)] := by
    decide
  refine ⟨rfl,rfl,rfl,by decide,?_,fires⟩
  rw [fires]
  rintro (_ | _ | index) fireAt tick isFire <;> simp at isFire <;> obtain ⟨rfl,rfl⟩ := isFire <;>
    decide

end Trigger

/-- Fires from a pending one on, each the next after the one before, up to the last that has come.
-/
inductive FireRule.MissedUpTo (rule : FireRule) (now : Int) : List Int → Prop
  | last {instant : Int} (come : instant ≤ now)
      (ended : (rule.computeNextFire instant).filter (· ≤ now) = none) :
      MissedUpTo rule now [instant]
  | more {instant next : Int} {rest : List Int} (come : instant ≤ now)
      (follows : rule.computeNextFire instant = some next)
      (later : MissedUpTo rule now (next :: rest)) :
      MissedUpTo rule now (instant :: next :: rest)

namespace FireRule

variable {rule : FireRule}

theorem MissedUpTo.drop {now : Int} {fires : List Int} (missed : rule.MissedUpTo now fires)
    {count : Nat} (some : count < fires.length) : rule.MissedUpTo now (fires.drop count) := by
  induction missed generalizing count with
  | last come ended =>
    obtain rfl : count = 0 := by simpa using some
    exact .last come ended
  | more come follows later ih =>
    cases count with
    | zero => exact .more come follows later
    | succ => exact ih (by simpa using some)

theorem lt_or_eq_computeNextFire (repeats : rule.timezone.RepeatsWithinDate) {after fire : Int}
    (next : rule.computeNextFire after = some fire) :
    after < fire ∨ rule.schedule = .interval 0 ∧ fire = after := by
  by_cases isZero : rule.schedule = .interval 0
  · have notBefore := le_computeNextFire_of_interval isZero next
    simp only [Nat.cast_zero,zero_mul,add_zero] at notBefore
    rcases notBefore.lt_or_eq with later | same
    · exact .inl later
    · exact .inr ⟨isZero,same.symm⟩
  · refine .inl (lt_computeNextFire ?_ repeats next)
    unfold Schedule.IntervalPositive
    split
    · rename_i seconds isInterval
      exact Nat.pos_of_ne_zero fun zero => isZero (zero ▸ isInterval)
    · trivial

theorem MissedUpTo.le_getLast (repeats : rule.timezone.RepeatsWithinDate) {now : Int}
    {fires : List Int} (missed : rule.MissedUpTo now fires) {first last : Int}
    (isFirst : fires.head? = some first) (isLast : fires.getLast? = some last) :
    first ≤ last ∧ last ≤ now := by
  induction missed generalizing first with
  | last come =>
    cases isFirst
    cases isLast
    exact ⟨le_rfl,come⟩
  | more come follows later ih =>
    cases isFirst
    obtain ⟨notLater,lastCome⟩ := ih rfl (by simpa using isLast)
    refine ⟨le_trans ?_ notLater,lastCome⟩
    rcases lt_or_eq_computeNextFire repeats follows with before | ⟨-,same⟩
    · exact before.le
    · exact same.ge

end FireRule

theorem rtake_rtake_append (count : Nat) (front back : List Int) :
    ((front.rtake count) ++ back).rtake count = (front ++ back).rtake count := by
  simp only [rtake,length_append,length_drop,drop_append,drop_drop]
  rcases Nat.le_total front.length count with short | long
  · simp [Nat.sub_eq_zero_of_le short]
  · congr 2 <;> omega

namespace Trigger

theorem missedWalk_eq {trigger : Trigger} {now instant : Int} {max remaining total : Nat}
    {kept rest : List Int} (missed : trigger.MissedUpTo now (instant :: rest))
    (enough : rest.length ≤ remaining) (keepsSome : 0 < max) (within : kept.length ≤ max) :
    trigger.missedWalk now max remaining kept instant total =
      some ((kept ++ rest).rtake max, total + rest.length) := by
  induction rest generalizing instant remaining kept total with
  | nil =>
    cases missed with
    | last come ended =>
      unfold missedWalk
      rw [ended,append_nil,rtake,Nat.sub_eq_zero_of_le within]
      rfl
  | cons next rest ih =>
    cases missed with
    | more come follows later =>
      obtain ⟨remaining,rfl⟩ : ∃ fewer, remaining = fewer + 1 :=
        ⟨remaining - 1,by simp at enough; omega⟩
      have nextCome : next ≤ now := by cases later <;> assumption
      have trimmed : (if kept.length = max then kept.tail else kept) ++ [next] =
          (kept ++ [next]).rtake max := by
        rw [rtake,length_append,length_singleton]
        split
        · rename_i full
          rw [full,Nat.add_sub_cancel_left,drop_append_of_le_length (by omega),drop_one]
        · rw [Nat.sub_eq_zero_of_le (by omega),drop_zero]
      unfold missedWalk
      simp only [follows,filter_some,decide_eq_true_eq,nextCome,if_true]
      rw [trimmed,ih later (by simpa using enough) (by simp [rtake]; omega),
        rtake_rtake_append,append_assoc,singleton_append,length_cons,
        Nat.add_right_comm,Nat.add_assoc]

structure Replaying (trigger : Trigger) (now : Int) (left : List Int) : Prop where
  armed : trigger.state = .armed
  notBefore : trigger.notBefore = none
  notAfter : trigger.notAfter = none
  missed : trigger.MissedUpTo now left
  pending : trigger.nextFireAt = left.head?
  until_eq : trigger.replayUntil = left.getLast?

section

variable {trigger : Trigger} (repeats : trigger.timezone.RepeatsWithinDate) {now : Int}
  (tick : Int) {fireAt : Int} {left : List Int}

theorem Replaying.evaluate
    (replaying : trigger.Replaying now (fireAt :: left)) (come : now ≤ tick) :
    trigger.evaluate tick = some fireAt := by
  have fireCome : fireAt ≤ now := by cases replaying.missed <;> assumption
  exact evaluate_eq_some.mpr ⟨replaying.armed,by simp [replaying.notBefore],
    by simp [replaying.notAfter],replaying.pending,by omega⟩

include repeats in
theorem Replaying.markFired {next : Int}
    (replaying : trigger.Replaying now (fireAt :: next :: left)) :
    (trigger.markFired fireAt tick).Replaying now (next :: left) := by
  have unbounded := replaying.notAfter
  cases replaying.missed with
  | more fireCome follows later =>
    obtain ⟨last,isLast⟩ : ∃ last, (next :: left).getLast? = some last :=
      ⟨_,getLast?_eq_some_getLast (by simp)⟩
    have isUntil : trigger.replayUntil = some last := by
      rw [replaying.until_eq,getLast?_cons_cons,isLast]
    have replayed : (trigger.computeNextFire fireAt).filter (· ≤ last) = some next := by
      rw [follows,filter_some,if_pos (decide_eq_true (later.le_getLast repeats rfl isLast).1)]
    exact
      { armed := by simp [Trigger.markFired,isUntil,replayed,unbounded]
        notBefore := replaying.notBefore
        notAfter := unbounded
        missed := later
        pending := by simp [Trigger.markFired,isUntil,replayed,unbounded]
        until_eq := by simp [Trigger.markFired,isUntil,replayed,isLast] }

theorem Replaying.markFired_last (replaying : trigger.Replaying now [fireAt]) :
    (trigger.markFired fireAt tick).replayUntil = none ∧
      (trigger.markFired fireAt tick).nextFireAt = trigger.computeNextFire tick := by
  have isUntil : trigger.replayUntil = some fireAt := replaying.until_eq
  cases replaying.missed with
  | last fireCome ended =>
    have noneLeft : (trigger.computeNextFire fireAt).filter (· ≤ fireAt) = none := by
      rw [filter_eq_none_iff] at ended ⊢
      intro next follows
      have := ended next follows
      simp only [decide_eq_true_eq] at this ⊢
      omega
    refine ⟨by simp [Trigger.markFired,isUntil,noneLeft],?_⟩
    simp only [Trigger.markFired,isUntil,bind_some,noneLeft,replaying.notAfter,isSome_some,if_true]
    cases trigger.computeNextFire tick <;> rfl

end

theorem Replaying.tickRun {trigger : Trigger} (repeats : trigger.timezone.RepeatsWithinDate)
    {now : Int} {left ticks : List Int} (replaying : trigger.Replaying now left)
    (come : ∀ tick ∈ ticks, now ≤ tick) (fits : ticks.length ≤ left.length) :
    (trigger.tickRun ticks).1 = left.zip ticks ∧
      ((trigger.tickRun ticks).2.replayUntil = none ↔ ticks.length = left.length) ∧
      (ticks.length = left.length → (trigger.tickRun ticks).2.nextFireAt =
        ticks.getLast?.bind trigger.computeNextFire) := by
  induction ticks generalizing trigger left with
  | nil =>
    have nonempty : left ≠ [] := by
      rintro rfl
      cases replaying.missed
    obtain ⟨fireAt,rest,rfl⟩ := exists_cons_of_ne_nil nonempty
    have isUntil := replaying.until_eq
    simp [Trigger.tickRun,isUntil]
  | cons tick ticks ih =>
    obtain ⟨fireAt,rest,rfl⟩ : ∃ fireAt rest, left = fireAt :: rest :=
      exists_cons_of_length_pos (by simp at fits; omega)
    have tickCome := come tick mem_cons_self
    rw [tickRun_of_fire (replaying.evaluate tick tickCome)]
    cases rest with
    | nil =>
      obtain rfl : ticks = [] := by simpa using fits
      obtain ⟨ended,isNext⟩ := replaying.markFired_last tick
      simp [Trigger.tickRun,ended,isNext]
    | cons =>
      obtain ⟨fires,ends,isNext⟩ := ih
        (show (trigger.markFired fireAt tick).timezone.RepeatsWithinDate from repeats)
        (replaying.markFired repeats tick) (fun other isOther => come other (by simp [isOther]))
        (by simpa using fits)
      refine ⟨by rw [fires]; rfl,by simpa using ends,fun full => ?_⟩
      rw [isNext (by simpa using full)]
      cases ticks with
      | nil => simp at full
      | cons => simp [FireRule.computeNextFire,Trigger.markFired]

end Trigger

end Croniq

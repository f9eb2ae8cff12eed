import Croniq.GatedFireExactness

/-!
# When an unchanged schedule keeps its pending fire

A restart or a reload builds each trigger afresh and hands it the pending fire
of its predecessor.
-/

namespace Croniq

open OpeningSearch Option Schedule

/-- An interval may fire at any instant from a full beat on, as it waits for the gates. -/
def Schedule.DueAfter (schedule : Schedule) (tz : Tz) (after fire : Int) : Prop :=
  match schedule with
  | .interval seconds => after + seconds * oneSecond ≤ fire
  | .once instant => fire = instant ∧ after < fire
  | _ => schedule.Occurs tz fire ∧ after < fire

variable {schedule : Schedule} {tz : Tz} {after fire : Int}

theorem Schedule.dueAfter_of_wallClock (wallClock : schedule.WallClock) :
    schedule.DueAfter tz after fire ↔ schedule.Occurs tz fire ∧ after < fire := by
  cases schedule with
  | daily _ | weekdays _ _ | monthly _ _ => exact Iff.rfl
  | interval _ | once _ | disabled => exact wallClock.elim

theorem Schedule.DueAfter.mono {start : Int}
    (notLater : start ≤ after) (due : schedule.DueAfter tz after fire) :
    schedule.DueAfter tz start fire := by
  cases schedule with
  | interval seconds => exact le_trans (by omega) due
  | daily _ | weekdays _ _ | monthly _ _ | once _ | disabled =>
    exact ⟨due.1,lt_of_le_of_lt notLater due.2⟩

namespace FireRule

/-- A fire that the schedule and the gates allow. -/
def MayFire (rule : FireRule) (after fire : Int) : Prop :=
  rule.schedule.DueAfter rule.timezone after fire ∧ rule.gateAllows fire = true

section

variable {rule : FireRule} (orderly : rule.timezone.Orderly)
include orderly

theorem occurs_of_guardedJumps (wallClock : rule.schedule.WallClock) {after first fire : Int}
    (started : rule.schedule.nextFireAfter after rule.timezone = some first)
    (found : guardedJumps rule.gateAllows rule.jumpOverClosedGate maxGateJumps first = some fire) :
    rule.schedule.Occurs rule.timezone fire := by
  refine (outcome_of_guardedJumps found _
    (isLeast_nextFireAfter orderly wallClock started).1.1 ?_).2
  intro candidate next _ _ jumped
  obtain ⟨opening,-,ticked⟩ := bind_eq_some_iff.mp jumped
  rw [candidateFrom_of_wallClock wallClock] at ticked
  exact (isLeast_nextFireAfter orderly wallClock ticked).1.1

theorem mayFire_of_computeNextFire {after fire : Int}
    (next : rule.computeNextFire after = some fire) : rule.MayFire after fire := by
  obtain ⟨first,started,found⟩ := bind_eq_some_iff.mp next
  refine ⟨?_,(outcome_of_guardedJumps found (fun _ => True) trivial (by simp)).1⟩
  have wallClockCase (wallClock : rule.schedule.WallClock)
      (positive : rule.schedule.IntervalPositive) :
      rule.schedule.DueAfter rule.timezone after fire :=
    (dueAfter_of_wallClock wallClock).mpr
      ⟨occurs_of_guardedJumps orderly wallClock started found,
        lt_computeNextFire positive orderly.repeats next⟩
  cases kind : rule.schedule with
  | interval => exact le_computeNextFire_of_interval kind next
  | daily _ | weekdays _ _ | monthly _ _ =>
    rw [kind] at wallClockCase
    exact wallClockCase trivial trivial
  | once instant =>
    -- the only candidate of a single run, before and after every jump
    rw [kind,nextFireAfter,ite_none_right_eq_some] at started
    obtain ⟨later,same⟩ := started
    have onlyCandidate : instant = fire := by
      refine (outcome_of_guardedJumps found _ (some.inj same) ?_).2
      intro candidate next _ _ jumped
      obtain ⟨opening,-,ticked⟩ := bind_eq_some_iff.mp jumped
      rw [candidateFrom,kind] at ticked
      exact some.inj (ite_none_right_eq_some.mp ticked).2
    exact ⟨onlyCandidate.symm,onlyCandidate ▸ later⟩
  | disabled =>
    rw [kind] at started
    cases started

theorem exists_computeNextFire_eq {start fire : Int} (mayFire : rule.MayFire start fire) :
    ∃ now, start ≤ now ∧ rule.computeNextFire now = some fire := by
  obtain ⟨due,allowed⟩ := mayFire
  have found (now : Int) (ticked : rule.schedule.nextFireAfter now rule.timezone = some fire) :
      rule.computeNextFire now = some fire := by
    rw [computeNextFire,ticked,bind_some]
    exact guardedJumps_of_allowed _ allowed
  have wallClockCase (wallClock : rule.schedule.WallClock) :
      ∃ now, start ≤ now ∧ rule.computeNextFire now = some fire := by
    obtain ⟨occurs,later⟩ := (dueAfter_of_wallClock wallClock).mp due
    obtain ⟨_,_,occursOn,_⟩ := id occurs
    obtain ⟨next,ticked⟩ := ne_none_iff_exists'.mp
      (nextFireAfter_ne_none orderly occursOn (fire - 1))
    obtain ⟨⟨-,nextLater⟩,least⟩ := isLeast_nextFireAfter orderly wallClock ticked
    have nextLe : next ≤ fire := least ⟨occurs,by omega⟩
    obtain rfl : next = fire := by omega
    exact ⟨next - 1,by omega,found _ ticked⟩
  cases kind : rule.schedule with
  | interval seconds =>
    rw [kind] at due found
    refine ⟨fire - seconds * oneSecond,by simp only [Schedule.DueAfter] at due; omega,?_⟩
    exact found _ (by rw [nextFireAfter,Int.sub_add_cancel])
  | daily _ | weekdays _ _ | monthly _ _ =>
    rw [kind] at wallClockCase
    exact wallClockCase trivial
  | once instant =>
    rw [kind] at due found
    obtain ⟨rfl,later⟩ := due
    exact ⟨fire - 1,by omega,found _ (if_pos (by omega))⟩
  | disabled =>
    rw [kind] at due
    obtain ⟨⟨_,_,onDate,_⟩,-⟩ := due
    exact onDate.elim

end

end FireRule

namespace Trigger

theorem adopted_iff (trigger : Trigger) {stored : Int} (now : Int)
    (enabled : trigger.schedule ≠ .disabled) (allowed : trigger.gateAllows stored = true) :
    (trigger.carryOverPendingFire stored now).2 = .adopted ∧
        (trigger.carryOverPendingFire stored now).1.nextFireAt = some stored ↔
      ∀ fresh, trigger.computeNextFire now = some fresh → stored ≤ fresh := by
  have notEarlier : (∀ fresh, trigger.computeNextFire now = some fresh → stored ≤ fresh) ↔
      (trigger.computeNextFire now).filter (· < stored) = none := by
    simp
  rw [notEarlier,carryOverPendingFire,if_neg enabled,if_neg (by simp [allowed])]
  cases found : (trigger.computeNextFire now).filter (· < stored) with
  | none => simp
  | some => simp

/-- An interval trigger open from ten to twenty past two. -/
def windowTrigger (now : Int) : Trigger :=
  withBounds "reports:sync" (.interval 60) autumnZone none
    (some ⟨.fromHm 2 10,.fromHm 2 20⟩) none none now

end Trigger

end Croniq

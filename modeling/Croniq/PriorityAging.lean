import Croniq.WorkQueue

/-!
# How waiting makes up for priority

Each level of priority is meant as a head start of five minutes, and a day of
waiting as more than any level.
-/

namespace Croniq

open List

def WorkItem.waited (item : WorkItem) (now : Int) : Int :=
  max (now - item.fireAt) 0

def agingStep : Int := 300 * 1000000000

def agingDay : Int := 24 * 3600 * 1000000000

theorem WorkItem.effectivePriority_eq (item : WorkItem) (now : Int) :
    (item.effectivePriority now : Int) =
      item.basePriority + min (item.waited now / agingStep) 288 := by
  have seconds : max (numSeconds (now - item.fireAt)) 0 = item.waited now / 1000000000 := by
    simp only [numSeconds,WorkItem.waited]
    rcases Int.le_total 0 (now - item.fireAt) with started | ahead
    · rw [Int.tdiv_eq_ediv_of_nonneg started]
      omega
    have notNegative : 0 ≤ (-(now - item.fireAt)).tdiv 1000000000 :=
      Int.tdiv_nonneg (by omega) (by decide)
    rw [Int.neg_tdiv] at notNegative
    omega
  simp only [WorkItem.effectivePriority,seconds,WorkItem.priorityAgingStepSecs,
    WorkItem.maxPriorityAgingSteps,agingStep]
  omega

namespace WorkQueue

/-- When both items may be taken, the second is not taken while the first is queued. -/
def Prefers (queue : WorkQueue) (now : Int) (first second : WorkItem) : Prop :=
  ∀ capabilities eligible, dispatchable capabilities eligible first = true →
    dispatchable capabilities eligible second = true →
      ∀ rest, queue.dequeueForWhereAt now capabilities eligible ≠ some (second, rest)

section

variable {queue : WorkQueue} {first second : WorkItem} (unique : queue.items.Nodup)
  (isFirst : first ∈ queue.items) (isSecond : second ∈ queue.items) (differ : first ≠ second)
include unique isFirst isSecond differ

omit isFirst in
theorem idxOf_lt_iff {before after : List WorkItem}
    (isItems : queue.items = before ++ first :: after) :
    queue.items.idxOf first < queue.items.idxOf second ↔ second ∈ after := by
  rw [isItems] at unique isSecond ⊢
  obtain ⟨-,-,apart⟩ := nodup_append.mp unique
  have notBefore : first ∉ before := fun isBefore => apart first isBefore first mem_cons_self rfl
  rw [idxOf_append_of_notMem notBefore,idxOf_cons_self,Nat.add_zero]
  by_cases isBefore : second ∈ before
  · rw [idxOf_append_of_mem isBefore]
    have inside := idxOf_lt_length_of_mem isBefore
    refine iff_of_false (by omega) fun isAfter => ?_
    exact apart second isBefore second (mem_cons_of_mem _ isAfter) rfl
  · rw [idxOf_append_of_notMem isBefore,idxOf_cons_ne _ differ]
    refine iff_of_true (by omega) ?_
    simpa [isBefore,differ.symm] using isSecond

theorem prefers_iff (now : Int) :
    queue.Prefers now first second ↔
      second.effectivePriority now < first.effectivePriority now ∨
        (second.effectivePriority now = first.effectivePriority now ∧
          queue.items.idxOf first < queue.items.idxOf second) := by
  constructor
  · intro prefers
    -- a runner that can execute both, and a caller that accepts nothing else
    let capabilities := first.require ++ second.require
    let eligible := fun item : WorkItem => decide (item = first ∨ item = second)
    have firstAllowed : dispatchable capabilities eligible first = true := by
      simp +contextual [dispatchable,capabilities,eligible]
    have secondAllowed : dispatchable capabilities eligible second = true := by
      simp +contextual [dispatchable,capabilities,eligible]
    rcases dequeueForWhereAt_cases queue now capabilities eligible with
      ⟨noneAllowed,-⟩ | ⟨before,taken,after,isItems,leads,takes⟩
    · rw [noneAllowed first isFirst] at firstAllowed
      cases firstAllowed
    have isPair : taken = first ∨ taken = second := by
      have accepted := leads.isAllowed
      simp only [dispatchable,Bool.and_eq_true,eligible,decide_eq_true_eq] at accepted
      exact accepted.2
    obtain rfl : taken = first :=
      isPair.resolve_right fun isSecond =>
        prefers capabilities eligible firstAllowed secondAllowed _ (isSecond ▸ takes)
    rw [idxOf_lt_iff unique isSecond differ isItems]
    have placed : second ∈ before ∨ second ∈ after := by simpa [isItems,differ.symm] using isSecond
    rcases placed with isBefore | isAfter
    · exact .inl (leads.below second isBefore secondAllowed)
    · rcases Nat.lt_or_eq_of_le (leads.notAbove second isAfter secondAllowed) with below | same
      · exact .inl below
      · exact .inr ⟨same,isAfter⟩
  · intro ahead capabilities eligible firstAllowed secondAllowed rest takes
    rcases dequeueForWhereAt_cases queue now capabilities eligible with
      ⟨-,refuses⟩ | ⟨before,taken,after,isItems,leads,isTaken⟩
    · rw [refuses] at takes
      cases takes
    rw [isTaken] at takes
    cases takes
    have placed : first ∈ before ∨ first ∈ after := by simpa [isItems,differ] using isFirst
    have order := idxOf_lt_iff unique isFirst differ.symm isItems
    rcases placed with isBefore | isAfter
    · have below := leads.below first isBefore firstAllowed
      omega
    · have notAbove := leads.notAbove first isAfter firstAllowed
      have behind := order.mpr isAfter
      omega

/-- A level of priority is a head start of one step, and who has waited a day goes first. -/
def AgingLaw (queue : WorkQueue) (now : Int) (first second : WorkItem) : Prop :=
  (second.basePriority < first.basePriority →
    second.waited now <
      first.waited now + (first.basePriority - second.basePriority : Int) * agingStep →
    queue.Prefers now first second) ∧
  (agingDay ≤ first.waited now → second.waited now < agingDay → queue.Prefers now first second)

/-- Kept unless the items meet at one rank and the wrong one stands ahead, or an item within a
step of a day is two levels above. -/
theorem aging_law_iff (now : Int) :
    queue.AgingLaw now first second ↔
      (second.basePriority < first.basePriority →
        second.waited now <
          first.waited now + (first.basePriority - second.basePriority : Int) * agingStep →
        queue.items.idxOf first < queue.items.idxOf second ∨
          second.waited now / agingStep <
            first.waited now / agingStep + (first.basePriority - second.basePriority) ∨
          288 < first.waited now / agingStep + (first.basePriority - second.basePriority)) ∧
      (agingDay ≤ first.waited now → second.waited now < agingDay →
        second.waited now <
            agingDay - (second.basePriority - first.basePriority - 1 : Int) * agingStep ∧
          (queue.items.idxOf first < queue.items.idxOf second ∨
            second.waited now <
              agingDay - (second.basePriority - first.basePriority : Int) * agingStep)) := by
  have firstRank := first.effectivePriority_eq now
  have secondRank := second.effectivePriority_eq now
  rw [AgingLaw,prefers_iff unique isFirst isSecond differ]
  simp only [agingStep,agingDay] at *
  refine and_congr ?_ ?_
  · refine imp_congr_right fun lower => imp_congr_right fun later => ?_
    omega
  · refine imp_congr_right fun aDay => imp_congr_right fun less => ?_
    omega

end

def waitingItem (id : Nat) (priority : String) (fireAt : Int) : WorkItem where
  executionId := .uuid id
  jobKey := priority
  fireAt := fireAt
  require := []
  metadata := [("__priority", .text priority)]
  isEphemeral := false

/-- A low item of five minutes and a second goes before a normal one of two seconds less, and a high
item just short of a day before a low one of a day. -/
theorem aging_law_broken :
    let now := agingDay
    let low := waitingItem 1 "low" (now - 301 * 1000000000)
    let normal := waitingItem 2 "normal" (now - 299 * 1000000000)
    let aged := waitingItem 3 "low" 0
    let high := waitingItem 4 "high" 1000000000
    ((⟨[low,normal],fun _ => none⟩ : WorkQueue).dequeueForWhereAt now [] fun _ => true).map
        Prod.fst = some low ∧
      low.basePriority < normal.basePriority ∧
      low.waited now < normal.waited now + agingStep ∧
      ((⟨[aged,high],fun _ => none⟩ : WorkQueue).dequeueForWhereAt now [] fun _ => true).map
        Prod.fst = some high ∧
      agingDay ≤ aged.waited now ∧ high.waited now < agingDay := by
  decide +kernel

theorem aging_law_fresh_items :
    let low := waitingItem 1 "low" 0
    let high := waitingItem 2 "high" 0
    (⟨[low,high],fun _ => none⟩ : WorkQueue).AgingLaw 1000000000 high low := by
  intro low high
  refine (aging_law_iff ?_ ?_ ?_ ?_ 1000000000).mpr ?_ <;> decide +kernel

end WorkQueue

end Croniq

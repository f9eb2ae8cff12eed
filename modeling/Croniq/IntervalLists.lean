import Mathlib.Data.List.Basic
import Mathlib.Order.Bounds.Basic
import Mathlib.Order.MinMax

/-!
# Ordered lists of half-open intervals

A set of naturals is represented by a list of intervals `[start, stop)` that are
nonempty, disjoint and in increasing order.
-/

namespace IntervalLists

open List

def Covers (set : List (Nat × Nat)) (point : Nat) : Prop :=
  ∃ interval ∈ set, interval.1 ≤ point ∧ point < interval.2

/-- Every interval is nonempty and ends before the next one starts. -/
structure Ordered (set : List (Nat × Nat)) : Prop where
  nonempty : ∀ interval ∈ set, interval.1 < interval.2
  separated : set.Pairwise fun earlier later => earlier.2 ≤ later.1

/-- The points covered by a list lie below the limit. -/
def Within (limit : Nat) (set : List (Nat × Nat)) : Prop :=
  ∀ interval ∈ set, interval.2 ≤ limit

@[simp]
theorem not_covers_nil (point : Nat) : ¬Covers [] point := by
  simp [Covers]

variable {interval : Nat × Nat} {set first second : List (Nat × Nat)}
  {point limit cursor lower : Nat}

@[simp]
theorem covers_cons :
    Covers (interval :: set) point ↔
      (interval.1 ≤ point ∧ point < interval.2) ∨ Covers set point := by
  simp [Covers]

theorem ordered_nil : Ordered [] :=
  ⟨by simp,.nil⟩

theorem ordered_cons :
    Ordered (interval :: set) ↔
      interval.1 < interval.2 ∧ (∀ later ∈ set, interval.2 ≤ later.1) ∧ Ordered set := by
  constructor
  · rintro ⟨nonempty,separated⟩
    obtain ⟨headBefore,tailSeparated⟩ := pairwise_cons.mp separated
    exact ⟨nonempty _ mem_cons_self,headBefore,
      fun later member => nonempty later (mem_cons_of_mem _ member),tailSeparated⟩
  · rintro ⟨headNonempty,headBefore,nonempty,separated⟩
    refine ⟨?_,pairwise_cons.mpr ⟨headBefore,separated⟩⟩
    exact forall_mem_cons.mpr ⟨headNonempty,nonempty⟩

theorem le_of_covers_of_forall_le {bound : Nat} (above : ∀ later ∈ set, bound ≤ later.1)
    (covered : Covers set point) : bound ≤ point := by
  obtain ⟨interval,member,started,-⟩ := covered
  exact le_trans (above interval member) started

theorem within_of_covers_subset (ordered : Ordered second) (within : Within limit first)
    (subset : ∀ point, Covers second point → Covers first point) : Within limit second := by
  intro interval member
  have nonempty := ordered.nonempty interval member
  have lastCovered : Covers second (interval.2 - 1) := ⟨interval,member,by omega,by omega⟩
  obtain ⟨outer,outerMember,-,lastLt⟩ := subset _ lastCovered
  have := within outer outerMember
  omega

section Leading

/-! An interval put before a list unless it is empty. -/

variable {start stop : Nat}

theorem covers_leading : Covers (if start < stop then (start, stop) :: set else set) point ↔
      (start ≤ point ∧ point < stop) ∨ Covers set point := by
  split
  · exact covers_cons
  · rename_i empty
    exact (or_iff_right fun ⟨lower,upper⟩ => empty (lt_of_le_of_lt lower upper)).symm

theorem ordered_leading (ordered : Ordered set) (before : ∀ later ∈ set, stop ≤ later.1) :
    Ordered (if start < stop then (start, stop) :: set else set) := by
  split
  · exact ordered_cons.mpr ⟨‹_›,before,ordered⟩
  · exact ordered

theorem le_start_of_mem_leading {bound : Nat} (above : bound ≤ start)
    (rest : ∀ interval ∈ set, bound ≤ interval.1) :
    ∀ interval ∈ (if start < stop then (start, stop) :: set else set), bound ≤ interval.1 := by
  split
  · exact forall_mem_cons.mpr ⟨above,rest⟩
  · exact rest

end Leading

/-- Advance past whichever ends first, `head` or the first of the other list. -/
def intersectHead (head : Nat × Nat) (intersectTail : List (Nat × Nat) → List (Nat × Nat)) :
    List (Nat × Nat) → List (Nat × Nat)
  | [] => []
  | other :: others =>
    let rest :=
      if head.2 ≤ other.2 then intersectTail (other :: others)
      else intersectHead head intersectTail others
    if max head.1 other.1 < min head.2 other.2 then
      (max head.1 other.1, min head.2 other.2) :: rest
    else rest

def intersect : List (Nat × Nat) → List (Nat × Nat) → List (Nat × Nat)
  | [], _ => []
  | head :: tail, others => intersectHead head (intersect tail) others

theorem le_start_of_mem_intersect {bound : Nat} (above : (∀ interval ∈ first, bound ≤ interval.1) ∨
      (∀ interval ∈ second, bound ≤ interval.1)) :
    ∀ interval ∈ intersect first second, bound ≤ interval.1 := by
  induction first generalizing second with
  | nil => simp [intersect]
  | cons head tail tailIh =>
    induction second with
    | nil => simp [intersect,intersectHead]
    | cons other others othersIh =>
      have headAbove : bound ≤ max head.1 other.1 :=
        le_max_iff.mpr (above.imp (· head mem_cons_self) (· other mem_cons_self))
      refine le_start_of_mem_leading headAbove ?_
      split
      · exact tailIh (above.imp_left forall_mem_of_forall_mem_cons)
      · exact othersIh (above.imp_right forall_mem_of_forall_mem_cons)

theorem ordered_intersect (firstOrdered : Ordered first) (secondOrdered : Ordered second) :
    Ordered (intersect first second) := by
  induction first generalizing second with
  | nil => exact ordered_nil
  | cons head tail tailIh =>
    obtain ⟨headNonempty,headBefore,tailOrdered⟩ := ordered_cons.mp firstOrdered
    induction second with
    | nil => exact ordered_nil
    | cons other others othersIh =>
      obtain ⟨otherNonempty,otherBefore,othersOrdered⟩ := ordered_cons.mp secondOrdered
      refine ordered_leading ?_ ?_
      · split
        · exact tailIh tailOrdered secondOrdered
        · exact othersIh othersOrdered
      · split
        · rename_i headFirst
          rw [min_eq_left headFirst]
          exact le_start_of_mem_intersect (.inl headBefore)
        · rename_i otherFirst
          rw [min_eq_right (le_of_lt (not_le.mp otherFirst))]
          change ∀ later ∈ intersect (head :: tail) others, _
          exact le_start_of_mem_intersect (.inr otherBefore)

theorem covers_intersect (firstOrdered : Ordered first) (secondOrdered : Ordered second) :
    Covers (intersect first second) point ↔ Covers first point ∧ Covers second point := by
  induction first generalizing second with
  | nil => simp [intersect]
  | cons head tail tailIh =>
    obtain ⟨headNonempty,headBefore,tailOrdered⟩ := ordered_cons.mp firstOrdered
    induction second with
    | nil => simp [intersect,intersectHead]
    | cons other others othersIh =>
      obtain ⟨otherNonempty,otherBefore,othersOrdered⟩ := ordered_cons.mp secondOrdered
      have tailAbove : Covers tail point → head.2 ≤ point := le_of_covers_of_forall_le headBefore
      have othersAbove : Covers others point → other.2 ≤ point :=
        le_of_covers_of_forall_le otherBefore
      refine covers_leading.trans ?_
      split
      · simp only [tailIh tailOrdered secondOrdered,covers_cons,max_le_iff,lt_min_iff]
        clear tailIh othersIh
        grind
      · have rest : Covers (intersectHead head (intersect tail) others) point ↔ _ :=
          othersIh othersOrdered
        simp only [rest,covers_cons,max_le_iff,lt_min_iff]
        clear tailIh othersIh
        grind

/-- The points from `cursor` to the limit that the list leaves out. -/
def complementFrom (limit cursor : Nat) : List (Nat × Nat) → List (Nat × Nat)
  | [] => if cursor < limit then [(cursor, limit)] else []
  | interval :: set =>
    (if cursor < interval.1 then [(cursor, interval.1)] else []) ++
      complementFrom limit (max cursor interval.2) set

theorem complementFrom_cons : complementFrom limit cursor (interval :: set) =
    if cursor < interval.1 then
      (cursor, interval.1) :: complementFrom limit (max cursor interval.2) set
    else complementFrom limit (max cursor interval.2) set := by
  rw [complementFrom]
  split <;> rfl

theorem le_start_of_mem_complementFrom :
    ∀ interval ∈ complementFrom limit cursor set, cursor ≤ interval.1 := by
  induction set generalizing cursor with
  | nil => exact le_start_of_mem_leading le_rfl (forall_mem_nil _)
  | cons head set ih =>
    rw [complementFrom_cons]
    exact le_start_of_mem_leading le_rfl fun interval member =>
      le_trans (le_max_left _ _) (ih interval member)

theorem ordered_complementFrom (ordered : Ordered set) :
    Ordered (complementFrom limit cursor set) := by
  induction set generalizing cursor with
  | nil => exact ordered_leading ordered_nil (forall_mem_nil _)
  | cons head set ih =>
    obtain ⟨headNonempty,headBefore,setOrdered⟩ := ordered_cons.mp ordered
    rw [complementFrom_cons]
    refine ordered_leading (ih setOrdered) fun later member => ?_
    calc
      head.1 ≤ head.2 := le_of_lt headNonempty
      _ ≤ max cursor head.2 := le_max_right _ _
      _ ≤ later.1 := le_start_of_mem_complementFrom later member

theorem covers_complementFrom (ordered : Ordered set) (within : Within limit set) :
    Covers (complementFrom limit cursor set) point ↔
      cursor ≤ point ∧ point < limit ∧ ¬Covers set point := by
  induction set generalizing cursor with
  | nil => exact covers_leading.trans (by simp)
  | cons head set ih =>
    obtain ⟨headNonempty,headBefore,setOrdered⟩ := ordered_cons.mp ordered
    obtain ⟨headWithin,setWithin⟩ := forall_mem_cons.mp within
    have above : Covers set point → head.2 ≤ point := le_of_covers_of_forall_le headBefore
    rw [complementFrom_cons,covers_leading,ih setOrdered setWithin,covers_cons]
    by_cases covered : Covers set point
    · have := above covered
      simp only [covered,or_true,not_true_eq_false,and_false,or_false,iff_false]
      omega
    · simp only [covered,or_false,not_false_eq_true,and_true]
      omega

def firstFrom (lower : Nat) (set : List (Nat × Nat)) : Option Nat :=
  set.findSome? fun interval =>
    if max lower interval.1 < interval.2 then some (max lower interval.1) else none

theorem firstFrom_cons :
    firstFrom lower (interval :: set) =
      if max lower interval.1 < interval.2 then some (max lower interval.1)
      else firstFrom lower set := by
  simp only [firstFrom,findSome?_cons]
  split <;> split <;> simp_all

theorem isLeast_of_firstFrom (ordered : Ordered set) (found : firstFrom lower set = some point) :
    IsLeast {candidate | Covers set candidate ∧ lower ≤ candidate} point := by
  induction set with
  | nil => cases found
  | cons head set ih =>
    obtain ⟨headNonempty,headBefore,setOrdered⟩ := ordered_cons.mp ordered
    rw [firstFrom_cons] at found
    split at found
    · rename_i inHead
      cases found
      refine ⟨⟨covers_cons.mpr (.inl ⟨le_max_right _ _,inHead⟩),le_max_left _ _⟩,?_⟩
      rintro candidate ⟨covered,above⟩
      rcases covers_cons.mp covered with ⟨started,-⟩ | later
      · exact max_le above started
      · have := le_of_covers_of_forall_le headBefore later
        omega
    · rename_i notInHead
      obtain ⟨⟨covered,above⟩,least⟩ := ih setOrdered found
      refine ⟨⟨covers_cons.mpr (.inr covered),above⟩,?_⟩
      rintro candidate ⟨candidateCovered,candidateAbove⟩
      rcases covers_cons.mp candidateCovered with ⟨started,notOver⟩ | later
      · exact absurd (lt_of_le_of_lt (max_le candidateAbove started) notOver) notInHead
      · exact least ⟨later,candidateAbove⟩

theorem firstFrom_ne_none (covered : Covers set point) (above : lower ≤ point) :
    firstFrom lower set ≠ none := by
  obtain ⟨interval,member,started,notOver⟩ := covered
  intro missing
  have := findSome?_eq_none_iff.mp missing interval member
  rw [if_pos (lt_of_le_of_lt (max_le above started) notOver)] at this
  cases this

end IntervalLists

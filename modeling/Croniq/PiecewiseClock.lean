import Mathlib.Data.List.Basic
import Mathlib.Data.Int.LeastGreatest
import Mathlib.Data.Int.Order.Basic
import Mathlib.Order.Basic

/-!
# Clocks with a piecewise constant offset

A zone shows local time as universal time plus an offset that is constant
between finitely many transitions.  All quantities are integers in one unit.
-/

namespace PiecewiseClock

open List

structure Transition where
  (instant offset : Int)
deriving DecidableEq

structure Zone where
  first : Int
  transitions : List Transition
  chronological : transitions.Pairwise fun earlier later => earlier.instant < later.instant
deriving DecidableEq

open Zone

def offsetFrom (current : Int) : List Transition → Int → Int
  | [], _ => current
  | transition :: rest, instant =>
    if instant < transition.instant then current
    else offsetFrom transition.offset rest instant

def Zone.offsetAt (zone : Zone) (instant : Int) : Int :=
  offsetFrom zone.first zone.transitions instant

def Zone.toLocal (zone : Zone) (instant : Int) : Int :=
  instant + zone.offsetAt instant

/-- The instants showing a local time, in increasing order. -/
def preimagesFrom (current localTime : Int) : List Transition → List Int
  | [] => [localTime - current]
  | transition :: rest =>
    (if localTime - current < transition.instant then [localTime - current] else []) ++
      (preimagesFrom transition.offset localTime rest).filter
        fun instant => transition.instant ≤ instant

def Zone.preimages (zone : Zone) (localTime : Int) : List Int :=
  preimagesFrom zone.first localTime zone.transitions

inductive MappedLocalTime where
  | single (instant : Int)
  | ambiguous (earliest latest : Int)
  | none
deriving DecidableEq

def MappedLocalTime.earliest : MappedLocalTime → Option Int
  | .single instant => some instant
  | .ambiguous earliest _ => some earliest
  | .none => Option.none

def Zone.fromLocal (zone : Zone) (localTime : Int) : MappedLocalTime :=
  match zone.preimages localTime with
  | [] => .none
  | [instant] => .single instant
  | earliest :: next :: later => .ambiguous earliest (later.getLastD next)

variable {current localTime instant unit first second : Int} {transitions : List Transition}

theorem mem_preimagesFrom :
    instant ∈ preimagesFrom current localTime transitions ↔
      instant + offsetFrom current transitions instant = localTime := by
  induction transitions generalizing current with
  | nil =>
    simp only [preimagesFrom,offsetFrom,mem_singleton]
    omega
  | cons transition rest ih =>
    simp only [preimagesFrom,offsetFrom,mem_append,mem_filter,ih,decide_eq_true_eq]
    by_cases before : instant < transition.instant
    · split <;> simp <;> omega
    · split <;> simp <;> omega

theorem Zone.mem_preimages {zone : Zone} :
    instant ∈ zone.preimages localTime ↔ zone.toLocal instant = localTime :=
  mem_preimagesFrom

theorem Zone.toLocal_of_fromLocal_ambiguous {zone : Zone} {earliest latest : Int}
    (found : zone.fromLocal localTime = .ambiguous earliest latest) :
    zone.toLocal earliest = localTime ∧ zone.toLocal latest = localTime := by
  simp only [← mem_preimages]
  unfold fromLocal at found
  split at found
  · simp at found
  · simp at found
  rename_i first next later preimagesEq
  obtain ⟨rfl,rfl⟩ := found
  rw [preimagesEq]
  exact ⟨mem_cons_self,mem_cons_of_mem _ (getLastD_mem_cons ..)⟩

section

variable {zone : Zone} (constant : zone.transitions = [])
include constant

theorem Zone.toLocal_of_constant (instant : Int) : zone.toLocal instant = instant + zone.first := by
  simp [toLocal,offsetAt,constant,offsetFrom]

theorem Zone.fromLocal_of_constant (localTime : Int) :
    zone.fromLocal localTime = .single (localTime - zone.first) := by
  simp [fromLocal,preimages,constant,preimagesFrom]

end

/-- The offset is a multiple of `unit` throughout, and changes at multiples of it. -/
def Zone.Aligned (zone : Zone) (unit : Int) : Prop :=
  unit ∣ zone.first ∧
    ∀ transition ∈ zone.transitions, unit ∣ transition.instant ∧ unit ∣ transition.offset

instance (zone : Zone) (unit : Int) : Decidable (zone.Aligned unit) :=
  inferInstanceAs (Decidable (_ ∧ _))

theorem dvd_offsetFrom (currentAligned : unit ∣ current)
    (aligned : ∀ transition ∈ transitions, unit ∣ transition.offset) (instant : Int) :
    unit ∣ offsetFrom current transitions instant := by
  induction transitions generalizing current with
  | nil => exact currentAligned
  | cons transition rest ih =>
    simp only [offsetFrom]
    split
    · exact currentAligned
    · exact ih (forall_mem_cons.mp aligned).1 (forall_mem_cons.mp aligned).2

theorem Zone.Aligned.dvd_offsetAt {zone : Zone} (aligned : zone.Aligned unit) (instant : Int) :
    unit ∣ zone.offsetAt instant :=
  dvd_offsetFrom aligned.1 (fun transition member => (aligned.2 transition member).2) instant

/-- Every local interval repeated at a transition lies within a day. -/
def RepeatsWithinDayFrom (day current : Int) : List Transition → Prop
  | [] => True
  | transition :: rest =>
    (transition.offset < current →
      (transition.instant + transition.offset) / day = (transition.instant + current - 1) / day) ∧
    RepeatsWithinDayFrom day transition.offset rest

def Zone.RepeatsWithinDay (zone : Zone) (day : Int) : Prop :=
  RepeatsWithinDayFrom day zone.first zone.transitions

theorem offsetFrom_of_lt (before : ∀ transition ∈ transitions, instant < transition.instant) :
    offsetFrom current transitions instant = current := by
  cases transitions with
  | nil => rfl
  | cons transition => simp only [offsetFrom,if_pos (before transition mem_cons_self)]

theorem localDate_mono_from {day : Int} (dayPositive : 0 < day) (chronological :
      transitions.Pairwise fun earlier later => earlier.instant < later.instant)
    (repeats : RepeatsWithinDayFrom day current transitions) (ordered : first ≤ second) :
    (first + offsetFrom current transitions first) / day ≤
      (second + offsetFrom current transitions second) / day := by
  induction transitions generalizing current first with
  | nil => exact Int.ediv_le_ediv dayPositive (Int.add_le_add_right ordered _)
  | cons transition rest ih =>
    obtain ⟨repeatWithin,restRepeats⟩ := repeats
    obtain ⟨laterThan,restChronological⟩ := pairwise_cons.mp chronological
    simp only [offsetFrom]
    by_cases secondBefore : second < transition.instant
    · rw [if_pos (lt_of_le_of_lt ordered secondBefore),if_pos secondBefore]
      exact Int.ediv_le_ediv dayPositive (Int.add_le_add_right ordered _)
    rw [if_neg secondBefore]
    by_cases firstBefore : first < transition.instant
    · rw [if_pos firstBefore]
      have fromTransition := ih restChronological restRepeats (not_lt.mp secondBefore)
      rw [offsetFrom_of_lt laterThan] at fromTransition
      refine le_trans ?_ fromTransition
      have lastBefore : (first + current) / day ≤
          (transition.instant + current - 1) / day :=
        Int.ediv_le_ediv dayPositive (by omega)
      by_cases backward : transition.offset < current
      · rw [repeatWithin backward]
        exact lastBefore
      · exact le_trans lastBefore (Int.ediv_le_ediv dayPositive (by omega))
    · rw [if_neg firstBefore]
      exact ih restChronological restRepeats ordered

theorem Zone.localDate_mono {zone : Zone} {day : Int} (dayPositive : 0 < day)
    (repeats : zone.RepeatsWithinDay day) (ordered : first ≤ second) :
    zone.toLocal first / day ≤ zone.toLocal second / day :=
  localDate_mono_from dayPositive zone.chronological repeats ordered

theorem sorted_preimagesFrom (current localTime : Int) (transitions : List Transition) :
    (preimagesFrom current localTime transitions).Pairwise (· < ·) := by
  induction transitions generalizing current with
  | nil => exact pairwise_singleton _ _
  | cons transition rest ih =>
    rw [preimagesFrom,pairwise_append]
    refine ⟨?_,(ih transition.offset).filter _,?_⟩
    · split
      · exact pairwise_singleton _ _
      · exact .nil
    · intro earlier isEarlier later isLater
      have notBefore := of_decide_eq_true (mem_filter.mp isLater).2
      split at isEarlier
      · rw [mem_singleton.mp isEarlier]
        omega
      · cases isEarlier

theorem le_getLastD_of_sorted {rest : List Int} (sorted : (first :: rest).Pairwise (· < ·))
    (member : instant ∈ first :: rest) : instant ≤ rest.getLastD first := by
  induction rest generalizing first instant with
  | nil => exact (mem_singleton.mp member).le
  | cons next rest ih =>
    obtain ⟨headLess,restSorted⟩ := pairwise_cons.mp sorted
    rw [getLastD_cons]
    rcases mem_cons.mp member with rfl | isLater
    · exact le_trans (headLess next mem_cons_self).le (ih restSorted mem_cons_self)
    · exact ih restSorted isLater

/-- The later answer for a repeated local time is the last instant that shows it. -/
theorem Zone.le_of_fromLocal_ambiguous {zone : Zone} {earliest latest : Int}
    (found : zone.fromLocal localTime = .ambiguous earliest latest)
    (shown : zone.toLocal instant = localTime) : instant ≤ latest := by
  have sorted : (zone.preimages localTime).Pairwise (· < ·) := sorted_preimagesFrom _ _ _
  have member := mem_preimages.mpr shown
  unfold fromLocal at found
  split at found
  · cases found
  · cases found
  rename_i preimagesEq
  cases found
  rw [preimagesEq] at sorted member
  have below := le_getLastD_of_sorted sorted member
  rwa [getLastD_cons] at below

theorem Zone.eq_of_fromLocal_single {zone : Zone} {only : Int}
    (found : zone.fromLocal localTime = .single only) (shown : zone.toLocal instant = localTime) :
    only = instant := by
  have member := mem_preimages.mpr shown
  unfold fromLocal at found
  split at found
  · cases found
  · rename_i preimagesEq
    cases found
    rw [preimagesEq] at member
    exact (mem_singleton.mp member).symm
  · cases found

def Zone.offsets (zone : Zone) : List Int :=
  zone.first :: zone.transitions.map Transition.offset

/-- Any two transitions are as far apart as any two offsets. -/
def Zone.Settles (zone : Zone) : Prop :=
  ∀ earlier ∈ zone.transitions, ∀ later ∈ zone.transitions, earlier.instant < later.instant →
    ∀ before ∈ zone.offsets, ∀ after ∈ zone.offsets,
      before - after ≤ later.instant - earlier.instant

theorem offsetFrom_mem (current instant : Int) (transitions : List Transition) :
    offsetFrom current transitions instant ∈ current :: transitions.map Transition.offset := by
  induction transitions generalizing current with
  | nil => exact mem_cons_self
  | cons transition rest ih =>
    rw [offsetFrom]
    split
    · exact mem_cons_self
    · exact mem_cons_of_mem _ (ih transition.offset)

theorem shown_or_skipped_from
    (notOver : instant + offsetFrom current transitions instant ≤ localTime) :
    (∃ later, instant ≤ later ∧ later + offsetFrom current transitions later = localTime) ∨
      ∃ transition ∈ transitions, instant < transition.instant ∧
        ∃ offset ∈ current :: transitions.map Transition.offset,
          transition.instant + offset ≤ localTime := by
  induction transitions generalizing current with
  | nil => exact .inl ⟨localTime - current,by simp only [offsetFrom] at *; omega⟩
  | cons transition rest ih =>
    by_cases before : instant < transition.instant
    · rw [offsetFrom,if_pos before] at notOver
      by_cases comes : localTime - current < transition.instant
      · refine .inl ⟨localTime - current,by omega,?_⟩
        rw [offsetFrom,if_pos comes]
        omega
      · exact .inr ⟨transition,mem_cons_self,before,current,mem_cons_self,
          by omega⟩
    · rw [offsetFrom,if_neg before] at notOver
      rcases ih notOver with ⟨later,notEarlier,shown⟩ | ⟨other,isOther,after,offset,
        isOffset,skipped⟩
      · refine .inl ⟨later,notEarlier,?_⟩
        rwa [offsetFrom,if_neg (by omega)]
      · exact .inr ⟨other,mem_cons_of_mem _ isOther,after,offset,
          mem_cons_of_mem _ isOffset,skipped⟩

theorem transition_between {earlier later : Int} (ordered : earlier < later)
    (notOn : later + offsetFrom current transitions later ≤
      earlier + offsetFrom current transitions earlier) :
    ∃ transition ∈ transitions, earlier < transition.instant ∧ transition.instant ≤ later := by
  induction transitions generalizing current with
  | nil =>
    simp only [offsetFrom] at notOn
    omega
  | cons transition rest ih =>
    by_cases before : earlier < transition.instant
    · by_cases laterBefore : later < transition.instant
      · rw [offsetFrom,if_pos laterBefore,offsetFrom,if_pos before] at notOn
        omega
      · exact ⟨transition,mem_cons_self,before,not_lt.mp laterBefore⟩
    · rw [offsetFrom,if_neg (by omega),offsetFrom,if_neg before] at notOn
      obtain ⟨other,isOther,between⟩ := ih notOn
      exact ⟨other,mem_cons_of_mem _ isOther,between⟩

/-- In a zone that settles, a local time shown once and not over comes again. -/
theorem Zone.Settles.shown_again {zone : Zone} (settles : zone.Settles) {earlier : Int}
    (ordered : earlier < instant) (notOver : zone.toLocal instant ≤ localTime)
    (reached : localTime ≤ zone.toLocal earlier) :
    ∃ later, instant ≤ later ∧ zone.toLocal later = localTime := by
  rcases shown_or_skipped_from notOver with shown | ⟨later,isLater,after,offset,isOffset,
    skipped⟩
  · exact shown
  obtain ⟨turn,isTurn,afterEarlier,notAfter⟩ :=
    transition_between ordered (le_trans notOver reached)
  have spaced := settles turn isTurn later isLater (lt_of_le_of_lt notAfter after)
    (zone.offsetAt earlier) (offsetFrom_mem _ _ _) offset isOffset
  simp only [toLocal] at reached
  omega

theorem Zone.Settles.not_shown_thrice {zone : Zone} (settles : zone.Settles) {third : Int}
    (firstBefore : first < second) (secondBefore : second < third)
    (again : zone.toLocal second = zone.toLocal first)
    (onceMore : zone.toLocal third = zone.toLocal first) : False := by
  obtain ⟨turn,isTurn,afterFirst,notAfterSecond⟩ := transition_between firstBefore again.le
  obtain ⟨later,isLater,afterSecond,notAfterThird⟩ :=
    transition_between secondBefore (onceMore.trans again.symm).le
  have spaced := settles turn isTurn later isLater (by omega)
    (zone.offsetAt first) (offsetFrom_mem _ _ _) (zone.offsetAt third) (offsetFrom_mem _ _ _)
  simp only [toLocal] at onceMore
  omega

theorem Zone.earliest_fromLocal (zone : Zone) (localTime : Int) :
    (zone.fromLocal localTime).earliest = (zone.preimages localTime).head? := by
  unfold fromLocal
  split <;> simp_all [MappedLocalTime.earliest]

theorem Zone.earliest_eq_some_iff {zone : Zone} :
    (zone.fromLocal localTime).earliest = some instant ↔
      zone.toLocal instant = localTime ∧
        ∀ other, zone.toLocal other = localTime → instant ≤ other := by
  have sorted : (zone.preimages localTime).Pairwise (· < ·) := sorted_preimagesFrom _ _ _
  rw [zone.earliest_fromLocal]
  simp only [← mem_preimages]
  cases preimages : zone.preimages localTime with
  | nil => simp
  | cons first =>
    rw [preimages] at sorted
    obtain ⟨isFirst,-⟩ := pairwise_cons.mp sorted
    simp only [head?_cons,Option.some.injEq,mem_cons]
    constructor
    · rintro rfl
      refine ⟨.inl rfl,?_⟩
      rintro other (rfl | member)
      · exact le_rfl
      · exact (isFirst other member).le
    · rintro ⟨rfl | member,least⟩
      · rfl
      · exact absurd (least first (.inl rfl)) (not_le.mpr (isFirst instant member))

theorem Zone.earliest_eq_none_iff {zone : Zone} :
    (zone.fromLocal localTime).earliest = none ↔ ∀ instant, zone.toLocal instant ≠ localTime := by
  rw [zone.earliest_fromLocal,head?_eq_none_iff,eq_nil_iff_forall_not_mem]
  simp only [mem_preimages,ne_eq]

theorem exists_offset_bound (current : Int) (transitions : List Transition) :
    ∃ bound, ∀ instant, -bound ≤ offsetFrom current transitions instant ∧
      offsetFrom current transitions instant ≤ bound := by
  induction transitions generalizing current with
  | nil => exact ⟨max current (-current),fun _ => by simp only [offsetFrom]; omega⟩
  | cons transition rest ih =>
    obtain ⟨bound,bounded⟩ := ih transition.offset
    refine ⟨max bound (max current (-current)),fun instant => ?_⟩
    have := bounded instant
    rw [offsetFrom]
    split <;> omega

/-- A local time is reached for the first time at some instant: shown, or jumped over. -/
theorem Zone.exists_first_reached (zone : Zone) (localTime : Int) :
    ∃ instant, localTime ≤ zone.toLocal instant ∧
      ∀ earlier < instant, zone.toLocal earlier < localTime := by
  obtain ⟨bound,bounded⟩ := exists_offset_bound zone.first zone.transitions
  have offsets : ∀ instant, -bound ≤ zone.offsetAt instant ∧ zone.offsetAt instant ≤ bound :=
    bounded
  obtain ⟨instant,reached,least⟩ := Int.exists_least_of_bdd
    (P := fun instant => localTime ≤ zone.toLocal instant)
    ⟨localTime - bound,fun other reached => by
      have := offsets other
      simp only [toLocal] at reached
      omega⟩
    ⟨localTime + bound,by
      have := offsets (localTime + bound)
      simp only [toLocal]
      omega⟩
  exact ⟨instant,reached,fun earlier before =>
    not_le.mp fun other => absurd (least earlier other) (not_le.mpr before)⟩

/-- A jump forward skips at most `limit` local times, up to a multiple of `unit`, which no instant
shows. -/
def Zone.GapsWithin (zone : Zone) (limit unit : Int) : Prop :=
  ∀ instant, zone.toLocal (instant - 1) + 1 < zone.toLocal instant →
    zone.toLocal instant ≤ zone.toLocal (instant - 1) + 1 + limit ∧
      unit ∣ zone.toLocal instant ∧
      ∀ skipped, zone.toLocal (instant - 1) < skipped → skipped < zone.toLocal instant →
        ∀ other, zone.toLocal other ≠ skipped

theorem Zone.GapsWithin.exists_jump {zone : Zone} {limit : Int}
    (gaps : zone.GapsWithin limit unit) (skipped : ∀ instant, zone.toLocal instant ≠ localTime) :
    ∃ jump, (∀ earlier < jump, zone.toLocal earlier < localTime) ∧
      localTime < zone.toLocal jump ∧ zone.toLocal jump ≤ localTime + limit ∧
      unit ∣ zone.toLocal jump ∧
      (zone.fromLocal (zone.toLocal jump)).earliest = some jump ∧
      ∀ between, localTime ≤ between → between < zone.toLocal jump →
        (zone.fromLocal between).earliest = none := by
  obtain ⟨jump,reached,first⟩ := zone.exists_first_reached localTime
  have beyond : localTime < zone.toLocal jump := lt_of_le_of_ne reached (Ne.symm (skipped jump))
  have before := first (jump - 1) (by omega)
  obtain ⟨short,aligned,unshown⟩ := gaps jump (by omega)
  refine ⟨jump,first,beyond,by omega,aligned,?_,?_⟩
  · refine earliest_eq_some_iff.mpr ⟨rfl,fun other shown => ?_⟩
    by_contra earlier
    have := first other (not_le.mp earlier)
    omega
  · intro between notBefore notOver
    exact earliest_eq_none_iff.mpr (unshown between (by omega) notOver)

end PiecewiseClock

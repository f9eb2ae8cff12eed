import Mathlib.Order.Bounds.Basic
import Mathlib.Order.MinMax
import Mathlib.Data.Int.Order.Basic

/-!
# Searching for an instant at which two gates are open

Two gates are each asked for their next opening, and the search moves to the
later of the two answers until neither moves it (`alternate`).
-/

namespace OpeningSearch

/-- Move to the later of the next openings of two gates until both are open. -/
def alternate (first second : Int → Option Int) (horizon : Int) : Nat → Int → Option Int
  | 0, _ => none
  | rounds + 1, instant =>
    if horizon < instant then none
    else
      (first instant).bind fun firstOpen =>
        (second instant).bind fun secondOpen =>
          if max firstOpen secondOpen ≤ instant then some instant
          else alternate first second horizon rounds (max firstOpen secondOpen)

/-- Follow jumps from candidate to candidate until one is allowed. -/
def guardedJumps (allowed : Int → Bool) (jump : Int → Option Int) : Nat → Int → Option Int
  | 0, _ => none
  | jumps + 1, candidate =>
    if allowed candidate then some candidate
    else (jump candidate).bind (guardedJumps allowed jump jumps)

/-- `next` finds the least opening of a gate at or after an instant. -/
def FindsNext (unit : Int) (isOpen : Int → Prop) (next : Int → Option Int) : Prop :=
  ∀ instant opening, unit ∣ instant → next instant = some opening →
    IsLeast {candidate | unit ∣ candidate ∧ instant ≤ candidate ∧ isOpen candidate} opening

/-- `next` finds an opening when there is one within the reach. -/
def Reaches (unit reach : Int) (isOpen : Int → Prop) (next : Int → Option Int) : Prop :=
  ∀ instant opening, unit ∣ instant → unit ∣ opening → instant ≤ opening →
    opening ≤ instant + reach → isOpen opening → next instant ≠ none

section Rounds

variable {first second : Int → Option Int} {horizon instant next target opening : Int}
  {rounds : Nat}

theorem alternate_succ_eq_some :
    alternate first second horizon (rounds + 1) instant = some opening ↔
      instant ≤ horizon ∧ ∃ firstOpen secondOpen,
        first instant = some firstOpen ∧ second instant = some secondOpen ∧
        (max firstOpen secondOpen ≤ instant ∧ opening = instant ∨
          instant < max firstOpen secondOpen ∧
            alternate first second horizon rounds (max firstOpen secondOpen) = some opening) := by
  have branch : ∀ next : Int,
      (if next ≤ instant then some instant
        else alternate first second horizon rounds next) = some opening ↔
        next ≤ instant ∧ opening = instant ∨
          instant < next ∧ alternate first second horizon rounds next = some opening := by
    intro next
    split
    · rename_i reached
      simp [reached,not_lt.mpr reached,eq_comm]
    · rename_i advanced
      simp [advanced,not_le.mp advanced]
  rw [alternate]
  split
  · rename_i pastHorizon
    simp [not_le.mpr pastHorizon]
  rename_i withinHorizon
  simp only [Option.bind_eq_some_iff,branch,not_lt.mp withinHorizon,true_and]
  constructor
  · rintro ⟨firstOpen,firstEq,secondOpen,secondEq,outcome⟩
    exact ⟨firstOpen,secondOpen,firstEq,secondEq,outcome⟩
  · rintro ⟨firstOpen,secondOpen,firstEq,secondEq,outcome⟩
    exact ⟨firstOpen,firstEq,secondOpen,secondEq,outcome⟩

/-- A round that moves from one instant to a later one. -/
def Advances (first second : Int → Option Int) (instant next : Int) : Prop :=
  ∃ firstOpen secondOpen, first instant = some firstOpen ∧ second instant = some secondOpen ∧
    next = max firstOpen secondOpen ∧ instant < next

theorem Advances.lt (advances : Advances first second instant next) : instant < next := by
  obtain ⟨_,_,-,-,-,later⟩ := advances
  exact later

/-- The gate does not move the search. -/
def RestsAt (next : Int → Option Int) (instant : Int) : Prop :=
  ∃ opening, next instant = some opening ∧ opening ≤ instant

section

variable (found : alternate first second horizon rounds instant = some opening)
include found

/-- What every round keeps holds at the opening found. -/
theorem outcome_of_alternate (property : Int → Prop) (initially : property instant)
    (keeps : ∀ current next, Advances first second current next → property current →
      property next) :
    property opening ∧ opening ≤ horizon ∧ RestsAt first opening ∧ RestsAt second opening := by
  induction rounds generalizing instant with
  | zero => cases found
  | succ rounds ih =>
    obtain ⟨withinHorizon,firstOpen,secondOpen,firstEq,secondEq,outcome⟩ :=
      alternate_succ_eq_some.mp found
    rcases outcome with ⟨fixed,rfl⟩ | ⟨advanced,rest⟩
    · exact ⟨initially,withinHorizon,⟨firstOpen,firstEq,le_trans (le_max_left _ _) fixed⟩,
        ⟨secondOpen,secondEq,le_trans (le_max_right _ _) fixed⟩⟩
    · exact ih rest (keeps _ _ ⟨_,_,firstEq,secondEq,rfl,advanced⟩ initially)

theorem last_of_alternate : instant ≤ opening ∧ opening ≤ horizon ∧ RestsAt first opening ∧
    RestsAt second opening :=
  outcome_of_alternate found (instant ≤ ·) le_rfl fun _ _ advances notBefore =>
    le_trans notBefore advances.lt.le

end

/-- What the first search finds up to `stop` the second one finds too. -/
def Agrees (start stop : Int) (next nextToo : Int → Option Int) : Prop :=
  ∀ instant opening, start ≤ instant → opening ≤ stop → next instant = some opening →
    nextToo instant = some opening

theorem alternate_agrees {start stop : Int} {firstToo secondToo : Int → Option Int}
    (firstAgrees : Agrees start stop first firstToo)
    (secondAgrees : Agrees start stop second secondToo) :
    Agrees start stop (alternate first second horizon rounds)
      (alternate firstToo secondToo horizon rounds) := by
  intro instant opening notBefore inTime found
  induction rounds generalizing instant with
  | zero => cases found
  | succ rounds ih =>
    obtain ⟨within,firstOpen,secondOpen,firstEq,secondEq,outcome⟩ :=
      alternate_succ_eq_some.mp found
    have notOver : max firstOpen secondOpen ≤ opening := by
      rcases outcome with ⟨fixed,rfl⟩ | ⟨-,rest⟩
      · exact fixed
      · exact (last_of_alternate rest).1
    exact alternate_succ_eq_some.mpr ⟨within,firstOpen,secondOpen,
      firstAgrees _ _ notBefore (by omega) firstEq,secondAgrees _ _ notBefore (by omega) secondEq,
      outcome.imp_right fun ⟨advanced,rest⟩ => ⟨advanced,ih _ (by omega) rest⟩⟩

def IsStart (unit : Int) (isOpen : Int → Prop) (instant : Int) : Prop :=
  unit ∣ instant ∧ isOpen instant ∧ ¬isOpen (instant - unit)

section Bounded

variable {unit : Int} {firstIsOpen secondIsOpen : Int → Prop}
  (firstFinds : FindsNext unit firstIsOpen first)
  (secondFinds : FindsNext unit secondIsOpen second) (aligned : unit ∣ instant)
include firstFinds secondFinds aligned

theorem aligned_of_advances (advances : Advances first second instant next) : unit ∣ next := by
  obtain ⟨firstOpen,secondOpen,firstEq,secondEq,rfl,-⟩ := advances
  rcases max_choice firstOpen secondOpen with chosen | chosen
  · rw [chosen]
    exact (firstFinds instant firstOpen aligned firstEq).1.1
  · rw [chosen]
    exact (secondFinds instant secondOpen aligned secondEq).1.1

theorem le_of_advances (advances : Advances first second instant next)
    (targetAligned : unit ∣ target) (notPast : instant ≤ target)
    (firstAt : firstIsOpen target) (secondAt : secondIsOpen target) : next ≤ target := by
  obtain ⟨firstOpen,secondOpen,firstEq,secondEq,rfl,-⟩ := advances
  apply max_le
  · exact (firstFinds instant firstOpen aligned firstEq).2 ⟨targetAligned,notPast,firstAt⟩
  · exact (secondFinds instant secondOpen aligned secondEq).2 ⟨targetAligned,notPast,secondAt⟩

theorem isLeast_of_alternate
    (found : alternate first second horizon rounds instant = some opening) :
    IsLeast {candidate | unit ∣ candidate ∧ instant ≤ candidate ∧
      firstIsOpen candidate ∧ secondIsOpen candidate} opening := by
  obtain ⟨⟨openAligned,openGe,least⟩,-,⟨_,firstEq,firstLe⟩,⟨_,secondEq,secondLe⟩⟩ :=
    outcome_of_alternate found (fun current => unit ∣ current ∧ instant ≤ current ∧
      ∀ target, unit ∣ target → instant ≤ target → firstIsOpen target → secondIsOpen target →
        current ≤ target) ⟨aligned,le_rfl,fun _ _ notBefore _ _ => notBefore⟩ (by
      rintro current next advances ⟨currentAligned,currentGe,least⟩
      refine ⟨aligned_of_advances firstFinds secondFinds currentAligned advances,
        le_trans currentGe advances.lt.le,?_⟩
      intro target targetAligned notBefore firstAt secondAt
      exact le_of_advances firstFinds secondFinds currentAligned advances targetAligned
        (least target targetAligned notBefore firstAt secondAt) firstAt secondAt)
  obtain ⟨⟨-,firstGe,firstAt⟩,-⟩ := firstFinds _ _ openAligned firstEq
  obtain ⟨⟨-,secondGe,secondAt⟩,-⟩ := secondFinds _ _ openAligned secondEq
  rw [le_antisymm firstLe firstGe] at firstAt
  rw [le_antisymm secondLe secondGe] at secondAt
  refine ⟨⟨openAligned,openGe,firstAt,secondAt⟩,?_⟩
  rintro target ⟨targetAligned,notBefore,atFirst,atSecond⟩
  exact least target targetAligned notBefore atFirst atSecond

variable (unitPositive : 0 < unit)
include unitPositive

omit firstFinds in
theorem isStart_of_findsNext (found : second instant = some opening) (closed : instant < opening) :
    IsStart unit secondIsOpen opening := by
  obtain ⟨⟨openAligned,-,isOpen⟩,least⟩ := secondFinds instant opening aligned found
  refine ⟨openAligned,isOpen,?_⟩
  intro openBefore
  have beforeAligned : unit ∣ opening - unit := Int.dvd_sub openAligned (Int.dvd_refl unit)
  have apart : unit ≤ opening - instant :=
    Int.le_of_dvd (by omega) (Int.dvd_sub openAligned aligned)
  have := least ⟨beforeAligned,by omega,openBefore⟩
  omega

/-- Two rounds in a row pass a start of the second gate: after the first, only that gate can move
the search. -/
theorem isStart_between_of_advances {middle : Int}
    (advances : Advances first second instant middle)
    (advancesAgain : Advances first second middle next) :
    ∃ start, IsStart unit secondIsOpen start ∧ instant < start ∧ start ≤ next := by
  have middleAligned := aligned_of_advances firstFinds secondFinds aligned advances
  obtain ⟨firstOpen,secondOpen,firstEq,secondEq,middleEq,later⟩ := advances
  obtain ⟨firstAgain,secondAgain,firstAgainEq,secondAgainEq,nextEq,laterAgain⟩ := advancesAgain
  obtain ⟨⟨-,secondGe,-⟩,-⟩ := secondFinds instant secondOpen aligned secondEq
  rcases eq_or_lt_of_le secondGe with secondSame | secondMoved
  · have middleIsFirst : middle = firstOpen := by
      rw [middleEq,← secondSame]
      rw [middleEq,← secondSame] at later
      exact max_eq_left (le_of_lt ((lt_max_iff.mp later).resolve_right (lt_irrefl _)))
    have firstAtMiddle : firstIsOpen middle := by
      rw [middleIsFirst]
      exact (firstFinds instant firstOpen aligned firstEq).1.2.2
    have firstStays : firstAgain ≤ middle :=
      (firstFinds middle firstAgain middleAligned firstAgainEq).2
        ⟨middleAligned,le_rfl,firstAtMiddle⟩
    have secondMoves : middle < secondAgain := by
      rw [nextEq] at laterAgain
      exact (lt_max_iff.mp laterAgain).resolve_left (not_lt.mpr firstStays)
    refine ⟨secondAgain,?_,lt_trans later secondMoves,?_⟩
    · exact isStart_of_findsNext secondFinds middleAligned unitPositive secondAgainEq secondMoves
    · rw [nextEq]
      exact le_max_right _ _
  · refine ⟨secondOpen,?_,secondMoved,?_⟩
    · exact isStart_of_findsNext secondFinds aligned unitPositive secondEq secondMoved
    · calc
        secondOpen ≤ middle := middleEq ▸ le_max_right _ _
        _ ≤ next := laterAgain.le

variable {reach : Int} (firstReaches : Reaches unit reach firstIsOpen first)
  (secondReaches : Reaches unit reach secondIsOpen second)
  (targetAligned : unit ∣ target) (firstAt : firstIsOpen target)
  (secondAt : secondIsOpen target) (withinHorizon : target ≤ horizon) {period : Int}
  (spaced : ∀ earlier later, IsStart unit secondIsOpen earlier →
    IsStart unit secondIsOpen later → earlier < later → earlier + period ≤ later)
  (rounds) (notPast : instant ≤ target) (inReach : target ≤ instant + reach)
include firstReaches secondReaches targetAligned firstAt secondAt withinHorizon notPast inReach

omit unitPositive in
theorem alternate_succ_cases :
    (∃ opening, alternate first second horizon (rounds + 1) instant = some opening) ∨
      ∃ next, Advances first second instant next ∧ next ≤ target ∧
        alternate first second horizon (rounds + 1) instant =
          alternate first second horizon rounds next := by
  obtain ⟨firstOpen,firstEq⟩ := Option.ne_none_iff_exists'.mp
    (firstReaches instant target aligned targetAligned notPast inReach firstAt)
  obtain ⟨secondOpen,secondEq⟩ := Option.ne_none_iff_exists'.mp
    (secondReaches instant target aligned targetAligned notPast inReach secondAt)
  have notPastHorizon : ¬horizon < instant := not_lt.mpr (le_trans notPast withinHorizon)
  by_cases fixed : max firstOpen secondOpen ≤ instant
  · left
    refine ⟨instant,?_⟩
    rw [alternate,if_neg notPastHorizon,firstEq,secondEq]
    simp only [Option.bind_some,if_pos fixed]
  · right
    have advances : Advances first second instant (max firstOpen secondOpen) :=
      ⟨firstOpen,secondOpen,firstEq,secondEq,rfl,not_le.mp fixed⟩
    refine ⟨max firstOpen secondOpen,advances,?_,?_⟩
    · exact le_of_advances firstFinds secondFinds aligned advances targetAligned notPast firstAt
        secondAt
    · rw [alternate,if_neg notPastHorizon,firstEq,secondEq]
      simp only [Option.bind_some,if_neg fixed]

include spaced

theorem alternate_four_cases :
    (∃ opening, alternate first second horizon (rounds + 4) instant = some opening) ∨
      ∃ next, unit ∣ next ∧ instant + period < next ∧ next ≤ target ∧
        alternate first second horizon (rounds + 4) instant =
          alternate first second horizon rounds next := by
  have oneRound := fun {instant : Int} (rounds : Nat) (aligned : unit ∣ instant) =>
    alternate_succ_cases rounds firstFinds secondFinds aligned firstReaches secondReaches
      targetAligned firstAt secondAt withinHorizon
  have keepsAligned : ∀ {instant next : Int}, unit ∣ instant →
      Advances first second instant next → unit ∣ next :=
    aligned_of_advances firstFinds secondFinds
  rcases oneRound (rounds + 3) aligned notPast inReach with found | ⟨one,advanceOne,oneLe,oneEq⟩
  · exact .inl found
  have laterOne := advanceOne.lt
  have alignedOne := keepsAligned aligned advanceOne
  rcases oneRound (rounds + 2) alignedOne oneLe (by omega) with
    ⟨opening,found⟩ | ⟨two,advanceTwo,twoLe,twoEq⟩
  · exact .inl ⟨opening,oneEq.trans found⟩
  have laterTwo := advanceTwo.lt
  have alignedTwo := keepsAligned alignedOne advanceTwo
  rcases oneRound (rounds + 1) alignedTwo twoLe (by omega) with
    ⟨opening,found⟩ | ⟨three,advanceThree,threeLe,threeEq⟩
  · exact .inl ⟨opening,oneEq.trans (twoEq.trans found)⟩
  have laterThree := advanceThree.lt
  have alignedThree := keepsAligned alignedTwo advanceThree
  rcases oneRound rounds alignedThree threeLe (by omega) with
    ⟨opening,found⟩ | ⟨four,advanceFour,fourLe,fourEq⟩
  · exact .inl ⟨opening,oneEq.trans (twoEq.trans (threeEq.trans found))⟩
  have alignedFour := keepsAligned alignedThree advanceFour
  obtain ⟨firstStart,isFirstStart,afterInstant,notAfterTwo⟩ :=
    isStart_between_of_advances firstFinds secondFinds aligned unitPositive advanceOne advanceTwo
  obtain ⟨secondStart,isSecondStart,afterTwo,notAfterFour⟩ :=
    isStart_between_of_advances firstFinds secondFinds alignedTwo unitPositive advanceThree
      advanceFour
  have apart := spaced firstStart secondStart isFirstStart isSecondStart (by omega)
  exact .inr ⟨four,alignedFour,by omega,fourLe,
    oneEq.trans (twoEq.trans (threeEq.trans fourEq))⟩

/-- Ten rounds find an opening if the first gate alone leads into the period of the joint one. -/
theorem alternate_ne_none (periodNonneg : 0 ≤ period)
    (leadsIn : ∀ later opening, unit ∣ later → instant + period < later → later ≤ target →
      first later = some opening → target < opening + period) :
    alternate first second horizon (rounds + 10) instant ≠ none := by
  have fourRounds := fun {instant : Int} (rounds : Nat) (aligned : unit ∣ instant) =>
    alternate_four_cases rounds firstFinds secondFinds aligned unitPositive firstReaches
      secondReaches targetAligned firstAt secondAt withinHorizon spaced
  rcases fourRounds (rounds + 6) aligned notPast inReach with
    ⟨opening,found⟩ | ⟨four,alignedFour,fourLater,fourLe,fourEq⟩
  · simp [found]
  rcases alternate_succ_cases (rounds + 5) firstFinds secondFinds alignedFour firstReaches
      secondReaches targetAligned firstAt secondAt withinHorizon fourLe (by omega) with
    ⟨opening,found⟩ | ⟨five,advanceFive,fiveLe,fiveEq⟩
  · rw [fourEq,found]
    simp
  have alignedFive := aligned_of_advances firstFinds secondFinds alignedFour advanceFive
  obtain ⟨firstOpen,secondOpen,firstEq,-,fiveIsMax,laterFive⟩ := advanceFive
  have inPeriod : target < five + period := by
    have := leadsIn four firstOpen alignedFour fourLater fourLe firstEq
    omega
  rcases fourRounds (rounds + 1) alignedFive fiveLe (by omega) with
    ⟨opening,found⟩ | ⟨nine,-,nineLater,nineLe,-⟩
  · rw [fourEq,fiveEq,found]
    simp
  · omega

end Bounded

end Rounds

section

variable {allowed : Int → Bool} {jump : Int → Option Int} {candidate found : Int} {jumps : Nat}

theorem guardedJumps_of_allowed (jumps : Nat) (isAllowed : allowed candidate = true) :
    guardedJumps allowed jump (jumps + 1) candidate = some candidate := by
  rw [guardedJumps,if_pos isAllowed]

theorem guardedJumps_of_not_allowed (jumps : Nat) (notAllowed : allowed candidate = false) :
    guardedJumps allowed jump (jumps + 1) candidate =
      (jump candidate).bind (guardedJumps allowed jump jumps) := by
  rw [guardedJumps,if_neg (by simp [notAllowed])]

theorem guardedJumps_succ_eq_some :
    guardedJumps allowed jump (jumps + 1) candidate = some found ↔
      allowed candidate = true ∧ found = candidate ∨
      allowed candidate = false ∧ ∃ next, jump candidate = some next ∧
        guardedJumps allowed jump jumps next = some found := by
  cases isAllowed : allowed candidate with
  | true => simp [guardedJumps_of_allowed,isAllowed,eq_comm]
  | false => simp [guardedJumps_of_not_allowed,isAllowed,Option.bind_eq_some_iff]

theorem outcome_of_guardedJumps (reached : guardedJumps allowed jump jumps candidate = some found)
    (property : Int → Prop) (initially : property candidate)
    (jumpKeeps : ∀ current next, property current → allowed current = false →
      jump current = some next → property next) : allowed found = true ∧ property found := by
  induction jumps generalizing candidate with
  | zero => cases reached
  | succ jumps ih =>
    rcases guardedJumps_succ_eq_some.mp reached with
      ⟨isAllowed,rfl⟩ | ⟨notAllowed,next,jumped,rest⟩
    · exact ⟨isAllowed,initially⟩
    · exact ih rest (jumpKeeps candidate next initially notAllowed jumped)

/-- Jumps lead from candidate to candidate and skip no allowed one. -/
def SkipsNone (isCandidate : Int → Prop) (allowed : Int → Bool) (jump : Int → Option Int) : Prop :=
  ∀ candidate next, isCandidate candidate → allowed candidate = false →
    jump candidate = some next →
      isCandidate next ∧ candidate ≤ next ∧
        ∀ other, isCandidate other → allowed other = true → candidate ≤ other → next ≤ other

variable {isCandidate : Int → Prop}

theorem isLeast_of_guardedJumps
    (skips : SkipsNone isCandidate allowed jump) (initially : isCandidate candidate)
    (reached : guardedJumps allowed jump jumps candidate = some found) :
    IsLeast {other | isCandidate other ∧ allowed other = true ∧ candidate ≤ other} found := by
  obtain ⟨isAllowed,foundCandidate,foundGe,least⟩ := outcome_of_guardedJumps reached
    (fun current => isCandidate current ∧ candidate ≤ current ∧ current ∈ lowerBounds
      {other | isCandidate other ∧ allowed other = true ∧ candidate ≤ other})
    ⟨initially,le_rfl,fun other inSet => inSet.2.2⟩ (by
      rintro current next ⟨isCurrent,currentGe,least⟩ closed jumped
      obtain ⟨nextCandidate,nextGe,skipsNone⟩ := skips current next isCurrent closed jumped
      exact ⟨nextCandidate,le_trans currentGe nextGe,fun other inSet =>
        skipsNone other inSet.1 inSet.2.1 (least inSet)⟩)
  exact ⟨⟨foundCandidate,isAllowed,foundGe⟩,least⟩

/-- The search succeeds if each jump covers `gap` at least, not beyond a target, and there are
enough of them. -/
theorem guardedJumps_ne_none (gap : Int) {target : Int}
    (jumpsOn : ∀ current, isCandidate current → allowed current = false → current ≤ target →
      ∃ next, jump current = some next ∧ isCandidate next ∧ current + gap ≤ next ∧ next ≤ target)
    (initially : isCandidate candidate) (notPast : candidate ≤ target)
    (enough : target < candidate + gap * jumps) :
    guardedJumps allowed jump jumps candidate ≠ none := by
  induction jumps generalizing candidate with
  | zero => omega
  | succ jumps ih =>
    cases isAllowed : allowed candidate with
    | true => simp [guardedJumps_of_allowed,isAllowed]
    | false =>
      obtain ⟨next,jumped,isNext,advanced,nextLe⟩ := jumpsOn candidate initially isAllowed notPast
      rw [Int.natCast_succ,Int.mul_add,Int.mul_one] at enough
      rw [guardedJumps_of_not_allowed jumps isAllowed,jumped,Option.bind_some]
      exact ih isNext nextLe (by omega)

end

end OpeningSearch

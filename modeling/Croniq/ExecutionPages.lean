import Croniq.ExecutionLifecycle
import Croniq.StoredTimes
import Mathlib.Data.Char
import Mathlib.Data.List.Lex
import Mathlib.Data.List.Sort
import Mathlib.Data.Prod.Lex

/-!
# Listing executions page by page

The list is ordered by creation time and id, newest first, both compared as the
text the store holds.
-/

namespace Croniq

open Execution Function KeyedTables List

def maxExecutionsLimit : Nat := 100000

structure ExecutionFilter where
  (jobKey jobKeyContains : Option String)
  jobKeys : Option (List String)
  states : List ExecutionState
  runnerId : Option String
  (since untilTime : Option Int)
  untilId : Option Uuid
  limit : Option Nat
deriving DecidableEq

/-- A pattern for containment, with the wildcards escaped. -/
def likeContains (needle : String) : String :=
  "%" ++ ((needle.replace "\\" "\\\\").replace "%" "\\%").replace "_" "\\_" ++ "%"

namespace ExecutionFilter

-- How the database writes an id and matches a pattern.
variable (idText : Uuid → List Char) (like : String → String → Bool)

/-- The bound on the time, strict or, with an id, broken by it. -/
def isBelowCursor (filter : ExecutionFilter) (row : Execution) : Bool :=
  match filter.untilTime, filter.untilId with
  | none, _ => true
  | some untilTime, some untilId =>
    dtToSql row.createdAt < dtToSql untilTime ||
      (dtToSql row.createdAt = dtToSql untilTime && idText row.id < idText untilId)
  | some untilTime, none => dtToSql row.createdAt ≤ dtToSql untilTime

def selects (filter : ExecutionFilter) (row : Execution) : Bool :=
  filter.jobKey.all (row.jobKey = ·) &&
    filter.jobKeyContains.all (fun needle => like (likeContains needle) row.jobKey) &&
    filter.jobKeys.all (row.jobKey ∈ ·) &&
    (filter.states.isEmpty || row.state ∈ filter.states) &&
    filter.runnerId.all (row.runnerId = some ·) &&
    filter.since.all (fun since => dtToSql since ≤ dtToSql row.createdAt) &&
    filter.isBelowCursor idText row

def sortKey (row : Execution) : List Char ×ₗ List Char :=
  toLex (dtToSql row.createdAt, idText row.id)

/-- All rows the filter selects, in the order of the list. -/
def ordered (table : Table key) (filter : ExecutionFilter) : List Execution :=
  (table.rows.filter (filter.selects idText like)).insertionSort fun first second =>
    sortKey idText second ≤ sortKey idText first

def listExecutions (table : Table key) (filter : ExecutionFilter) : List Execution :=
  (filter.ordered idText like table).take (min (filter.limit.getD 100) maxExecutionsLimit)

def nextPage (filter : ExecutionFilter) (last : Execution) : ExecutionFilter :=
  { filter with untilTime := some last.createdAt, untilId := some last.id }

/-- Follow the cursors for at most so many pages. -/
def walkPages (table : Table key) : Nat → ExecutionFilter → Option (List Execution)
  | 0, _ => none
  | pages + 1, filter =>
    let rows := filter.listExecutions idText like table
    match rows.getLast? with
    | none => some []
    | some last => (walkPages table pages (filter.nextPage last)).map (rows ++ ·)

variable {idText like} {table : Table key} {filter : ExecutionFilter} {last : Execution}

theorem isBelowCursor_iff {row : Execution} {untilTime : Int} {untilId : Uuid}
    (isUntil : filter.untilTime = some untilTime) (isId : filter.untilId = some untilId) :
    filter.isBelowCursor idText row = true ↔
      sortKey idText row < toLex (dtToSql untilTime, idText untilId) := by
  simp [isBelowCursor,isUntil,isId,sortKey,Prod.Lex.toLex_lt_toLex]

theorem isBelowCursor_of_lt (lastBelow : filter.isBelowCursor idText last = true) {row : Execution}
    (below : sortKey idText row < sortKey idText last) :
    filter.isBelowCursor idText row = true := by
  cases isUntil : filter.untilTime with
  | none => simp [isBelowCursor,isUntil]
  | some untilTime =>
    cases isId : filter.untilId with
    | some =>
      rw [isBelowCursor_iff isUntil isId] at lastBelow ⊢
      exact below.trans lastBelow
    | none =>
      simp only [isBelowCursor,isUntil,isId,decide_eq_true_eq] at lastBelow ⊢
      rcases Prod.Lex.toLex_lt_toLex.mp below with earlier | ⟨same,-⟩
      · exact earlier.le.trans lastBelow
      · exact same.le.trans lastBelow

theorem selects_nextPage (selected : filter.selects idText like last = true) (row : Execution) :
    (filter.nextPage last).selects idText like row =
      (filter.selects idText like row && decide (sortKey idText row < sortKey idText last)) := by
  have lastBelow : filter.isBelowCursor idText last = true := (Bool.and_eq_true_iff.mp selected).2
  have narrows : (filter.nextPage last).isBelowCursor idText row =
      (filter.isBelowCursor idText row && decide (sortKey idText row < sortKey idText last)) := by
    rw [Bool.eq_iff_iff,isBelowCursor_iff rfl rfl,Bool.and_eq_true,decide_eq_true_eq]
    exact ⟨fun below => ⟨isBelowCursor_of_lt lastBelow below,below⟩,And.right⟩
  unfold selects
  rw [narrows,← Bool.and_assoc]
  rfl

theorem perm_ordered (filter : ExecutionFilter) (table : Table key) :
    (filter.ordered idText like table).Perm (table.rows.filter (filter.selects idText like)) :=
  perm_insertionSort _ _

theorem filter_eq_drop {rows : List Execution} (descending : rows.Pairwise fun first second =>
      sortKey idText second < sortKey idText first) {count : Nat}
    (isLast : (rows.take count).getLast? = some last) :
    rows.filter (fun row => sortKey idText row < sortKey idText last) = rows.drop count := by
  obtain ⟨page,isPage⟩ := getLast?_eq_some_iff.mp isLast
  nth_rewrite 1 [← take_append_drop count rows] at descending ⊢
  obtain ⟨pageDescending,-,after⟩ := pairwise_append.mp descending
  rw [filter_append,filter_eq_nil_iff.mpr,nil_append,filter_eq_self.mpr]
  · intro row isLeft
    exact decide_eq_true (after last (mem_of_getLast? isLast) row isLeft)
  · intro row isRow
    rw [isPage] at pageDescending isRow
    rw [decide_eq_true_eq,not_lt]
    rcases mem_append.mp isRow with earlier | isItself
    · exact ((pairwise_append.mp pageDescending).2.2 row earlier last (by simp)).le
    · rw [mem_singleton.mp isItself]

variable (distinct : (table.rows.map fun row => idText row.id).Nodup)
include distinct

theorem ordered_descending (filter : ExecutionFilter) :
    (filter.ordered idText like table).Pairwise fun first second =>
      sortKey idText second < sortKey idText first := by
  have differ : (filter.ordered idText like table).Pairwise fun first second =>
      sortKey idText first ≠ sortKey idText second := by
    refine ((perm_ordered filter table).pairwise_iff fun differ => differ.symm).mpr ?_
    refine ((pairwise_map.mp distinct).imp fun otherText same => otherText ?_).filter _
    exact (Prod.ext_iff.mp (toLex_inj.mp same)).2
  have sorted := pairwise_insertionSort
    (fun first second => sortKey idText second ≤ sortKey idText first)
    (table.rows.filter (filter.selects idText like))
  exact (sorted.and differ).imp fun ⟨le,ne⟩ => lt_of_le_of_ne le ne.symm

theorem ordered_nextPage {count : Nat}
    (isLast : ((filter.ordered idText like table).take count).getLast? = some last) :
    (filter.nextPage last).ordered idText like table =
      (filter.ordered idText like table).drop count := by
  have descending : (filter.ordered idText like table).Pairwise _ :=
    ordered_descending distinct filter
  have selected : filter.selects idText like last = true := by
    have isRow := mem_of_mem_take (mem_of_getLast? isLast)
    exact of_mem_filter ((perm_ordered filter table).mem_iff.mp isRow)
  rw [← filter_eq_drop descending isLast]
  have perm : ((filter.nextPage last).ordered idText like table).Perm
      ((filter.ordered idText like table).filter fun row =>
        sortKey idText row < sortKey idText last) := by
    refine (perm_ordered _ table).trans (.trans ?_ ((perm_ordered filter table).symm.filter _))
    rw [filter_filter,filter_congr fun row _ => selects_nextPage selected row]
    simp only [Bool.and_comm]
    exact .refl _
  exact perm.eq_of_pairwise (fun _ _ _ _ first second => absurd first second.asymm)
    (ordered_descending distinct _) (descending.filter _)

theorem walkPages_eq (limited : filter.limit ≠ some 0)
    {pages : Nat} (enough : (filter.ordered idText like table).length < pages) :
    walkPages idText like table pages filter = some (filter.ordered idText like table) := by
  induction pages generalizing filter with
  | zero => omega
  | succ pages ih =>
    have positive : 0 < min (filter.limit.getD 100) maxExecutionsLimit := by
      cases given : filter.limit with
      | none => decide
      | some limit =>
        have notZero : limit ≠ 0 := fun isZero => limited (by rw [given,isZero])
        exact lt_min (Nat.pos_of_ne_zero notZero) (by decide)
    rw [walkPages]
    cases isLast : (filter.listExecutions idText like table).getLast? with
    | none =>
      -- an empty page means that nothing is selected at all
      rcases take_eq_nil_iff.mp (getLast?_eq_none_iff.mp isLast) with isZero | isEmpty
      · omega
      · rw [isEmpty]
    | some last =>
      have rest := ordered_nextPage distinct isLast
      have someRow := ne_nil_of_mem (mem_of_mem_take (mem_of_getLast? isLast))
      have shorter := length_pos_iff.mpr someRow
      dsimp only
      have isRest : walkPages idText like table pages (filter.nextPage last) = _ :=
        ih limited (by rw [rest,length_drop]; omega)
      rw [isRest,rest,Option.map_some]
      exact congrArg some (take_append_drop _ _)

end ExecutionFilter

/-- Following the cursors gives every selected row once, in order. -/
theorem pages_complete (idText : Uuid → List Char) (like : String → String → Bool)
    (table : Table key) (distinct : (table.rows.map fun row => idText row.id).Nodup)
    (filter : ExecutionFilter) (limited : filter.limit ≠ some 0) :
    ∃ rows, (∀ pages, table.rows.length < pages →
        filter.walkPages idText like table pages = some rows) ∧
      rows.Perm (table.rows.filter (filter.selects idText like)) ∧
      rows.Pairwise fun first second =>
        ExecutionFilter.sortKey idText second < ExecutionFilter.sortKey idText first := by
  have perm : (filter.ordered idText like table).Perm _ := filter.perm_ordered table
  refine ⟨_,fun pages enough => ?_,perm,ExecutionFilter.ordered_descending distinct filter⟩
  refine ExecutionFilter.walkPages_eq distinct limited (Nat.lt_of_le_of_lt ?_ enough)
  rw [perm.length_eq]
  exact length_filter_le _ _

/-- The 32 hexadecimal digits with their hyphens. -/
def hyphenated (id : Uuid) : List Char :=
  ((Nat.toDigits 16 id).leftpad 32 '0').zipIdx.flatMap fun (digit, position) =>
    if position ∈ [8,12,16,20] then ['-',digit] else [digit]

/-- Three rows of one instant on pages of two. -/
theorem pages_complete_tied_rows :
    let row (id : Uuid) : Execution := (newExecution id "report" 0 0 none []).execution
    let table : Table key := ⟨[row 1,row 2,row 3],by decide⟩
    let filter : ExecutionFilter := ⟨none,none,none,[],none,none,none,none,some 2⟩
    ∃ rows, filter.walkPages hyphenated (fun _ _ => true) table 4 = some rows ∧
      rows.Perm [row 1,row 2,row 3] := by
  intro row table filter
  obtain ⟨rows,complete,perm,-⟩ := pages_complete hyphenated _ table (by decide) filter (by decide)
  exact ⟨rows,complete 4 (by decide),perm⟩

end Croniq

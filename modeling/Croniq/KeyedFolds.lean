import Mathlib.Data.List.Basic
import Mathlib.Data.List.Nodup

/-!
# Folds that work key by key

A loop over rows, each of which belongs to a key and touches nothing but the
entry of that key, does to the entry what a loop over the rows of the key does.
-/

namespace KeyedFolds

open List Prod

section

variable {State Row Key Entry : Type*} [DecidableEq Key] {keyOf : Row → Key}
  {entry : State → Key → Entry} {step : State → Row → State} {change : Entry → Row → Entry}

/-- The entry of a key after a loop is that of a loop over the rows of the key. -/
theorem entry_foldl
    (own : ∀ state row, entry (step state row) (keyOf row) = change (entry state (keyOf row)) row)
    (others : ∀ state row key, key ≠ keyOf row → entry (step state row) key = entry state key)
    (rows : List Row) (state : State) (key : Key) :
    entry (rows.foldl step state) key =
      (rows.filter (keyOf · = key)).foldl change (entry state key) := by
  induction rows generalizing state with
  | nil => rfl
  | cons row rows ih =>
    rw [foldl_cons,ih]
    by_cases isOwn : keyOf row = key
    · subst isOwn
      rw [own,filter_cons_of_pos (by simp),foldl_cons]
    · rw [others state row key (Ne.symm isOwn),filter_cons_of_neg (by simpa using isOwn)]

theorem entry_foldl_of_nodup {visit : State → Key → State} {effect : Entry → Key → Entry}
    (own : ∀ state key, entry (visit state key) key = effect (entry state key) key)
    (others : ∀ state visited key, key ≠ visited →
      entry (visit state visited) key = entry state key)
    {keys : List Key} (distinct : keys.Nodup) (state : State) (key : Key) :
    entry (keys.foldl visit state) key =
      if key ∈ keys then effect (entry state key) key else entry state key := by
  induction keys generalizing state with
  | nil => rfl
  | cons visited keys ih =>
    obtain ⟨isNew,distinct⟩ := nodup_cons.mp distinct
    rw [foldl_cons,ih distinct]
    by_cases isVisited : key = visited
    · subst isVisited
      rw [if_neg isNew,own,if_pos mem_cons_self]
    · simp only [others state visited key isVisited,mem_cons,isVisited,false_or]

theorem filter_eq_singleton {rows : List Row} (distinct : (rows.map keyOf).Nodup)
    {row : Row} (member : row ∈ rows) : rows.filter (keyOf · = keyOf row) = [row] := by
  induction rows with
  | nil => cases member
  | cons first rows ih =>
    obtain ⟨isNew,distinct⟩ := nodup_cons.mp distinct
    obtain rfl | member := mem_cons.mp member
    · have noOther : rows.filter (keyOf · = keyOf row) = [] := by
        rw [filter_eq_nil_iff]
        intro other isOther sameKey
        exact isNew (mem_map.mpr ⟨other,isOther,of_decide_eq_true sameKey⟩)
      rw [filter_cons_of_pos (by simp),noOther]
    · have isOther : keyOf first ≠ keyOf row := by
        intro sameKey
        exact isNew (sameKey ▸ mem_map_of_mem member)
      rw [filter_cons_of_neg (by simpa using isOther),ih distinct member]

end

section

variable {Row Value Trace : Type*} {make : Row → Option (Value × Trace)}

/-- A key that has a value keeps it. -/
def keepFirst (make : Row → Option (Value × Trace)) (entry : Option Value × List Trace)
    (row : Row) : Option Value × List Trace :=
  match entry.1, make row with
  | none, some (value, trace) => (some value, entry.2 ++ [trace])
  | _, _ => entry

/-- A later value replaces an earlier one; both leave their trace. -/
def keepLast (make : Row → Option (Value × Trace)) (entry : Option Value × List Trace)
    (row : Row) : Option Value × List Trace :=
  match make row with
  | some (value, trace) => (some value, entry.2 ++ [trace])
  | none => entry

theorem foldl_keepFirst_of_some (value : Value) (traces : List Trace) (rows : List Row) :
    rows.foldl (keepFirst make) (some value, traces) = (some value, traces) := by
  induction rows with
  | nil => rfl
  | cons row rows ih => exact ih

theorem foldl_keepFirst (rows : List Row) :
    rows.foldl (keepFirst make) (none, []) =
      ((rows.findSome? make).map fst, ((rows.findSome? make).map snd).toList) := by
  induction rows with
  | nil => rfl
  | cons row rows ih =>
    rw [foldl_cons,findSome?_cons,keepFirst]
    cases make row with
    | none => exact ih
    | some => exact foldl_keepFirst_of_some _ _ _

theorem foldl_keepLast (rows : List Row) (entry : Option Value × List Trace) :
    rows.foldl (keepLast make) entry =
      (((rows.filterMap make).getLast?.map fst).or entry.1,
        entry.2 ++ (rows.filterMap make).map snd) := by
  induction rows generalizing entry with
  | nil => simp
  | cons row rows ih =>
    rw [foldl_cons,ih,keepLast,filterMap_cons]
    cases make row with
    | none => rfl
    | some =>
      cases rows.filterMap make with
      | nil => simp
      | cons => simp [getLast?_cons]

variable {rows : List Row} {value : Value} {trace : Trace}

theorem exists_made_of_keepFirst (kept : (rows.foldl (keepFirst make) (none, [])).1 = some value)
    (last : (rows.foldl (keepFirst make) (none, [])).2.getLast? = some trace) :
    ∃ row ∈ rows, make row = some (value, trace) := by
  rw [foldl_keepFirst] at kept last
  obtain ⟨⟨_,made⟩,isMade,rfl⟩ := Option.map_eq_some_iff.mp kept
  rw [isMade] at last
  obtain rfl : made = trace := by simpa using last
  exact exists_of_findSome?_eq_some isMade

theorem exists_made_of_keepLast (kept : (rows.foldl (keepLast make) (none, [])).1 = some value)
    (last : (rows.foldl (keepLast make) (none, [])).2.getLast? = some trace) :
    ∃ row ∈ rows, make row = some (value, trace) := by
  rw [foldl_keepLast] at kept last
  rw [Option.or_none] at kept
  obtain ⟨⟨_,made⟩,isMade,rfl⟩ := Option.map_eq_some_iff.mp kept
  rw [nil_append,getLast?_map,isMade] at last
  obtain rfl : made = trace := by simpa using last
  exact mem_filterMap.mp (mem_of_getLast? isMade)

/-- The three rules agree, with one trace for a value, just if no row but the first makes anything.
-/
theorem kept_agree_iff (rows : List Row) : (rows.foldl (keepFirst make) (none, []) =
          (((rows.head?.bind make).map fst, ((rows.head?.bind make).map snd).toList)) ∧
        rows.foldl (keepLast make) (none, []) =
          ((rows.head?.bind make).map fst, ((rows.head?.bind make).map snd).toList)) ↔
      ∀ row ∈ rows.tail, make row = none := by
  rw [foldl_keepFirst,foldl_keepLast]
  cases rows with
  | nil => simp
  | cons row rows =>
    cases made : make row with
    | none =>
      constructor
      · rintro ⟨first,-⟩
        have nothing : rows.findSome? make = none := by
          simpa [findSome?_cons,made] using congrArg fst first
        simpa [findSome?_eq_none_iff] using nothing
      · intro silent
        have nothing : rows.filterMap make = [] := filterMap_eq_nil_iff.mpr silent
        have absent : rows.findSome? make = none := findSome?_eq_none_iff.mpr silent
        simp [made,nothing,absent]
    | some =>
      constructor
      · rintro ⟨-,last⟩
        have traces := congrArg snd last
        have nothing : rows.filterMap make = [] := by simpa [made] using traces
        exact filterMap_eq_nil_iff.mp nothing
      · intro silent
        have nothing : rows.filterMap make = [] := filterMap_eq_nil_iff.mpr silent
        simp [made,nothing]

end

end KeyedFolds

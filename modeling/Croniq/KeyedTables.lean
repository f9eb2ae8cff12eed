import Mathlib.Data.List.Basic
import Mathlib.Data.List.Nodup

/-!
# Tables with a primary key

A table holds its rows with a proof that no key repeats.
-/

namespace KeyedTables

open List

variable {Row Key : Type} {key : Row → Key}

structure Table (key : Row → Key) where
  rows : List Row
  keysUnique : (rows.map key).Nodup

/-- The rows that meet a condition are changed. -/
def changeWhere (condition : Row → Bool) (change : Row → Row) (row : Row) : Row :=
  if condition row then change row else row

namespace Table

def empty (key : Row → Key) : Table key where
  rows := []
  keysUnique := nodup_nil

def single (key : Row → Key) (row : Row) : Table key where
  rows := [row]
  keysUnique := nodup_singleton _

section

variable [DecidableEq Key] (table : Table key)

def find? (wanted : Key) : Option Row :=
  table.rows.find? (key · = wanted)

def insert (row : Row) : Option (Table key) :=
  if fresh : key row ∉ table.rows.map key then
    some
      { rows := table.rows ++ [row]
        keysUnique := by
          rw [map_append,nodup_append]
          refine ⟨table.keysUnique,by simp,?_⟩
          intro present isPresent added isAdded same
          rw [map_singleton,mem_singleton] at isAdded
          rw [same,isAdded] at isPresent
          exact fresh isPresent }
  else none

def delete (gone : Key) : Table key where
  rows := table.rows.filter (key · ≠ gone)
  keysUnique := table.keysUnique.sublist (filter_sublist.map key)

end

section

variable (table : Table key)

section

variable (condition : Row → Bool)

def deleteWhere : Table key where
  rows := table.rows.filter fun row => !condition row
  keysUnique := table.keysUnique.sublist (filter_sublist.map key)

def updateWhere (change : Row → Row)
    (keepsKey : ∀ row, key (change row) = key row) : Table key where
  rows := table.rows.map (changeWhere condition change)
  keysUnique := by
    have sameKeys : (table.rows.map (changeWhere condition change)).map key =
        table.rows.map key := by
      rw [map_map]
      apply map_congr_left
      intro row _
      simp only [Function.comp_apply,changeWhere]
      split
      · exact keepsKey row
      · rfl
    rw [sameKeys]
    exact table.keysUnique

def count : Nat :=
  table.rows.countP condition

end

theorem eq_of_mem {first second : Row} (isFirst : first ∈ table.rows)
    (isSecond : second ∈ table.rows) (sameKey : key first = key second) : first = second :=
  inj_on_of_nodup_map table.keysUnique isFirst isSecond sameKey

end

section Lookup

variable [DecidableEq Key] (table : Table key) {wanted : Key} {row : Row} {condition : Row → Bool}
  {inserted : Table key} {relation : Row → Row → Prop}

theorem find?_eq_some_iff :
    table.find? wanted = some row ↔ row ∈ table.rows ∧ key row = wanted := by
  constructor
  · intro found
    exact ⟨mem_of_find?_eq_some found,by simpa using find?_some found⟩
  · rintro ⟨isRow,rfl⟩
    obtain ⟨other,found⟩ : ∃ other, table.find? (key row) = some other :=
      Option.isSome_iff_exists.mp (find?_isSome.mpr ⟨row,isRow,by simp⟩)
    have sameKey : key other = key row := by simpa using find?_some found
    rwa [table.eq_of_mem (mem_of_find?_eq_some found) isRow sameKey] at found

theorem key_of_find? (found : table.find? wanted = some row) : key row = wanted :=
  (table.find?_eq_some_iff.mp found).2

theorem find?_eq_none_iff : table.find? wanted = none ↔ wanted ∉ table.rows.map key := by
  simp [find?,find?_eq_none]

theorem find?_updateWhere (condition : Row → Bool) (change : Row → Row)
    (keepsKey : ∀ row, key (change row) = key row) (wanted : Key) :
    (table.updateWhere condition change keepsKey).find? wanted =
      (table.find? wanted).map (changeWhere condition change) := by
  have sameKey : ∀ row, key (changeWhere condition change row) = key row := by
    intro row
    unfold changeWhere
    split
    · exact keepsKey row
    · rfl
  simp only [find?,updateWhere]
  induction table.rows with
  | nil => rfl
  | cons row rows ih =>
    by_cases found : key row = wanted
    · simp [sameKey,found]
    · simp [sameKey,found,ih]

section

variable {change : Row → Row} (keepsKey : ∀ row, key (change row) = key row)
  (found : table.find? wanted = some row)

include found

theorem find?_updateWhere_of_met (met : condition row = true) :
    (table.updateWhere condition change keepsKey).find? wanted = some (change row) := by
  rw [find?_updateWhere,found,Option.map_some,changeWhere,if_pos met]

theorem find?_updateWhere_of_not (unmet : condition row = false) :
    (table.updateWhere condition change keepsKey).find? wanted = some row := by
  rw [find?_updateWhere,found,Option.map_some,changeWhere,unmet]
  rfl

end

theorem rows_insert (inserts : table.insert row = some inserted) :
    inserted.rows = table.rows ++ [row] := by
  unfold insert at inserts
  split at inserts
  · cases inserts
    rfl
  · cases inserts

theorem find?_eq_none_of_insert (inserts : table.insert row = some inserted) :
    table.find? (key row) = none := by
  unfold insert at inserts
  split at inserts
  · rename_i fresh
    exact table.find?_eq_none_iff.mpr fresh
  · cases inserts

theorem exists_insert_of_find?_eq_none (fresh : table.find? (key row) = none) :
    ∃ inserted, table.insert row = some inserted := by
  unfold insert
  rw [dif_pos (table.find?_eq_none_iff.mp fresh)]
  exact ⟨_,rfl⟩

theorem find?_insert (inserts : table.insert row = some inserted) (wanted : Key) :
    inserted.find? wanted = if key row = wanted then some row else table.find? wanted := by
  have notFound := table.find?_eq_none_of_insert inserts
  unfold find? at notFound ⊢
  rw [table.rows_insert inserts,find?_append]
  split
  · rename_i sameKey
    subst sameKey
    simp [notFound]
  · rename_i otherKey
    simp [otherKey]

theorem find?_delete (gone wanted : Key) :
    (table.delete gone).find? wanted = if gone = wanted then none else table.find? wanted := by
  simp only [find?,delete,find?_filter]
  by_cases same : gone = wanted
  · rw [if_pos same,find?_eq_none]
    intro row _ found
    simp only [decide_eq_true_eq] at found
    exact found.1 (found.2.trans same.symm)
  · rw [if_neg same]
    congr 1
    funext row
    by_cases isRow : key row = wanted
    · simp [isRow,Ne.symm same]
    · simp [isRow]

theorem find?_foldl_delete (gone : List Key) (wanted : Key) :
    (gone.foldl delete table).find? wanted =
      if wanted ∈ gone then none else table.find? wanted := by
  induction gone generalizing table with
  | nil => simp
  | cons first rest ih =>
    rw [foldl_cons,ih,find?_delete]
    by_cases isFirst : first = wanted
    · simp [isFirst]
    · simp [isFirst,Ne.symm isFirst]

/-- Insert a row, or change the row with its key: what a lookup sees of both. -/
theorem find?_upsert {Field : Type*} (field : Row → Field) (row : Row) (change : Row → Row)
    (keepsKey : ∀ old, key (change old) = key old)
    (changed : ∀ old, key old = key row → field (change old) = field row) (wanted : Key) :
    (((table.insert row).getD
        (table.updateWhere (fun old => key old = key row) change keepsKey)).find? wanted).map
        field = if key row = wanted then some (field row) else (table.find? wanted).map field := by
  cases inserts : table.insert row with
  | some =>
    rw [Option.getD_some,table.find?_insert inserts]
    split <;> rfl
  | none =>
    rw [Option.getD_none,find?_updateWhere,Option.map_map]
    cases found : table.find? wanted with
    | none =>
      rw [if_neg]
      · rfl
      · rintro rfl
        obtain ⟨inserted,inserts'⟩ := table.exists_insert_of_find?_eq_none found
        rw [inserts] at inserts'
        cases inserts'
    | some old =>
      have sameKey := table.key_of_find? found
      simp only [Option.map_some,Function.comp_apply,changeWhere,decide_eq_true_eq,sameKey]
      by_cases isRow : key row = wanted
      · rw [if_pos isRow.symm,if_pos isRow,changed old (sameKey.trans isRow.symm)]
      · rw [if_neg (Ne.symm isRow),if_neg isRow]

theorem find?_insert_of_found {added : Row} (inserts : table.insert added = some inserted)
    (found : table.find? wanted = some row) : inserted.find? wanted = some row := by
  rw [find?_insert table inserts,if_neg,found]
  rintro rfl
  rw [table.find?_eq_none_of_insert inserts] at found
  cases found

/-- Every row is still there, changed as the relation allows. -/
def Keeps (relation : Row → Row → Prop) (before after : Table key) : Prop :=
  ∀ ⦃wanted row⦄, before.find? wanted = some row →
    ∃ later, after.find? wanted = some later ∧ relation row later

theorem keeps_self (same : ∀ row, relation row row) : Keeps relation table table :=
  fun _ row found => ⟨row,found,same row⟩

theorem Keeps.trans (chain : ∀ {first second third}, relation first second → relation second third →
      relation first third) {first second third : Table key}
    (earlier : Keeps relation first second) (later : Keeps relation second third) :
    Keeps relation first third := by
  intro wanted row found
  obtain ⟨middle,foundMiddle,toMiddle⟩ := earlier found
  obtain ⟨last,foundLast,toLast⟩ := later foundMiddle
  exact ⟨last,foundLast,chain toMiddle toLast⟩

theorem keeps_insert (same : ∀ row, relation row row) {added : Row}
    (inserts : table.insert added = some inserted) : Keeps relation table inserted :=
  fun _ row found => ⟨row,table.find?_insert_of_found inserts found,same row⟩

theorem keeps_updateWhere (same : ∀ row, relation row row) {change : Row → Row}
    {keepsKey : ∀ row, key (change row) = key row} (allowed : ∀ row, relation row (change row)) :
    Keeps relation table (table.updateWhere condition change keepsKey) := by
  intro wanted row found
  refine ⟨changeWhere condition change row,?_,?_⟩
  · rw [find?_updateWhere,found,Option.map_some]
  · unfold changeWhere
    split
    · exact allowed row
    · exact same row

theorem count_pos_iff {only : Key} (oneKey : ∀ row, condition row = true → key row = only) :
    0 < table.count condition ↔ ∃ row, table.find? only = some row ∧ condition row = true := by
  rw [count,countP_pos_iff]
  constructor
  · rintro ⟨row,isRow,met⟩
    exact ⟨row,table.find?_eq_some_iff.mpr ⟨isRow,oneKey row met⟩,met⟩
  · rintro ⟨row,found,met⟩
    exact ⟨row,(table.find?_eq_some_iff.mp found).1,met⟩

theorem exists_of_one_lt_count (several : 1 < table.count condition) (only : Key) :
    ∃ row ∈ table.rows, condition row = true ∧ key row ≠ only := by
  rw [count,countP_eq_length_filter] at several
  have unique : ((table.rows.filter condition).map key).Nodup :=
    table.keysUnique.sublist (filter_sublist.map key)
  have isRow : ∀ row ∈ table.rows.filter condition, row ∈ table.rows ∧ condition row = true :=
    fun row member => mem_filter.mp member
  match meets : table.rows.filter condition with
  | [] => simp [meets] at several
  | [_] => simp [meets] at several
  | first :: second :: _ =>
    rw [meets] at unique isRow
    have differ : key first ≠ key second := by
      intro same
      simp [same] at unique
    by_cases isOnly : key first = only
    · obtain ⟨member,met⟩ := isRow second (by simp)
      exact ⟨second,member,met,fun alsoOnly => differ (isOnly.trans alsoOnly.symm)⟩
    · obtain ⟨member,met⟩ := isRow first (by simp)
      exact ⟨first,member,met,isOnly⟩

end Lookup

variable {condition : Row → Bool} {change : Row → Row}

theorem mem_updateWhere {table : Table key} {keepsKey : ∀ row, key (change row) = key row}
    {row : Row} :
    row ∈ (table.updateWhere condition change keepsKey).rows ↔
      ∃ old ∈ table.rows, changeWhere condition change old = row := by
  simp [updateWhere]

section

variable (table : Table key) (keepsKey : ∀ row, key (change row) = key row)
include table keepsKey

theorem updateWhere_eq_self (noRow : table.count condition = 0) :
    table.updateWhere condition change keepsKey = table := by
  have sameRows : table.rows.map (changeWhere condition change) = table.rows := by
    conv_rhs => rw [← map_id table.rows]
    apply map_congr_left
    intro row isRow
    exact if_neg (countP_eq_zero.mp noRow row isRow)
  cases table
  simp only [updateWhere,mk.injEq]
  exact sameRows

variable {counted : Row → Bool}

theorem count_updateWhere_le
    (bringsNone : ∀ row ∈ table.rows, condition row = true → counted (change row) = true →
      counted row = true) :
    (table.updateWhere condition change keepsKey).count counted ≤ table.count counted := by
  unfold count updateWhere
  rw [countP_map]
  apply countP_mono_left
  intro row isRow after
  rw [Function.comp_apply,changeWhere] at after
  split at after
  · exact bringsNone row isRow ‹_› after
  · exact after

theorem count_updateWhere_le_succ {only : Key}
    (oneKey : ∀ row, condition row = true → key row = only) :
    (table.updateWhere condition change keepsKey).count counted ≤ table.count counted + 1 := by
  obtain ⟨rows,keysUnique⟩ := table
  simp only [count,updateWhere,countP_map]
  induction rows with
  | nil => simp
  | cons row rows ih =>
    obtain ⟨headFresh,restUnique⟩ := nodup_cons.mp keysUnique
    by_cases changed : condition row = true
    · have restUnchanged : rows.countP (counted ∘ changeWhere condition change) =
          rows.countP counted := by
        apply countP_congr
        intro other isOther
        have notChanged : condition other = false := by
          by_contra alsoChanged
          rw [Bool.not_eq_false] at alsoChanged
          apply headFresh
          rw [oneKey row changed,← oneKey other alsoChanged]
          exact mem_map_of_mem isOther
        simp [changeWhere,notChanged]
      rw [countP_cons,countP_cons,restUnchanged]
      split <;> split <;> omega
    · have unchanged : (counted ∘ changeWhere condition change) row = counted row := by
        simp [changeWhere,changed]
      rw [countP_cons,countP_cons,unchanged]
      have := ih restUnique
      omega

end

end Table

end KeyedTables

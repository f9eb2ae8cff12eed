import Mathlib.Data.Finset.Card
import Mathlib.Data.List.Pairwise
import Mathlib.Logic.Relation

/-!
# Resolving imports

Loading a file replaces each of its import directives by the items of the files
that it matches, which are loaded in the same way.
-/

namespace Croniq

open List

inductive ImportError (File : Type*) where
  | invalidPath (path : String)
  | globError (pattern : String)
  | noMatches (path : String)
  | circularImport (file : File)

inductive FileError where
  | unreadable
  | parse (message : String)

inductive SourceItem (Item : Type*) where
  | item (declared : Item)
  | importFiles (path : String)

/-- Reading and parsing a file, and the files an import in it matches, in order and by their
canonical names. -/
structure FileSystem (File Item : Type*) where
  read : File → Except FileError (List (SourceItem Item))
  expand : File → String → Except (ImportError File) (List File)

/-- `resolved` records the matches of every import with the files visited before it. -/
structure ImportState (File : Type*) where
  visited : List File
  resolved : List (List File × List File)

section

variable {File Item : Type*} [DecidableEq File]

/-- Mark the matches of an import up to the first visited one. -/
def markMatches : List File → List File → Option File × List File
  | [], visited => (none, visited)
  | file :: files, visited =>
    if file ∈ visited then (some file, visited) else markMatches files (file :: visited)

variable (fs : FileSystem File Item)

def resolveImportsWithVisited (base : File) (path : String)
    (state : ImportState File) : Except (ImportError File) (List File) × ImportState File :=
  match fs.expand base path with
  | .error error => (.error error, state)
  | .ok [] => (.error (.noMatches path), state)
  | .ok paths =>
    let marked := markMatches paths state.visited
    let next : ImportState File :=
      { visited := marked.2, resolved := state.resolved ++ [(paths, state.visited)] }
    match marked.1 with
    | some file => (.error (.circularImport file), next)
    | none => (.ok paths, next)

/-- What loading a file returns: without fuel nothing. -/
abbrev LoadResult (File Item : Type*) :=
  Option (Except FileError (List Item) × ImportState File)

/-- Load the matches of an import one by one; a file that fails is skipped. -/
def loadMatches (load : File → ImportState File → LoadResult File Item) :
    List File → ImportState File → Option (List Item × ImportState File)
  | [], state => some ([], state)
  | file :: files, state =>
    (load file state).bind fun loaded =>
      (loadMatches load files loaded.2).map fun rest =>
        ((loaded.1.toOption.getD []) ++ rest.1, rest.2)

/-- Replace the imports among the items; one that fails is skipped. -/
def resolveItems (fs : FileSystem File Item)
    (load : File → ImportState File → LoadResult File Item) (file : File) :
    List (SourceItem Item) → ImportState File → Option (List Item × ImportState File)
  | [], state => some ([], state)
  | .item declared :: items, state =>
    (resolveItems fs load file items state).map fun rest => (declared :: rest.1, rest.2)
  | .importFiles path :: items, state =>
    let found := resolveImportsWithVisited fs file path state
    (loadMatches load (found.1.toOption.getD []) found.2).bind fun imported =>
      (resolveItems fs load file items imported.2).map fun rest => (imported.1 ++ rest.1, rest.2)

def loadAndResolve (fs : FileSystem File Item) : Nat → File → ImportState File →
    LoadResult File Item
  | 0, _, _ => none
  | fuel + 1, file, state =>
    match fs.read file with
    | .error error => some (.error error, state)
    | .ok items =>
      (resolveItems fs (loadAndResolve fs fuel) file items state).map fun resolved =>
        (.ok resolved.1, resolved.2)

/-- The root is visited from the start. -/
def loadFile (fuel : Nat) (root : File) : LoadResult File Item :=
  loadAndResolve fs fuel root { visited := [root], resolved := [] }

end

def SourceItem.own {Item : Type*} : SourceItem Item → Option Item
  | .item declared => some declared
  | .importFiles _ => none

namespace FileSystem

variable {File Item : Type*} (fs : FileSystem File Item)

def ownItems (file : File) : List Item :=
  match fs.read file with
  | .ok items => items.filterMap SourceItem.own
  | .error _ => []

def Imports (file other : File) : Prop :=
  ∃ items path files, fs.read file = .ok items ∧ .importFiles path ∈ items ∧
    fs.expand file path = .ok files ∧ other ∈ files

def Reachable : File → File → Prop :=
  Relation.ReflTransGen fs.Imports

/-- The files all parse, and their imports all match files of the list. -/
structure Closed (fs : FileSystem File Item) (all : List File) : Prop where
  reads : ∀ file ∈ all, ∃ items, fs.read file = .ok items
  matched : ∀ file ∈ all, ∀ items, fs.read file = .ok items → ∀ path, .importFiles path ∈ items →
    ∃ files, fs.expand file path = .ok files ∧ files ≠ [] ∧ files ⊆ all

end FileSystem

/-- An import found none of its matches visited, or all. -/
def Unmixed {File : Type*} (entry : List File × List File) : Prop :=
  (entry.1.Nodup ∧ ∀ file ∈ entry.1, file ∉ entry.2) ∨ ∀ file ∈ entry.1, file ∈ entry.2

instance {File : Type*} [DecidableEq File] (entry : List File × List File) :
    Decidable (Unmixed entry) := inferInstanceAs (Decidable (_ ∨ _))

/-- What an import marked was visited for every later one, and still is. -/
structure ImportState.Ordered {File : Type*} [DecidableEq File] (state : ImportState File) :
    Prop where
  earlier : state.resolved.Pairwise fun entry later => (markMatches entry.1 entry.2).2 ⊆ later.2
  visited : ∀ entry ∈ state.resolved, (markMatches entry.1 entry.2).2 ⊆ state.visited

/-- Loading the pending files, which are visited, loads the files `new` and puts out
their items. -/
structure Loads {File Item : Type*} [DecidableEq File] (fs : FileSystem File Item)
    (all : List File) (root : File) (pending : List File) (state next : ImportState File)
    (new : List File) (out : List Item) : Prop where
  grows : state.visited ⊆ next.visited
  within : next.visited ⊆ all
  loadsPending : pending ⊆ new
  nodup : new.Nodup
  fresh : ∀ file ∈ new, file ∈ pending ∨ file ∉ state.visited
  marked : new ⊆ next.visited
  reached : ∀ file ∈ new, fs.Reachable root file
  items : out.Perm (new.flatMap fs.ownItems)
  recorded : state.resolved ⊆ next.resolved
  since : ∀ entry ∈ next.resolved, entry ∈ state.resolved ∨
    state.visited ⊆ entry.2 ∧ ∀ file ∈ entry.1, fs.Reachable root file
  ordered : state.Ordered → next.Ordered
  accepted : ∀ file ∈ new, file ∈ pending ∨
    ∃ entry ∈ next.resolved, (markMatches entry.1 entry.2).1 = none ∧ file ∈ entry.1
  complete : (∀ entry ∈ next.resolved, Unmixed entry) →
    (∀ file ∈ next.visited, file ∈ state.visited ∨ file ∈ new) ∧
      ∀ file ∈ new, ∀ other, fs.Imports file other → other ∈ next.visited

namespace Loads

variable {File Item : Type*} [DecidableEq File] {fs : FileSystem File Item} {all : List File}
  {root : File}
  {first second third : ImportState File}

theorem nothing (within : first.visited ⊆ all) : Loads fs all root [] first first [] [] where
  grows := List.Subset.refl _
  within := within
  loadsPending := List.Subset.refl _
  nodup := nodup_nil
  fresh := nofun
  marked := nil_subset _
  reached := nofun
  items := .refl _
  recorded := List.Subset.refl _
  since := fun _ => .inl
  ordered := id
  accepted := nofun
  complete := fun _ => ⟨fun _ => .inl,nofun⟩

/-- Loads one after the other; what is pending for the second is not loaded by the
first. -/
theorem append {pending later new more : List File} {out rest : List Item}
    (loads : Loads fs all root pending first second new out)
    (continues : Loads fs all root later second third more rest)
    (apart : ∀ file ∈ later, file ∈ first.visited ∧ file ∉ pending) :
    Loads fs all root (pending ++ later) first third (new ++ more) (out ++ rest) where
  grows := List.Subset.trans loads.grows continues.grows
  within := continues.within
  loadsPending := append_subset.mpr
    ⟨subset_append_of_subset_left _ loads.loadsPending,
      subset_append_of_subset_right _ continues.loadsPending⟩
  nodup := by
    refine nodup_append.mpr ⟨loads.nodup,continues.nodup,?_⟩
    rintro file isNew _ isMore rfl
    rcases continues.fresh file isMore with isLater | notVisited
    · rcases loads.fresh file isNew with isPending | notVisited
      · exact (apart file isLater).2 isPending
      · exact notVisited (apart file isLater).1
    · exact notVisited (loads.marked isNew)
  fresh := by
    intro file member
    rcases mem_append.mp member with isNew | isMore
    · exact (loads.fresh file isNew).imp_left (mem_append_left _)
    · rcases continues.fresh file isMore with isLater | notVisited
      · exact .inl (mem_append_right _ isLater)
      · exact .inr fun wasVisited => notVisited (loads.grows wasVisited)
  marked := append_subset.mpr
    ⟨List.Subset.trans loads.marked continues.grows,continues.marked⟩
  reached := fun file member =>
    (mem_append.mp member).elim (loads.reached file) (continues.reached file)
  items := by
    rw [flatMap_append]
    exact loads.items.append continues.items
  recorded := List.Subset.trans loads.recorded continues.recorded
  since := by
    intro entry member
    rcases continues.since entry member with isEntry | since
    · exact loads.since entry isEntry
    · exact .inr ⟨List.Subset.trans loads.grows since.1,since.2⟩
  ordered := fun ordered => continues.ordered (loads.ordered ordered)
  accepted := by
    intro file member
    rcases mem_append.mp member with isNew | isMore
    · rcases loads.accepted file isNew with isPending | ⟨entry,isEntry,accepts⟩
      · exact .inl (mem_append_left _ isPending)
      · exact .inr ⟨entry,continues.recorded isEntry,accepts⟩
    · exact (continues.accepted file isMore).imp_left (mem_append_right _)
  complete := by
    intro unmixed
    obtain ⟨firstCovered,firstClosed⟩ :=
      loads.complete fun entry member => unmixed entry (continues.recorded member)
    obtain ⟨secondCovered,secondClosed⟩ := continues.complete unmixed
    refine ⟨fun file isVisited => ?_,fun file member other imports => ?_⟩
    · rcases secondCovered file isVisited with wasVisited | isMore
      · exact (firstCovered file wasVisited).imp_right (mem_append_left _)
      · exact .inr (mem_append_right _ isMore)
    · rcases mem_append.mp member with isNew | isMore
      · exact continues.grows (firstClosed file isNew other imports)
      · exact secondClosed file isMore other imports

end Loads

section

variable {File : Type*} [DecidableEq File]

theorem subset_markMatches (files visited : List File) :
    visited ⊆ (markMatches files visited).2 := by
  induction files generalizing visited with
  | nil => exact List.Subset.refl _
  | cons file files ih =>
    unfold markMatches
    split
    · exact List.Subset.refl _
    · exact List.Subset.trans (subset_cons_self file visited) (ih _)

variable {files visited all : List File} {file : File}

theorem markMatches_subset (matched : files ⊆ all) (within : visited ⊆ all) :
    (markMatches files visited).2 ⊆ all := by
  induction files generalizing visited with
  | nil => exact within
  | cons file files ih =>
    obtain ⟨isFile,areFiles⟩ := cons_subset.mp matched
    unfold markMatches
    split
    · exact within
    · exact ih areFiles (cons_subset.mpr ⟨isFile,within⟩)

theorem mem_of_mem_markMatches (isMarked : file ∈ (markMatches files visited).2) :
    file ∈ files ∨ file ∈ visited := by
  have within : (markMatches files visited).2 ⊆ files ++ visited :=
    markMatches_subset (subset_append_left _ _) (subset_append_right _ _)
  exact mem_append.mp (within isMarked)

theorem markMatches_eq_none (accepted : (markMatches files visited).1 = none) :
    files.Nodup ∧ (∀ file ∈ files, file ∉ visited) ∧
      ∀ file, file ∈ (markMatches files visited).2 ↔ file ∈ files ∨ file ∈ visited := by
  induction files generalizing visited with
  | nil => exact ⟨nodup_nil,fun _ member => (nomatch member),by simp [markMatches]⟩
  | cons file files ih =>
    unfold markMatches at accepted ⊢
    split at accepted
    · cases accepted
    rename_i notVisited
    obtain ⟨nodup,fresh,marked⟩ := ih accepted
    refine ⟨nodup_cons.mpr ⟨?_,nodup⟩,?_,?_⟩
    · exact fun isLater => fresh file isLater mem_cons_self
    · exact forall_mem_cons.mpr ⟨notVisited,fun other isLater wasVisited =>
        fresh other isLater (mem_cons_of_mem file wasVisited)⟩
    · intro other
      rw [if_neg notVisited,marked other,mem_cons,mem_cons]
      tauto

theorem markMatches_of_fresh (nodup : files.Nodup) (fresh : ∀ file ∈ files, file ∉ visited) :
    (markMatches files visited).1 = none := by
  induction files generalizing visited with
  | nil => rfl
  | cons file files ih =>
    obtain ⟨notLater,nodupLater⟩ := nodup_cons.mp nodup
    rw [markMatches,if_neg (fresh file mem_cons_self)]
    refine ih nodupLater fun other isLater => ?_
    rw [mem_cons,not_or]
    exact ⟨fun same => notLater (same ▸ isLater),
      fresh other (mem_cons_of_mem file isLater)⟩

theorem markMatches_of_unmixed (refused : (markMatches files visited).1 = some file)
    (unmixed : Unmixed (files, visited)) :
    (∀ other ∈ files, other ∈ visited) ∧ (markMatches files visited).2 = visited := by
  rcases unmixed with ⟨nodup,fresh⟩ | allVisited
  · rw [markMatches_of_fresh nodup fresh] at refused
    cases refused
  refine ⟨allVisited,?_⟩
  cases files with
  | nil => rfl
  | cons first => rw [markMatches,if_pos (allVisited first mem_cons_self)]

def unvisited (all : List File) (state : ImportState File) : Nat :=
  (all.toFinset \ state.visited.toFinset).card

section

variable {state next : ImportState File} (grows : state.visited ⊆ next.visited)
include grows

theorem unvisited_subset :
    all.toFinset \ next.visited.toFinset ⊆ all.toFinset \ state.visited.toFinset := by
  refine Finset.sdiff_subset_sdiff (Finset.Subset.refl _) fun file isVisited => ?_
  exact mem_toFinset.mpr (grows (mem_toFinset.mp isVisited))

theorem unvisited_le : unvisited all next ≤ unvisited all state :=
  Finset.card_le_card (unvisited_subset grows)

theorem unvisited_lt
    (isFile : file ∈ all) (notBefore : file ∉ state.visited) (isNow : file ∈ next.visited) :
    unvisited all next < unvisited all state := by
  refine Finset.card_lt_card
    ((Finset.ssubset_iff_of_subset (unvisited_subset grows)).mpr ⟨file,?_,?_⟩)
  · simp [isFile,notBefore]
  · simp [isNow]

end

end

section Loading

variable {File Item : Type*} [DecidableEq File] {fs : FileSystem File Item} {all : List File}
  {root : File}

/-- What a load does with fuel for the files still to be visited. -/
def LoadsWithin (fs : FileSystem File Item) (all : List File) (root : File) (fuel : Nat)
    (load : File → ImportState File → LoadResult File Item) : Prop :=
  ∀ file state, file ∈ all → fs.Reachable root file → file ∈ state.visited →
    state.visited ⊆ all → unvisited all state < fuel →
      ∃ items next new, load file state = some (.ok items, next) ∧
        Loads fs all root [file] state next new items

variable {fuel : Nat} {load : File → ImportState File → LoadResult File Item} {files : List File}
  {state : ImportState File} {file : File}

theorem ImportState.Ordered.resolve (ordered : state.Ordered) (files : List File) :
    ImportState.Ordered ⟨(markMatches files state.visited).2,
      state.resolved ++ [(files, state.visited)]⟩ where
  earlier := by
    refine pairwise_append.mpr ⟨ordered.earlier,pairwise_singleton _ _,?_⟩
    intro entry isEntry last isLast
    cases mem_singleton.mp isLast
    exact ordered.visited entry isEntry
  visited := by
    exact forall_mem_append.mpr ⟨fun entry isEntry =>
      List.Subset.trans (ordered.visited entry isEntry) (subset_markMatches _ _),
      forall_mem_singleton.mpr (List.Subset.refl _)⟩

section

variable (reached : ∀ file ∈ files, fs.Reachable root file)
include reached

theorem loadMatches_spec (loads : LoadsWithin fs all root fuel load) (nodup : files.Nodup)
    (areFiles : files ⊆ all) (visited : files ⊆ state.visited) (within : state.visited ⊆ all)
    (enough : unvisited all state < fuel) :
    ∃ items next new, loadMatches load files state = some (items, next) ∧
      Loads fs all root files state next new items := by
  induction files generalizing state with
  | nil => exact ⟨[],state,[],rfl,.nothing within⟩
  | cons file files ih =>
    obtain ⟨notLater,nodupLater⟩ := nodup_cons.mp nodup
    obtain ⟨isFile,laterFiles⟩ := cons_subset.mp areFiles
    obtain ⟨isVisited,laterVisited⟩ := cons_subset.mp visited
    obtain ⟨fileReached,laterReached⟩ := forall_mem_cons.mp reached
    obtain ⟨items,next,new,loaded,loadsFile⟩ :=
      loads file state isFile fileReached isVisited within enough
    obtain ⟨rest,final,more,loadedRest,loadsRest⟩ := ih laterReached nodupLater laterFiles
      (List.Subset.trans laterVisited loadsFile.grows) loadsFile.within
      (lt_of_le_of_lt (unvisited_le loadsFile.grows) enough)
    refine ⟨items ++ rest,final,new ++ more,?_,loadsFile.append loadsRest ?_⟩
    · simp only [loadMatches,loaded,Option.bind_some,loadedRest,Option.map_some]
      rfl
    · intro other isLater
      refine ⟨laterVisited isLater,fun same => notLater ?_⟩
      rwa [← mem_singleton.mp same]

omit [DecidableEq File] in
theorem since_resolve (state : ImportState File) :
    ∀ entry ∈ state.resolved ++ [(files, state.visited)], entry ∈ state.resolved ∨
      state.visited ⊆ entry.2 ∧ ∀ file ∈ entry.1, fs.Reachable root file := by
  intro entry member
  rcases mem_append.mp member with isEntry | isLast
  · exact .inl isEntry
  · cases mem_singleton.mp isLast
    exact .inr ⟨List.Subset.refl _,reached⟩

theorem Loads.of_accepted {visited new : List File} {next : ImportState File} {out : List Item}
    (accepted : (markMatches files state.visited).1 = none)
    (isMarked : visited = (markMatches files state.visited).2) (loads : Loads fs all root files
      { visited, resolved := state.resolved ++ [(files, state.visited)] } next new out) :
    Loads fs all root [] state next new out := by
  subst isMarked
  obtain ⟨-,fresh,marked⟩ := markMatches_eq_none accepted
  have grows := subset_markMatches files state.visited
  refine { loads with
    grows := List.Subset.trans grows loads.grows
    loadsPending := nil_subset _
    fresh := ?_
    recorded := List.Subset.trans (subset_append_left _ _) loads.recorded
    since := ?_
    ordered := fun ordered => loads.ordered (ordered.resolve files)
    accepted := ?_
    complete := ?_ }
  · intro file isNew
    rcases loads.fresh file isNew with isMatch | notVisited
    · exact .inr (fresh file isMatch)
    · exact .inr fun wasVisited => notVisited (grows wasVisited)
  · intro entry member
    rcases loads.since entry member with isEntry | since
    · exact since_resolve reached state entry isEntry
    · exact .inr ⟨List.Subset.trans grows since.1,since.2⟩
  · intro file isNew
    rcases loads.accepted file isNew with isMatch | accepts
    · refine .inr ⟨(files, state.visited),loads.recorded ?_,accepted,isMatch⟩
      exact mem_append_right _ mem_cons_self
    · exact .inr accepts
  · intro unmixed
    obtain ⟨covered,closed⟩ := loads.complete unmixed
    refine ⟨fun file isVisited => ?_,closed⟩
    rcases covered file isVisited with isMarked | isNew
    · rcases (marked file).mp isMarked with isMatch | wasVisited
      · exact .inr (loads.loadsPending isMatch)
      · exact .inl wasVisited
    · exact .inr isNew

theorem Loads.of_refused (refused : (markMatches files state.visited).1 = some file)
    (areFiles : files ⊆ all) (within : state.visited ⊆ all) :
    Loads fs all root [] state
      { visited := (markMatches files state.visited).2
        resolved := state.resolved ++ [(files, state.visited)] } [] ([] : List Item) := by
  refine { nothing (markMatches_subset areFiles within) with
    grows := subset_markMatches files state.visited
    fresh := nofun
    recorded := subset_append_left _ _
    since := since_resolve reached state
    ordered := fun ordered => ordered.resolve files
    complete := fun unmixed => ⟨fun other isVisited => .inl ?_,nofun⟩ }
  have same := (markMatches_of_unmixed refused
    (unmixed _ (mem_append_right _ mem_cons_self))).2
  rwa [same] at isVisited

theorem importFiles_spec (loads : LoadsWithin fs all root fuel load) {base : File} {path : String}
    (expands : fs.expand base path = .ok files) (someMatch : files ≠ []) (areFiles : files ⊆ all)
    (within : state.visited ⊆ all)
    (enough : unvisited all state ≤ fuel) :
    ∃ items next new,
      loadMatches load ((resolveImportsWithVisited fs base path state).1.toOption.getD [])
        (resolveImportsWithVisited fs base path state).2 = some (items, next) ∧
      Loads fs all root [] state next new items ∧
      ((∀ entry ∈ next.resolved, Unmixed entry) → files ⊆ next.visited) := by
  obtain ⟨first,others,rfl⟩ := exists_cons_of_ne_nil someMatch
  have grows := subset_markMatches (first :: others) state.visited
  unfold resolveImportsWithVisited
  rw [expands]
  dsimp only
  cases marked : (markMatches (first :: others) state.visited).1 with
  | none =>
    obtain ⟨nodup,fresh,isMarked⟩ := markMatches_eq_none marked
    have allMarked : first :: others ⊆ (markMatches (first :: others) state.visited).2 :=
      fun file isMatch => (isMarked file).mpr (.inl isMatch)
    have fewer : unvisited all ⟨(markMatches (first :: others) state.visited).2,
        state.resolved ++ [(first :: others, state.visited)]⟩ < unvisited all state :=
      unvisited_lt grows (areFiles mem_cons_self) (fresh first mem_cons_self)
        (allMarked mem_cons_self)
    obtain ⟨items,next,new,loaded,loadsMatches⟩ := loadMatches_spec reached loads nodup
      areFiles allMarked (markMatches_subset areFiles within) (lt_of_lt_of_le fewer enough)
    refine ⟨items,next,new,loaded,.of_accepted reached marked rfl loadsMatches,fun _ => ?_⟩
    exact List.Subset.trans allMarked loadsMatches.grows
  | some =>
    refine ⟨[],_,[],rfl,.of_refused reached marked areFiles within,fun unmixed => ?_⟩
    have allVisited := (markMatches_of_unmixed marked
      (unmixed _ (mem_append_right _ mem_cons_self))).1
    exact fun other isMatch => grows (allVisited other isMatch)

end

/-- The imports among the items match files that can be reached. -/
def ReachesMatches (fs : FileSystem File Item) (all : List File) (root file : File)
    (items : List (SourceItem Item)) : Prop :=
  ∀ path, .importFiles path ∈ items → ∃ files, fs.expand file path = .ok files ∧ files ≠ [] ∧
    files ⊆ all ∧ ∀ other ∈ files, fs.Reachable root other

theorem resolveItems_spec (loads : LoadsWithin fs all root fuel load)
    {items : List (SourceItem Item)} (matched : ReachesMatches fs all root file items)
    (within : state.visited ⊆ all) (enough : unvisited all state ≤ fuel) :
    ∃ out next new nested, resolveItems fs load file items state = some (out, next) ∧
      Loads fs all root [] state next new nested ∧
      out.Perm (items.filterMap SourceItem.own ++ nested) ∧
      ((∀ entry ∈ next.resolved, Unmixed entry) → ∀ path, .importFiles path ∈ items →
        ∀ files, fs.expand file path = .ok files → files ⊆ next.visited) := by
  induction items generalizing state with
  | nil => exact ⟨[],state,[],[],rfl,.nothing within,.refl _,nofun⟩
  | cons item items ih =>
    have later : ReachesMatches fs all root file items := fun path isLater =>
      matched path (mem_cons_of_mem item isLater)
    cases item with
    | item declared =>
      obtain ⟨out,next,new,nested,resolved,loadsRest,outPerm,closed⟩ := ih later within enough
      refine ⟨declared :: out,next,new,nested,?_,loadsRest,?_,?_⟩
      · simp only [resolveItems,resolved,Option.map_some]
      · exact outPerm.cons declared
      · intro unmixed path member
        rcases mem_cons.mp member with isItem | isLater
        · cases isItem
        · exact closed unmixed path isLater
    | importFiles path =>
      obtain ⟨files,expands,someMatch,areFiles,reached⟩ := matched path mem_cons_self
      obtain ⟨imported,middle,new,loaded,loadsImport,covers⟩ :=
        importFiles_spec reached loads expands someMatch areFiles within enough
      obtain ⟨out,next,more,nested,resolved,loadsRest,outPerm,closed⟩ :=
        ih later loadsImport.within (le_trans (unvisited_le loadsImport.grows) enough)
      refine ⟨imported ++ out,next,new ++ more,imported ++ nested,?_,
        loadsImport.append loadsRest nofun,?_,?_⟩
      · simp only [resolveItems,loaded,Option.bind_some,resolved,Option.map_some]
      · refine (outPerm.append_left imported).trans ?_
        rw [← append_assoc,← append_assoc]
        exact perm_append_comm.append_right nested
      · intro unmixed other member otherFiles otherExpands
        rcases mem_cons.mp member with isPath | isLater
        · cases isPath
          cases expands.symm.trans otherExpands
          exact List.Subset.trans
            (covers fun entry isEntry => unmixed entry (loadsRest.recorded isEntry))
            loadsRest.grows
        · exact closed unmixed other isLater otherFiles otherExpands

theorem loadAndResolve_spec (closed : fs.Closed all) (fuel : Nat) :
    LoadsWithin fs all root fuel (loadAndResolve fs fuel) := by
  induction fuel with
  | zero => exact fun _ _ _ _ _ _ noFuel => absurd noFuel (Nat.not_lt_zero _)
  | succ fuel ih =>
    intro file state isFile reached isVisited within enough
    obtain ⟨items,reads⟩ := closed.reads file isFile
    have matched : ReachesMatches fs all root file items := by
      intro path isImport
      obtain ⟨files,expands,someMatch,areFiles⟩ :=
        closed.matched file isFile items reads path isImport
      refine ⟨files,expands,someMatch,areFiles,fun other isMatch => ?_⟩
      exact reached.tail ⟨items,path,files,reads,isImport,expands,isMatch⟩
    obtain ⟨out,next,new,nested,resolved,loads,outPerm,covers⟩ :=
      resolveItems_spec ih matched within (Nat.lt_succ_iff.mp enough)
    have own : fs.ownItems file = items.filterMap SourceItem.own := by
      simp only [FileSystem.ownItems,reads]
    have notAgain : file ∉ new := by
      intro isNew
      rcases loads.fresh file isNew with isPending | notVisited
      · cases isPending
      · exact notVisited isVisited
    refine ⟨out,next,file :: new,?_,{ loads with
      loadsPending := cons_subset.mpr ⟨mem_cons_self,nil_subset _⟩
      nodup := nodup_cons.mpr ⟨notAgain,loads.nodup⟩
      fresh := ?_
      marked := cons_subset.mpr ⟨loads.grows isVisited,loads.marked⟩
      reached := ?_
      items := ?_
      accepted := ?_
      complete := ?_ }⟩
    · simp only [loadAndResolve,reads,resolved,Option.map_some]
    · exact forall_mem_cons.mpr ⟨.inl mem_cons_self,fun other isNew =>
        (loads.fresh other isNew).imp_left nofun⟩
    · exact forall_mem_cons.mpr ⟨reached,loads.reached⟩
    · rw [flatMap_cons,own]
      exact outPerm.trans (loads.items.append_left _)
    · exact forall_mem_cons.mpr ⟨.inl mem_cons_self,fun other isNew =>
        (loads.accepted other isNew).imp_left nofun⟩
    · intro unmixed
      obtain ⟨covered,closedNew⟩ := loads.complete unmixed
      refine ⟨fun other isOther => (covered other isOther).imp_right (mem_cons_of_mem _),?_⟩
      intro other member target imports
      rcases mem_cons.mp member with rfl | isNew
      · obtain ⟨read,path,files,otherReads,isImport,expands,isMatch⟩ := imports
        cases reads.symm.trans otherReads
        exact covers unmixed path isImport files expands isMatch
      · exact closedNew other isNew target imports

theorem ImportState.Ordered.not_both (ordered : state.Ordered)
    {accepting refusing : List File × List File} (isAccepting : accepting ∈ state.resolved)
    (isRefusing : refusing ∈ state.resolved)
    (accepts : (markMatches accepting.1 accepting.2).1 = none)
    (refuses : (markMatches refusing.1 refusing.2).1 ≠ none) (isMatch : file ∈ accepting.1)
    (isMarked : file ∈ (markMatches refusing.1 refusing.2).2) : file ∈ refusing.2 := by
  obtain ⟨-,fresh,marked⟩ := markMatches_eq_none accepts
  have differ : accepting ≠ refusing := by
    rintro rfl
    exact refuses accepts
  have symmetric : Std.Symm fun entry later : List File × List File =>
      (markMatches entry.1 entry.2).2 ⊆ later.2 ∨ (markMatches later.1 later.2).2 ⊆ entry.2 :=
    ⟨fun _ _ => Or.symm⟩
  -- one of the two was resolved before the other
  have related : state.resolved.Pairwise fun entry later =>
      (markMatches entry.1 entry.2).2 ⊆ later.2 ∨ (markMatches later.1 later.2).2 ⊆ entry.2 :=
    ordered.earlier.imp Or.inl
  rcases related.forall isAccepting isRefusing differ with before | after
  · exact before ((marked file).mpr (.inl isMatch))
  · exact absurd (after isMarked) (fresh file isMatch)

end Loading

/-- A load of files that all parse ends, and puts out the items of reachable files, each once.  It
loads all of them if every import found none or all of its matches visited, and only if no
refused import had marked a file. -/
theorem imports_complete {File Item : Type*} [DecidableEq File] (fs : FileSystem File Item)
    (all : List File) (root : File) (closed : fs.Closed all) (isRoot : root ∈ all) (fuel : Nat)
    (enough : all.length ≤ fuel) :
    ∃ items state, ∃ order : List File, loadFile fs fuel root = some (.ok items, state) ∧
      items.Perm (order.flatMap fs.ownItems) ∧ order.Nodup ∧
      (∀ file ∈ order, fs.Reachable root file) ∧
      ((∀ entry ∈ state.resolved, Unmixed entry) → ∀ file, fs.Reachable root file → file ∈ order) ∧
      ((∀ file, fs.Reachable root file → file ∈ order) →
        ∀ entry ∈ state.resolved, (markMatches entry.1 entry.2).1 ≠ none →
          (markMatches entry.1 entry.2).2 ⊆ entry.2) := by
  have fewer : unvisited all ⟨[root],[]⟩ < unvisited all ⟨[],[]⟩ :=
    unvisited_lt (nil_subset _) isRoot not_mem_nil mem_cons_self
  have atMost : unvisited all ⟨[],[]⟩ ≤ all.length :=
    le_trans (Finset.card_le_card Finset.sdiff_subset) (toFinset_card_le all)
  obtain ⟨items,state,order,loaded,loads⟩ := loadAndResolve_spec closed fuel root
    ⟨[root],[]⟩ isRoot .refl mem_cons_self
    (cons_subset.mpr ⟨isRoot,nil_subset _⟩) (by omega)
  have rootLoaded : root ∈ order := loads.loadsPending mem_cons_self
  refine ⟨items,state,order,loaded,loads.items,loads.nodup,loads.reached,?_,?_⟩
  · intro unmixed file reached
    obtain ⟨covered,closedNew⟩ := loads.complete unmixed
    induction reached with
    | refl => exact rootLoaded
    | @tail other target _ imports isLoaded =>
      rcases covered target (closedNew other isLoaded target imports) with isStart | isNew
      · rw [mem_singleton.mp isStart]
        exact rootLoaded
      · exact isNew
  · intro complete entry isEntry refuses file isMarked
    have ordered : state.Ordered := loads.ordered ⟨.nil,nofun⟩
    obtain ⟨sinceStart,reached⟩ := (loads.since entry isEntry).resolve_left not_mem_nil
    rcases mem_of_mem_markMatches isMarked with isMatch | wasVisited
    · rcases loads.accepted file (complete file (reached file isMatch)) with
        isStart | ⟨accepting,isAccepting,accepts,isAccepted⟩
      · exact sinceStart isStart
      · exact ordered.not_both isAccepting isEntry accepts refuses isAccepted isMarked
    · exact wasVisited

def tableFiles (contents : List (Nat × List (SourceItem Nat)))
    (patterns : List (String × List Nat)) : FileSystem Nat Nat where
  read := fun file =>
    match contents.lookup file with
    | some items => .ok items
    | none => .error .unreadable
  expand := fun _ path =>
    match patterns.lookup path with
    | some files => .ok files
    | none => .error (.noMatches path)

/-- Every import of the table has a pattern with matches in it. -/
def tableMatches (contents : List (Nat × List (SourceItem Nat)))
    (patterns : List (String × List Nat)) : Bool :=
  contents.all fun entry => entry.2.all fun item =>
    match item with
    | .item _ => true
    | .importFiles path =>
      (patterns.lookup path).any fun files =>
        decide (files ≠ []) && files.all fun file => decide (file ∈ contents.map Prod.fst)

theorem tableFiles_closed {contents : List (Nat × List (SourceItem Nat))}
    {patterns : List (String × List Nat)} (matched : tableMatches contents patterns = true) :
    (tableFiles contents patterns).Closed (contents.map Prod.fst) where
  reads := by
    intro file isFile
    obtain ⟨items,found⟩ : ∃ items, contents.lookup file = some items := by
      obtain ⟨entry,isEntry,rfl⟩ := mem_map.mp isFile
      cases found : contents.lookup entry.1 with
      | some items => exact ⟨items,rfl⟩
      | none =>
        have differs := lookup_eq_none_iff.mp found entry isEntry
        simp at differs
    exact ⟨items,by simp only [tableFiles,found]⟩
  matched := by
    intro file _ items reads path isImport
    have found : contents.lookup file = some items := by
      simp only [tableFiles] at reads
      split at reads
      · rename_i found
        cases reads
        exact found
      · cases reads
    obtain ⟨before,after,isSplit,-⟩ := lookup_eq_some_iff.mp found
    have isEntry : (file, items) ∈ contents := by
      rw [isSplit]
      exact mem_append_right _ mem_cons_self
    have ofImport := all_eq_true.mp (all_eq_true.mp matched _ isEntry) _ isImport
    dsimp only at ofImport
    cases isPattern : patterns.lookup path with
    | none =>
      rw [isPattern] at ofImport
      cases ofImport
    | some files =>
      rw [isPattern,Option.any_some,Bool.and_eq_true,decide_eq_true_eq,all_eq_true] at ofImport
      refine ⟨files,by simp only [tableFiles,isPattern],ofImport.1,fun other isMatch => ?_⟩
      exact of_decide_eq_true (ofImport.2 other isMatch)

def sharedFiles : FileSystem Nat Nat :=
  tableFiles
    [(0, [.importFiles "a",.importFiles "b"]),(1, [.item 10,.importFiles "common"]),
      (2, [.item 20,.importFiles "common"]),(3, [.item 30])]
    [("a", [1]),("b", [2]),("common", [3])]

theorem imports_complete_shared :
    ∃ items state, ∃ order : List Nat, loadFile sharedFiles 4 0 = some (.ok items, state) ∧
      items.Perm (order.flatMap sharedFiles.ownItems) ∧ order.Nodup ∧
      ∀ file, sharedFiles.Reachable 0 file → file ∈ order := by
  have closed : sharedFiles.Closed [0,1,2,3] := tableFiles_closed (by decide)
  obtain ⟨items,state,order,loaded,isItems,nodup,-,complete,-⟩ :=
    imports_complete sharedFiles [0,1,2,3] 0 closed (by decide) 4 (by decide)
  have unmixed : ∀ loaded ∈ loadFile sharedFiles 4 0, ∀ entry ∈ loaded.2.resolved,
      Unmixed entry := by decide
  exact ⟨items,state,order,loaded,isItems,nodup,complete (unmixed _ loaded)⟩

/-- A pattern that matches a file imported before it. -/
def overlappingFiles : FileSystem Nat Nat :=
  tableFiles
    [(0, [.importFiles "b",.importFiles "*",.importFiles "a"]),(1, [.item 10]),(2, [.item 20])]
    [("a", [1]),("b", [2]),("*", [1,2])]

/-- The pattern is refused after it has marked a file, which is then not loaded under its own name
either. -/
theorem overlapping_imports_lose_file :
    overlappingFiles.Closed [0,1,2] ∧ overlappingFiles.Reachable 0 1 ∧
      overlappingFiles.ownItems 1 = [10] ∧
      (loadFile overlappingFiles 3 0).map (fun loaded => loaded.1.toOption) = some (some [20]) := by
  refine ⟨tableFiles_closed (by decide),.single ⟨_,"a",[1],rfl,?_,rfl,mem_cons_self⟩,
    rfl,by decide⟩
  exact mem_cons_of_mem _ (mem_cons_of_mem _ mem_cons_self)

end Croniq

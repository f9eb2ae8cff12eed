import Croniq.Placeholders
import Mathlib.Data.List.Induction
import Mathlib.Data.List.Nodup

/-!
# What a placeholder denotes

An entry of a `vars` block may itself be written as a placeholder.
-/

namespace Croniq.Config

open Croniqfile Function List Option

structure Binding where
  name : String
  value : StringValue

/-- The entries of the `vars` blocks that have a value. -/
def Croniqfile.bindings (ast : Croniqfile) : List Binding :=
  ast.varsEntries.filterMap fun entry => entry.args.head?.map fun value => ⟨entry.key.value,value⟩

def lastBinding (bindings : List Binding) (name : String) : Option StringValue :=
  (bindings.filter (·.name = name)).getLast?.map Binding.value

/-- The value of a placeholder, with the `vars` entries followed. -/
inductive Denotes (host : Host) (bindings : List Binding) : String → String → Prop
  | outside {text value : String} (resolved : resolve host (fun _ => none) text = .ok value) :
      Denotes host bindings text value
  | literal {name : String} {entry : StringValue}
      (bound : lastBinding bindings name = some entry) (plain : entry.isPlaceholder = false) :
      Denotes host bindings ("vars." ++ name) entry.value
  | chained {name value : String} {entry : StringValue}
      (bound : lastBinding bindings name = some entry) (chains : entry.isPlaceholder = true)
      (denotes : Denotes host bindings entry.value value) :
      Denotes host bindings ("vars." ++ name) value

/-- No entry written as a placeholder is followed by a literal of the same name
or by the placeholder of the name it reads. -/
def VarsOrdered (bindings : List Binding) : Prop :=
  bindings.Pairwise fun earlier later =>
    earlier.value.isPlaceholder = true →
      if later.value.isPlaceholder then earlier.value.value ≠ "vars." ++ later.name
      else earlier.name ≠ later.name

theorem resolve_vars (host : Host) (vars : Vars) (name : String) :
    resolve host vars ("vars." ++ name) =
      match vars name with
      | some value => .ok value
      | none => .error (.unresolved ("vars." ++ name)) := by
  cases entry : vars name <;> simp [resolve,dropPrefix?,entry]

variable {host : Host} {text value name : String} {bindings : List Binding} {σ : String → String}
  {first second : String} {entry : StringValue} {before after : List Binding}

theorem append_vars_inj (same : "vars." ++ first = "vars." ++ second) : first = second := by
  have lists := congrArg String.toList same
  simpa [String.toList_inj] using lists

theorem Denotes.unique (denotes : Denotes host bindings text first)
    (again : Denotes host bindings text second) : first = second := by
  induction denotes generalizing second with
  | outside resolved =>
    cases again with
    | outside again => exact Except.ok.inj (resolved.symm.trans again)
    | literal | chained => simp [resolve_vars] at resolved
  | @literal name entry bound plain =>
    generalize whole : "vars." ++ name = text at again
    cases again with
    | outside again => simp [← whole,resolve_vars] at again
    | literal boundAgain =>
      obtain rfl := append_vars_inj whole
      exact congrArg StringValue.value (some.inj (bound.symm.trans boundAgain))
    | chained boundAgain chains =>
      obtain rfl := append_vars_inj whole
      obtain rfl := some.inj (bound.symm.trans boundAgain)
      simp [plain] at chains
  | @chained name value entry bound chains denotes ih =>
    generalize whole : "vars." ++ name = text at again
    cases again with
    | outside again => simp [← whole,resolve_vars] at again
    | literal boundAgain plain =>
      obtain rfl := append_vars_inj whole
      obtain rfl := some.inj (bound.symm.trans boundAgain)
      simp [plain] at chains
    | chained boundAgain _ denotesAgain =>
      obtain rfl := append_vars_inj whole
      obtain rfl := some.inj (bound.symm.trans boundAgain)
      exact ih denotesAgain

theorem Denotes.ne_self (denotes : Denotes host bindings text value)
    (bound : lastBinding bindings name = some entry) (chains : entry.isPlaceholder = true)
    (self : entry.value = "vars." ++ name) : text ≠ "vars." ++ name := by
  induction denotes with
  | outside resolved =>
    rintro rfl
    simp [resolve_vars] at resolved
  | literal boundAgain plain =>
    intro same
    obtain rfl := append_vars_inj same
    obtain rfl := some.inj (bound.symm.trans boundAgain)
    simp [plain] at chains
  | chained boundAgain _ _ ih =>
    intro same
    obtain rfl := append_vars_inj same
    obtain rfl := some.inj (bound.symm.trans boundAgain)
    exact ih self

/-- The text of a value, with the meaning for a placeholder. -/
def StringValue.meaning (σ : String → String) (value : StringValue) : String :=
  if value.isPlaceholder then σ value.value else value.value

/-- Every entry written as a placeholder denotes its meaning. -/
def EntriesDenote (host : Host) (σ : String → String) (bindings : List Binding) : Prop :=
  ∀ binding ∈ bindings, binding.value.isPlaceholder = true →
    Denotes host bindings binding.value.value (σ binding.value.value)

section

variable (σ : String → String) (bindings : List Binding)

/-- The entries written down one by one. -/
def recorded : Vars :=
  bindings.foldl
    (fun vars binding => update vars binding.name (some (binding.value.meaning σ)))
    fun _ => none

theorem recorded_append_singleton (binding : Binding) :
    recorded σ (bindings ++ [binding]) =
      update (recorded σ bindings) binding.name (some (binding.value.meaning σ)) := by
  simp [recorded]

theorem recorded_apply (name : String) :
    recorded σ bindings name = (lastBinding bindings name).map (StringValue.meaning σ) := by
  induction bindings using reverseRecOn with
  | nil => rfl
  | append_singleton bindings binding ih =>
    rw [recorded_append_singleton]
    by_cases same : binding.name = name
    · simp [lastBinding,filter_append,same]
    · simp [lastBinding,filter_append,same,update_of_ne (Ne.symm same),ih]

end

theorem eq_filter_append_filter {α : Type} {p : α → Bool} {l : List α}
    (ordered : l.Pairwise fun earlier later => p earlier = true → p later = true) :
    l = (l.filter fun a => !p a) ++ l.filter p := by
  induction ordered with
  | nil => rfl
  | @cons a l later _ ih =>
    cases holds : p a with
    | false => simpa [holds] using ih
    | true =>
      have noneLeft : (l.filter fun b => !p b) = [] := by
        simpa [filter_eq_nil_iff] using fun b member => later b member holds
      simpa [holds,noneLeft] using ih

/-- The entries of one name, literals first, when no placeholder for it is left. -/
theorem VarsOrdered.filter_name (ordered : VarsOrdered bindings)
    (split : bindings = before ++ after)
    (settled : ∀ binding ∈ after, binding.value.isPlaceholder = true → binding.name ≠ name) :
    (bindings.filter (!·.value.isPlaceholder) ++ before.filter (·.value.isPlaceholder)).filter
        (·.name = name) = bindings.filter (·.name = name) := by
  have grouped : (bindings.filter (·.name = name)).Pairwise fun earlier later =>
      earlier.value.isPlaceholder = true → later.value.isPlaceholder = true := by
    rw [pairwise_filter]
    refine List.Pairwise.imp ?_ ordered
    intro earlier later follows named namedToo isPlaceholder
    by_contra plain
    simp_all
  have noneLeft : (after.filter (·.name = name)).filter (·.value.isPlaceholder) = [] := by
    simp only [filter_eq_nil_iff,mem_filter,decide_eq_true_eq]
    exact fun binding member isPlaceholder => settled binding member.1 isPlaceholder member.2
  have placeholders : (bindings.filter (·.name = name)).filter (·.value.isPlaceholder) =
      (before.filter (·.name = name)).filter (·.value.isPlaceholder) := by
    rw [split,filter_append,filter_append,noneLeft,append_nil]
  rw [eq_filter_append_filter grouped,placeholders,filter_append,filter_comm,
    filter_comm (p := fun binding => decide (binding.name = name)) (l := before)]

/-- A placeholder resolves to what it denotes when the name it reads has the meaning of its last
entry. -/
theorem Denotes.resolve_eq {vars : Vars} (denotes : Denotes host bindings text value)
    (entries : EntriesDenote host σ bindings) (known : ∀ name, text = "vars." ++ name →
      vars name = (lastBinding bindings name).map (StringValue.meaning σ)) :
    resolve host vars text = .ok value := by
  cases denotes with
  | outside resolved =>
    simp only [resolve] at resolved ⊢
    split at resolved <;> simp_all
  | literal bound plain => simp [resolve_vars,known _ rfl,bound,StringValue.meaning,plain]
  | chained bound chains denotes =>
    obtain ⟨binding,last,rfl⟩ := map_eq_some_iff.mp bound
    have member := (mem_filter.mp (mem_of_getLast? last)).1
    have meaning := denotes.unique (entries binding member chains)
    simp [resolve_vars,known _ rfl,bound,StringValue.meaning,chains,meaning]

theorem VarsOrdered.settled_of_reads {binding : Binding}
    (ordered : VarsOrdered bindings) (split : bindings = before ++ binding :: after)
    (isPlaceholder : binding.value.isPlaceholder = true)
    (denotes : Denotes host bindings binding.value.value value)
    (reads : binding.value.value = "vars." ++ name) :
    ∀ later ∈ binding :: after, later.value.isPlaceholder = true → later.name ≠ name := by
  have follows : ∀ later ∈ after, if later.value.isPlaceholder then
      binding.value.value ≠ "vars." ++ later.name else binding.name ≠ later.name := by
    have ordered := split ▸ ordered
    exact fun later member =>
      rel_of_pairwise_cons (pairwise_append.mp ordered).2.1 member isPlaceholder
  have different : ∀ later ∈ after, later.value.isPlaceholder = true → later.name ≠ name := by
    rintro later member isLater rfl
    have unread : binding.value.value ≠ "vars." ++ later.name := by
      simpa [isLater] using follows later member
    exact unread reads
  intro later member isLater
  rcases mem_cons.mp member with rfl | member
  · rintro rfl
    -- The entry would be the last one of the name it reads.
    have unnamed : after.filter (·.name = later.name) = [] := by
      simp only [filter_eq_nil_iff,decide_eq_true_eq]
      intro other member same
      cases kind : other.value.isPlaceholder with
      | true => exact different other member kind same
      | false =>
        have unlike : later.name ≠ other.name := by simpa [kind] using follows other member
        exact unlike same.symm
    have bound : lastBinding bindings later.name = some later.value := by
      simp [lastBinding,split,filter_append,unnamed]
    exact denotes.ne_self bound isLater reads reads
  · exact different later member isLater

def bindPlaceholder (host : Host) (vars : Vars) (binding : Binding) : Vars :=
  if binding.value.isPlaceholder then
    update vars binding.name (some (resolveStr host vars binding.value))
  else vars

theorem foldl_bindPlaceholder (ordered : VarsOrdered bindings)
    (entries : EntriesDenote host σ bindings) (before after : List Binding)
    (split : bindings = before ++ after) :
    after.foldl (bindPlaceholder host)
        (recorded σ (bindings.filter (!·.value.isPlaceholder) ++
          before.filter (·.value.isPlaceholder))) =
      recorded σ (bindings.filter (!·.value.isPlaceholder) ++
        bindings.filter (·.value.isPlaceholder)) := by
  induction after generalizing before with
  | nil => simp [split]
  | cons binding after ih =>
    have next := ih (before ++ [binding]) (by simp [split])
    cases isPlaceholder : binding.value.isPlaceholder with
    | false => simpa [bindPlaceholder,isPlaceholder,filter_append] using next
    | true =>
      have denotes := entries binding (by simp [split]) isPlaceholder
      have resolved : resolve host
          (recorded σ (bindings.filter (!·.value.isPlaceholder) ++
            before.filter (·.value.isPlaceholder))) binding.value.value =
            .ok (σ binding.value.value) := by
        refine denotes.resolve_eq entries fun name reads => ?_
        have settled := ordered.settled_of_reads split isPlaceholder denotes reads
        rw [recorded_apply,lastBinding,ordered.filter_name split settled,lastBinding]
      have kept : [binding].filter (·.value.isPlaceholder) = [binding] := by simp [isPlaceholder]
      rw [filter_append,kept,← append_assoc,recorded_append_singleton] at next
      simpa [bindPlaceholder,isPlaceholder,resolveStr,resolved,StringValue.meaning] using next

theorem foldl_collectLiteral (σ : String → String) (ast : Croniqfile) :
    ast.varsEntries.foldl collectLiteral (fun _ => none) =
      recorded σ (ast.bindings.filter (!·.value.isPlaceholder)) := by
  rw [recorded,foldl_filter,bindings,foldl_filterMap]
  congr 1
  funext vars entry
  cases first : entry.args.head? with
  | none => simp [collectLiteral,first]
  | some value =>
    cases kind : value.isPlaceholder <;>
      simp [collectLiteral,first,kind,StringValue.meaning]

theorem foldl_collectPlaceholder (host : Host) (ast : Croniqfile) (vars : Vars) :
    ast.varsEntries.foldl (collectPlaceholder host) vars =
      ast.bindings.foldl (bindPlaceholder host) vars := by
  rw [bindings,foldl_filterMap]
  congr 1
  funext vars entry
  cases first : entry.args.head? <;> simp [collectPlaceholder,bindPlaceholder,first]

theorem collectVars_eq_recorded {ast : Croniqfile} (ordered : VarsOrdered ast.bindings)
    (entries : EntriesDenote host σ ast.bindings) :
    collectVars host ast = recorded σ ast.bindings := by
  have passes := foldl_bindPlaceholder ordered entries [] ast.bindings rfl
  rw [collectVars,foldl_collectPlaceholder,foldl_collectLiteral σ]
  simp only [filter_nil,append_nil] at passes
  rw [passes]
  funext name
  rw [recorded_apply,recorded_apply,lastBinding,lastBinding,
    ordered.filter_name (append_nil _).symm (by simp)]

theorem lastBinding_eq_some_iff (distinct : (bindings.map Binding.name).Nodup) :
    lastBinding bindings name = some entry ↔ ⟨name,entry⟩ ∈ bindings := by
  constructor
  · intro bound
    obtain ⟨binding,last,rfl⟩ := map_eq_some_iff.mp bound
    obtain ⟨member,named⟩ := mem_filter.mp (mem_of_getLast? last)
    obtain rfl := of_decide_eq_true named
    exact member
  · intro member
    have kept : (⟨name,entry⟩ : Binding) ∈ bindings.filter (·.name = name) := by simpa using member
    rw [lastBinding,getLast?_eq_some_getLast (ne_nil_of_mem kept)]
    obtain ⟨memberLast,named⟩ :=
      mem_filter.mp (getLast_mem (ne_nil_of_mem kept))
    have same := inj_on_of_nodup_map distinct memberLast member (of_decide_eq_true named)
    exact congrArg (fun binding => some binding.value) same

variable {others : List Binding}

theorem Denotes.of_lastBinding_eq (same : lastBinding bindings = lastBinding others)
    (denotes : Denotes host bindings text value) : Denotes host others text value := by
  induction denotes with
  | outside resolved => exact .outside resolved
  | literal bound plain => exact .literal (same ▸ bound) plain
  | chained bound chains _ ih => exact .chained (same ▸ bound) chains ih

/-- The `vars` entries of two files in a different order give the same variables, each with its
value followed to the end, as long as no file refers to a placeholder entry before it stands. -/
theorem collectVars_perm (host : Host) (σ : String → String) (ast other : Croniqfile)
    (perm : ast.varsEntries.Perm other.varsEntries)
    (distinct : (ast.bindings.map Binding.name).Nodup)
    (entries : EntriesDenote host σ ast.bindings) (ordered : VarsOrdered ast.bindings)
    (orderedToo : VarsOrdered other.bindings) :
    collectVars host ast = collectVars host other ∧
      ∀ binding ∈ ast.bindings,
        collectVars host ast binding.name = some (binding.value.meaning σ) := by
  have permuted : ast.bindings.Perm other.bindings := perm.filterMap _
  have same : lastBinding ast.bindings = lastBinding other.bindings := by
    funext name
    ext entry
    rw [lastBinding_eq_some_iff distinct,
      lastBinding_eq_some_iff ((permuted.map _).nodup distinct),permuted.mem_iff]
  have entriesToo : EntriesDenote host σ other.bindings := fun binding member chains =>
    (entries binding (permuted.mem_iff.mpr member) chains).of_lastBinding_eq same
  rw [collectVars_eq_recorded ordered entries,collectVars_eq_recorded orderedToo entriesToo]
  refine ⟨funext fun name => by rw [recorded_apply,recorded_apply,same],?_⟩
  intro binding member
  rw [recorded_apply,(lastBinding_eq_some_iff distinct).mpr member,map_some]

def firstVar : Directive := ⟨wordOf "first",[wordOf "1"]⟩

def secondVar : Directive := ⟨wordOf "second",[placeholderOf "vars.first"]⟩

def thirdVar : Directive := ⟨wordOf "third",[placeholderOf "vars.second"]⟩

def chainFile : Croniqfile := ⟨[.vars [firstVar,secondVar,thirdVar]]⟩

theorem entriesDenote_chain : EntriesDenote quietHost (fun _ => "1") chainFile.bindings := by
  have second : Denotes quietHost chainFile.bindings ("vars." ++ "first") "1" :=
    @Denotes.literal _ _ _ ⟨"1",false,false⟩ (by decide) rfl
  have third : Denotes quietHost chainFile.bindings ("vars." ++ "second") "1" :=
    @Denotes.chained _ _ _ _ ⟨"vars.first",false,true⟩ (by decide) rfl second
  simp only [EntriesDenote,chainFile,bindings,varsEntries,firstVar,secondVar,
    thirdVar,wordOf,placeholderOf,flatMap_cons,flatMap_nil,append_nil,filterMap_cons,
    filterMap_nil,head?_cons,map_some,forall_mem_cons]
  exact ⟨nofun,fun _ => second,fun _ => third,nofun⟩

theorem collectVars_perm_chain :
    collectVars quietHost chainFile =
      collectVars quietHost ⟨[.vars [secondVar],.vars [thirdVar,firstVar]]⟩ :=
  (collectVars_perm quietHost (fun _ => "1") _ _
    (@perm_append_comm _ [firstVar] _) (by decide) entriesDenote_chain
    (by simp [VarsOrdered,chainFile,bindings,varsEntries,firstVar,secondVar,
      thirdVar,wordOf,placeholderOf])
    (by simp [VarsOrdered,bindings,varsEntries,firstVar,secondVar,thirdVar,wordOf,placeholderOf])).1

/-- A variable before the placeholder it reads keeps its own text. -/
theorem collectVars_not_perm :
    chainFile.varsEntries.Perm
        (varsEntries ⟨[.vars [firstVar,thirdVar,secondVar]]⟩) ∧
      (chainFile.bindings.map Binding.name).Nodup ∧
      EntriesDenote quietHost (fun _ => "1") chainFile.bindings ∧
      collectVars quietHost chainFile "third" = some "1" ∧
      collectVars quietHost ⟨[.vars [firstVar,thirdVar,secondVar]]⟩ "third" =
        some "vars.second" := by
  refine ⟨.cons _ (.swap _ _ _),by decide,entriesDenote_chain,?_,?_⟩ <;>
    simp [collectVars,chainFile,varsEntries,firstVar,secondVar,thirdVar,wordOf,placeholderOf,
      collectLiteral,collectPlaceholder,resolveStr,resolve,dropPrefix?,update]

end Croniq.Config

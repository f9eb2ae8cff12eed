import Croniq.LexerSpans

/-!
# The environment of a job

A job inherits few variables of its runner, and none of the runner's own unless it is named.
-/

namespace Croniq

open Char Config List

def inheritedEnvAllowlist : List String :=
  ["PATH","HOME","USER","LOGNAME","SHELL","TMPDIR","TZ","LANG","LANGUAGE","LC_ALL","LC_COLLATE",
    "LC_CTYPE","LC_MESSAGES","LC_MONETARY","LC_NUMERIC","LC_TIME","SYSTEMROOT","SYSTEMDRIVE",
    "WINDIR","COMSPEC","PATHEXT","TEMP","TMP","APPDATA","LOCALAPPDATA","PROGRAMDATA",
    "PROGRAMFILES","PROGRAMFILES(X86)","PROGRAMW6432","COMMONPROGRAMFILES",
    "COMMONPROGRAMFILES(X86)","USERNAME","USERPROFILE","USERDOMAIN","HOMEDRIVE","HOMEPATH",
    "NUMBER_OF_PROCESSORS","PROCESSOR_ARCHITECTURE","OS"]

def eqIgnoreAsciiCase (first second : List UInt8) : Bool :=
  first.map (toLower <| ofUInt8 ·) = second.map (toLower <| ofUInt8 ·)

/-- Nothing where the slice of seven bytes ends inside a character and panics. -/
def isReservedEnvName (name : String) : Option Bool :=
  let bytes := encode name.toList
  if bytes.length < 7 then some false
  else if isCharBoundary (bytes.drop 7) then
    some (eqIgnoreAsciiCase (bytes.take 7) (encode "CRONIQ_".toList))
  else none

/-- Whether there is a wildcard, and the names. -/
def parsePassthrough (raw : Option String) : Bool × List String :=
  let parts := raw.toList.flatMap commaParts
  (parts.any (· = "*"), parts.filter (· ≠ "*"))

section

variable (windows : Bool)

def envNameEq (first second : String) : Bool :=
  if windows then eqIgnoreAsciiCase (encode first.toList) (encode second.toList)
  else first = second

def inherits (name : String) (wildcard : Bool) (extra : List String) : Option Bool :=
  if extra.any (envNameEq windows · name) then some true
  else (isReservedEnvName name).map fun reserved =>
    !reserved && (wildcard || inheritedEnvAllowlist.any (envNameEq windows · name))

/-- The variables a command is given, the later ones last; nothing if the runner panics, at a name
or, in `std::env::vars`, at a value that is not Unicode. -/
def commandEnv (vars : List (String × List UInt8)) (passthrough : Option String)
    (env : List (String × String)) : Option (List (String × String)) :=
  let (wildcard, extra) := parsePassthrough passthrough
  if vars.all fun (name, value) => (String.fromUTF8? value.toByteArray).isSome &&
      (inherits windows name wildcard extra).isSome then
    some
      (vars.filterMap (fun (name, value) =>
        if inherits windows name wildcard extra = some true then
          (String.fromUTF8? value.toByteArray).map (name, ·)
        else none) ++ env)
  else none

end

/-- The name starts with `CRONIQ_` in some letter case. -/
def StartsReserved (name : String) : Prop :=
  ∃ front rest, name.toList = front ++ rest ∧ front.map toLower = "croniq_".toList

theorem isReservedEnvName_of_startsReserved {name : String} (starts : StartsReserved name) :
    isReservedEnvName name = some true := by
  obtain ⟨front,rest,isName,isFront⟩ := starts
  have ascii : IsAscii front := by
    intro char member
    have low : ("croniq_".toList.all fun other => other.toNat < 128) = true := by decide
    have isLower := of_decide_eq_true (all_eq_true.mp low _ (isFront ▸ mem_map_of_mem member))
    unfold toLower at isLower
    split at isLower
    · rename_i upper
      exact Nat.lt_of_le_of_lt (UInt32.le_iff_toNat_le.mp upper.2) (by decide)
    · exact isLower
  have size : (front.map toUInt8).length = 7 := by
    rw [length_map,← length_map toLower,isFront]
    rfl
  have bytes : encode name.toList = front.map toUInt8 ++ encode rest := by
    rw [isName,← encode_of_isAscii ascii]
    exact flatMap_append
  have sameCase : (front.map toUInt8).map (toLower <| ofUInt8 ·) = "croniq_".toList := by
    rw [← isFront,map_map]
    exact map_congr_left fun char member =>
      congrArg toLower (utf8EncodeChar_of_low (ascii char member)).2
  have long : ¬(encode name.toList).length < 7 := by simp [bytes,size]
  rw [isReservedEnvName]
  simp only [if_neg long]
  rw [bytes,drop_left' size,take_left' size,isCharBoundary_encode]
  simp only [if_true,eqIgnoreAsciiCase,sameCase]
  decide

/-- The seventh byte, where there are that many, ends a character. -/
def Sliceable (name : String) : Prop :=
  7 ≤ (encode name.toList).length → isCharBoundary ((encode name.toList).drop 7) = true

theorem isSome_isReservedEnvName_iff {name : String} :
    (isReservedEnvName name).isSome ↔ Sliceable name := by
  simp only [isReservedEnvName,Sliceable,← Nat.not_lt]
  split
  · simp [*]
  · split <;> simp [*]

/-- No variable of the runner's own reaches a job by accident, and the runner does not panic,
exactly if every value is Unicode and every name the operator does not list can be sliced. -/
theorem commandEnv_safe_iff (windows : Bool) (vars : List (String × List UInt8))
    (passthrough : Option String) (env : List (String × String)) :
    (∃ given, commandEnv windows vars passthrough env = some given ∧
      ∀ entry ∈ given, StartsReserved entry.1 →
        (∃ name ∈ (parsePassthrough passthrough).2, envNameEq windows name entry.1 = true) ∨
          entry ∈ env) ↔
    ∀ entry ∈ vars, entry.2.toByteArray.IsValidUTF8 ∧
      ((∃ name ∈ (parsePassthrough passthrough).2, envNameEq windows name entry.1 = true) ∨
        Sliceable entry.1) := by
  rcases shape : parsePassthrough passthrough with ⟨wildcard,extra⟩
  have listed (name : String) : extra.any (envNameEq windows · name) = true ↔
      ∃ other ∈ extra, envNameEq windows other name = true :=
    any_eq_true
  have decided (name : String) : (inherits windows name wildcard extra).isSome ↔
      (∃ other ∈ extra, envNameEq windows other name = true) ∨ Sliceable name := by
    rw [inherits,← listed,← isSome_isReservedEnvName_iff]
    split <;> simp [*]
  have readable : (vars.all fun entry => (String.fromUTF8? entry.2.toByteArray).isSome &&
        (inherits windows entry.1 wildcard extra).isSome) = true ↔
      ∀ entry ∈ vars, entry.2.toByteArray.IsValidUTF8 ∧
        ((∃ other ∈ extra, envNameEq windows other entry.1 = true) ∨ Sliceable entry.1) := by
    simp only [all_eq_true,Bool.and_eq_true,decided,String.fromUTF8?,Option.isSome_dite]
  rw [commandEnv,shape,← readable]
  dsimp only
  split
  · refine iff_of_true ⟨_,rfl,fun entry isGiven starts => ?_⟩ ‹_›
    rcases mem_append.mp isGiven with isInherited | isOwn
    · obtain ⟨⟨name,bytes⟩,_,passes⟩ := mem_filterMap.mp isInherited
      obtain ⟨passed,isEntry⟩ := Option.ite_none_right_eq_some.mp passes
      obtain ⟨value,_,rfl⟩ := Option.map_eq_some_iff.mp isEntry
      rw [inherits,isReservedEnvName_of_startsReserved starts] at passed
      split at passed
      · exact .inl ((listed _).mp ‹_›)
      · cases passed
    · exact .inr isOwn
  · exact iff_of_false (by rintro ⟨_,⟨⟩,-⟩) ‹_›

/-- A name of eight bytes, the last two one letter; a value of one byte that starts no character. -/
theorem commandEnv_panics :
    commandEnv false [("LOCALEé", encode "de".toList)] (some "*") [] = none ∧
      commandEnv false [("TZ", [255])] none [] = none := by
  decide

end Croniq

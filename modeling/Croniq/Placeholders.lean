import Croniq.DecimalText
import Croniq.RuntimeConfig
import Mathlib.Logic.Function.Basic

/-!
# Placeholders and their values

A placeholder stands for an environment variable, the text of a file or an entry
of a `vars` block.
-/

namespace Croniq.Config

open DecimalText Function String

/-- What the compiler reads outside the file, and the library functions for floats, JSON and dates.
-/
structure Host where
  lookup : String → Option String
  readToString : String → Except String String
  parseFloat : String → Option Float
  toJson : RunnerExec → Option String
  isDate : String → Bool

/-- A host without variables, files and dates. -/
def quietHost : Host where
  lookup _ := none
  readToString path := .error path
  parseFloat _ := none
  toJson _ := none
  isDate _ := false

inductive PlaceholderError where
  | unresolved (name : String)
  | fileRead (path reason : String)
  | unknownPrefix (placeholder : String)
deriving DecidableEq

abbrev Vars := String → Option String

/-- The Unicode property `White_Space`. -/
def isWhitespace (char : Char) : Bool :=
  let code := char.toNat
  (9 ≤ code && code ≤ 13) || code == 32 || code == 0x85 || code == 0xA0 || code == 0x1680 ||
    (0x2000 ≤ code && code ≤ 0x200A) || code == 0x2028 || code == 0x2029 || code == 0x202F ||
    code == 0x205F || code == 0x3000

def trimEnd (text : List Char) : List Char :=
  (text.reverse.dropWhile isWhitespace).reverse

def trim (text : String) : String :=
  ofList (trimEnd (text.toList.dropWhile isWhitespace))

def commaParts (text : String) : List String :=
  ((text.toList.splitOn ',').map (trim <| ofList ·)).filter (· ≠ "")

def splitOnce (separator : Char) : List Char → Option (List Char × List Char)
  | [] => none
  | char :: rest =>
    if char = separator then some ([], rest)
    else (splitOnce separator rest).map fun (before, after) => (char :: before, after)

variable (host : Host)

/-- The value of `{$NAME}` or `{$NAME:default}`, without the sign. -/
def resolveEnvironment (rest : List Char) : Except PlaceholderError String :=
  let (name, default) := match splitOnce ':' rest with
    | some (name, default) => (ofList name, some (ofList default))
    | none => (ofList rest, none)
  match (host.lookup name).or default with
  | some value => .ok value
  | none => .error (.unresolved ("$" ++ name))

variable (vars : Vars)

def resolve (placeholder : String) : Except PlaceholderError String :=
  let text := placeholder.toList
  match text.dropPrefix? ['$'], text.dropPrefix? "env.".toList, text.dropPrefix? "file.".toList,
    text.dropPrefix? "vars.".toList with
  | some rest, _, _, _ => resolveEnvironment host rest
  | none, some name, _, _ =>
    match host.lookup (ofList name) with
    | some value => .ok value
    | none => .error (.unresolved ("env." ++ ofList name))
  | none, none, some path, _ =>
    match host.readToString (ofList path) with
    | .ok content => .ok (trim content)
    | .error reason => .error (.fileRead (ofList path) reason)
  | none, none, none, some name =>
    match vars (ofList name) with
    | some value => .ok value
    | none => .error (.unresolved ("vars." ++ ofList name))
  | none, none, none, none => .error (.unknownPrefix placeholder)

def resolveStr (value : StringValue) : String :=
  if value.isPlaceholder then
    match resolve host vars value.value with
    | .ok resolved => resolved
    | .error _ => value.value
  else value.value

def firstArg (directive : Directive) : Option String :=
  directive.args.head?.map (resolveStr host vars)

def verboseDurationUnit : String → Option String
  | "millisecond" | "milliseconds" => some "ms"
  | "second" | "seconds" => some "s"
  | "minute" | "minutes" => some "m"
  | "hour" | "hours" => some "h"
  | "day" | "days" => some "d"
  | _ => none

/-- A duration in compact form: `4h` for `4 hours`. -/
def durationArg (directive : Directive) : Option String :=
  (firstArg host vars directive).map fun first =>
    match directive.args with
    | [_,unit] =>
      match verboseDurationUnit (resolveStr host vars unit) with
      | some suffix =>
        if (parseUnsigned 64 (trim first).toList).isSome then trim first ++ suffix else first
      | none => first
    | _ => first

/-- The entries of the `vars` blocks, in order. -/
def Croniqfile.varsEntries (ast : Croniqfile) : List Directive :=
  ast.items.flatMap fun
    | .vars entries => entries
    | _ => []

def collectLiteral (entry : Directive) : Vars :=
  match entry.args.head? with
  | some value =>
    if value.isPlaceholder then vars
    else update vars entry.key.value (some value.value)
  | none => vars

def collectPlaceholder (entry : Directive) : Vars :=
  match entry.args.head? with
  | some value =>
    if value.isPlaceholder then
      update vars entry.key.value (some (resolveStr host vars value))
    else vars
  | none => vars

def collectVars (ast : Croniqfile) : Vars :=
  ast.varsEntries.foldl (collectPlaceholder host)
    (ast.varsEntries.foldl collectLiteral fun _ => none)

end Croniq.Config

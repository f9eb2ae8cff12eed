import Croniq.JobCompile
import Mathlib.Data.List.MinMax
import Mathlib.Data.Prod.Lex

/-!
# The directives a block knows

The compiler ignores a key it does not know, so the validator holds every key
against the table of its block, and the values of some directives against a
domain.
-/

namespace Croniq.Config

open DecimalText

inductive Severity where
  | error | warning
deriving DecidableEq

structure Diagnostic where
  severity : Severity
  message : String
deriving DecidableEq

def Diagnostic.error (message : String) : Diagnostic where
  severity := .error
  message := message

def Diagnostic.warning (message : String) : Diagnostic where
  severity := .warning
  message := message

namespace Known

def server : List String :=
  ["listen","data_dir","db","app_url","execution_retention"]

def pullApi : List String :=
  ["listen","lease_ttl","trigger_dedup_window","runner_identity_binding"]

def mcp : List String :=
  ["enabled","allowed_hosts"]

def policy : List String :=
  ["dsl_adopt_on_mutate","strict_calendars"]

def oidc : List String :=
  ["issuer","client_id","redirect_url","default_role","provider_name","post_login_redirect"]

def smtp : List String :=
  ["host","port","security","from"]

def defaults : List String :=
  ["timezone","timeout","execution_mode","catch_up","queue_ttl","max_queue_depth",
    "keep_last","priority"]

def defaultsBlocks : List (String × List String) :=
  [("retry", ["max_attempts","base","cap","delay","step","jitter"]),
    ("dead_letter", ["enabled","retention","operator_hint","replay_max_age"])]

def job : List String :=
  ["description","timezone","timeout","window","execution_mode","catch_up","queue_ttl",
    "max_queue_depth","keep_last","singleton","max_concurrent","concurrency_group",
    "coalesce","priority","tags","run_on_register"]

def concurrencyGroup : List String :=
  ["max_concurrent"]

def jobBlocks : List String :=
  ["runner","retry","dead_letter","metadata"]

def scheduleOnly : List String :=
  ["calendar","not_before","not_after"]

def observabilityBlocks : List (String × List String) :=
  [("log", ["level","format","output"]),("metrics", ["listen","path"])]

def authBlocks : List (String × List String) :=
  [("password", ["enabled"]),("totp", ["required"])]

end Known

/-- What the value of a known directive must look like. -/
inductive Domain where
  | oneOf (allowed : List String)
  | count
  | fraction
  | text

def scalarValues : List (String × Domain) :=
  [("execution_mode", .oneOf ["queued","ephemeral"]),
    ("catch_up", .oneOf ["all","latest","none"]),
    ("max_queue_depth", .count),("keep_last", .count),("description", .text)]

def retryValues : List (String × Domain) :=
  [("max_attempts", .count),("jitter", .fraction)]

structure RemovedDirective where
  (block key message : String)

def removedDirectives : List RemovedDirective :=
  [{ block := "pull_api"
     key := "auth"
     message := "`pull_api \x7b auth … \x7d` was removed in 0.29.0 — it was never an auth " ++
      "on/off switch, its value was used verbatim as the JWT signing secret. Move that exact " ++
      "value to the CRONIQ_JWT_SECRET env var (or $DATA_DIR/jwt.secret) and delete this line. " ++
      "Leaving it here and letting the secret change also changes the key that wraps stored " ++
      "TOTP secrets at rest, which makes them undecryptable (recovery codes keep working). If " ++
      "no user has enrolled TOTP, any new secret is safe." }]

/-- The cells of a row after the first, from the cell to their left, the row above and the letter.
-/
def distanceCells (letter : Char) (left : Nat) : List Char → List Nat → List Nat
  | target :: targets, diagonal :: above :: previous =>
    let cost := if letter = target then 0 else 1
    let cell := min (min (diagonal + cost) (above + 1)) (left + 1)
    cell :: distanceCells letter cell targets (above :: previous)
  | _, _ => []

def distanceRows (target : List Char) : List Char → Nat → List Nat → List Nat
  | [], _, previous => previous
  | letter :: letters, index, previous =>
    distanceRows target letters (index + 1)
      ((index + 1) :: distanceCells letter (index + 1) target previous)

/-- The number of letters to insert, delete or replace. -/
def editDistance (first second : String) : Nat :=
  (distanceRows second.toList first.toList 0
    (List.range (second.toList.length + 1))).getLastD 0

example : editDistance "tomeout" "timeout" = 1 := by decide

/-- The nearest known key; a short key allows fewer differences. -/
def closest (got : String) (known : List String) : Option String :=
  let length := got.toList.length
  let budget := if length ≤ 3 then 1 else if length ≤ 8 then 2 else 3
  (known.filter fun key => editDistance got key ≤ budget).argmin fun key =>
    toLex (editDistance got key, key.utf8ByteSize)

def hint (got : String) (known : List String) : String :=
  match closest got known with
  | some best => " — did you mean '" ++ best ++ "'?"
  | none => " (known: " ++ ", ".intercalate (known.mergeSort fun a b => a ≤ b) ++ ")"

def Directive.hasPlaceholder (directive : Directive) : Bool :=
  directive.args.any StringValue.isPlaceholder

def Directive.words (directive : Directive) : List String :=
  directive.args.map StringValue.value

section

variable (host : Host)

def Domain.accepts : Domain → List String → Bool
  | .oneOf allowed, [value] => allowed.contains value
  | .count, [value] => (parseU32 value).isSome
  | .fraction, [value] => (host.parseFloat value).any fun number => 0 ≤ number && number ≤ 1
  | .text, [value] => value ≠ ""
  | _, _ => false

def Domain.fix : Domain → List String → String
  | .oneOf allowed, words =>
    let guess := match words with
      | [value] => (closest value allowed).elim "" fun best => "did you mean '" ++ best ++ "'? "
      | _ => ""
    guess ++ "write one of: " ++ ", ".intercalate allowed
  | .count, _ => "write a whole number, e.g. `10`"
  | .fraction, _ => "write a number from 0 to 1, e.g. `0.25`"
  | .text, _ => "write one value, quoted if it has spaces"

def checkValue (domains : List (String × Domain)) (directive : Directive) : List Diagnostic :=
  match domains.lookup directive.key.value with
  | none => []
  | some domain =>
    if directive.hasPlaceholder || domain.accepts host directive.words then []
    else
      let key := directive.key.value
      let shown := if directive.words = [] then "bare `" ++ key ++ "`"
        else "`" ++ key ++ " " ++ " ".intercalate directive.words ++ "`"
      [.error (shown ++ " is not a valid value — " ++ domain.fix directive.words)]

def plainDirectives (body : List DirectiveOrBlock) : List Directive :=
  body.filterMap fun
    | .directive directive => some directive
    | _ => none

def checkRetryValues (block : NamedBlock) : List Diagnostic :=
  if block.name.value = "retry" then
    (match block.qualifier with
      | some qualifier =>
        if qualifier.isPlaceholder || retryStrategies.contains qualifier.value then []
        else [.error ("unknown retry strategy '" ++ qualifier.value ++ "'" ++
          hint qualifier.value retryStrategies)]
      | none => []) ++
      (plainDirectives block.directives).flatMap (checkValue host retryValues)
  else []

def checkDirective (block : String) (known : List String) (directive : Directive) :
    List Diagnostic :=
  let key := directive.key.value
  if known.contains key then []
  else
    match removedDirectives.find? fun removed => removed.block == block && removed.key == key with
    | some removed => [.error removed.message]
    | none =>
      [.error ("unknown directive '" ++ key ++ "' in `" ++ block ++ " \x7b \x7d`" ++
        hint key known)]

def checkDirectives (block : String) (known : List String) (directives : List Directive) :
    List Diagnostic :=
  directives.flatMap (checkDirective block known)

/-- The name of a sub-block, then its body against the keys of that name. -/
def checkNamedBlock (parent : String) (known : List (String × List String))
    (block : NamedBlock) : List Diagnostic :=
  let name := block.name.value
  match known.lookup name with
  | none =>
    [.error ("unknown block '" ++ name ++ " \x7b \x7d' in `" ++ parent ++ " \x7b \x7d`" ++
      hint name (known.map Prod.fst))]
  | some keys =>
    let path := parent ++ "." ++ name
    block.directives.flatMap fun
      | .directive directive => checkDirective path keys directive
      | .block inner _ _ =>
        [.error ("unknown block '" ++ inner.value ++ " \x7b \x7d' in `" ++ path ++
          " \x7b \x7d` — this block takes directives only")]
      | .comment _ => []

def checkMetadataKey (label : String) (directive : Directive) : List Diagnostic :=
  if isReservedMetadataKey directive.key.value then
    [.error ("metadata key '" ++ directive.key.value ++ "' in `" ++ label ++
      " \x7b \x7d` is reserved: keys starting with `__` are set by croniq itself — use the " ++
      "directive instead, or rename the key")]
  else []

variable (job : JobBlock)

def checkJobDirective (directive : Directive) : List Diagnostic :=
  let key := directive.key.value
  if Known.job.contains key then checkValue host scalarValues directive
  else if Known.scheduleOnly.contains key then
    [.error ("`" ++ key ++ "` is a schedule option, not a job directive — move it into the " ++
      "schedule line's braces, e.g. `every day at 02:00 \x7b " ++ key ++ " … \x7d` (job '" ++
      job.key.raw ++ "')")]
  else
    [.error ("unknown directive '" ++ key ++ "' in `job " ++ job.key.raw ++ " \x7b \x7d`" ++
      hint key Known.job)]

def checkJobBlock (block : NamedBlock) : List Diagnostic :=
  let label := "job " ++ job.key.raw
  let name := block.name.value
  if Known.jobBlocks.contains name then
    (match Known.defaultsBlocks.lookup name with
      | some keys => checkDirectives (label ++ "." ++ name) keys (plainDirectives block.directives)
      | none => []) ++
      checkRetryValues host block ++
      (if name = "metadata" then
        (plainDirectives block.directives).flatMap (checkMetadataKey label)
      else [])
  else
    [.error ("unknown block '" ++ name ++ " \x7b \x7d' in `" ++ label ++ " \x7b \x7d`" ++
      hint name Known.jobBlocks)]

/-- The body of a job: its keys, its sub-blocks, and the bodies of those with fixed keys. -/
def checkJobBody : List Diagnostic :=
  job.directives.flatMap fun
    | .directive directive => checkJobDirective host job directive
    | .block name qualifier directives => checkJobBlock host job ⟨name,qualifier,directives⟩
    | .comment _ => []

def checkDefaultsBody : DirectiveOrBlock → List Diagnostic
  | .directive directive =>
    checkDirective "defaults" Known.defaults directive ++
      checkValue host scalarValues directive
  | .block name qualifier directives =>
    checkNamedBlock "defaults" Known.defaultsBlocks ⟨name,qualifier,directives⟩ ++
      checkRetryValues host ⟨name,qualifier,directives⟩
  | .comment _ => []

/-- The entries of `vars` are the operator's own; the other blocks left out have checks of their
own. -/
def validateBlock : Item → List Diagnostic
  | .server directives => checkDirectives "server" Known.server directives
  | .pullApi directives => checkDirectives "pull_api" Known.pullApi directives
  | .mcp directives => checkDirectives "mcp" Known.mcp directives
  | .policy directives => checkDirectives "policy" Known.policy directives
  | .oidc directives => checkDirectives "oidc" Known.oidc directives
  | .smtp directives => checkDirectives "smtp" Known.smtp directives
  | .defaults directives => directives.flatMap (checkDefaultsBody host)
  | .observability subBlocks =>
    subBlocks.flatMap (checkNamedBlock "observability" Known.observabilityBlocks)
  | .auth subBlocks => subBlocks.flatMap (checkNamedBlock "auth" Known.authBlocks)
  | .concurrencyGroup block =>
    checkDirectives ("concurrency_group " ++ block.name.value) Known.concurrencyGroup
      block.directives
  | .job block => checkJobBody host block
  | .importFile _ | .alerts _ | .vars _ | .calendar _ | .comment _ => []

def validateBlocks (ast : Croniqfile) : List Diagnostic :=
  ast.items.flatMap (validateBlock host)

end

end Croniq.Config

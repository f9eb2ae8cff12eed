import Croniq.CroniqfileSyntax

/-!
# Values in the syntax tree

Every value of a file can be replaced where it stands.
-/

namespace Croniq.Config

variable (σ : String → String)

/-- A placeholder becomes the quoted text that `σ` gives for it. -/
def StringValue.substitute (value : StringValue) : StringValue :=
  if value.isPlaceholder then ⟨σ value.value,true,false⟩ else value

def Directive.substitute (directive : Directive) : Directive :=
  ⟨directive.key.substitute σ,directive.args.map (StringValue.substitute σ)⟩

mutual

/-- Blocks are replaced down to their innermost directives. -/
def DirectiveOrBlock.substitute (σ : String → String) : DirectiveOrBlock → DirectiveOrBlock
  | .directive directive => .directive (directive.substitute σ)
  | .block name qualifier directives =>
    .block (name.substitute σ) (qualifier.map (StringValue.substitute σ))
      (substituteAll σ directives)
  | .comment text => .comment text

def substituteAll (σ : String → String) : List DirectiveOrBlock → List DirectiveOrBlock
  | [] => []
  | item :: rest => item.substitute σ :: substituteAll σ rest

end

variable (block : NamedBlock)

def NamedBlock.substitute : NamedBlock :=
  ⟨block.name.substitute σ,block.qualifier.map (StringValue.substitute σ),
    substituteAll σ block.directives⟩

def ScheduleKind.substitute : ScheduleKind → ScheduleKind
  | .once instant => .once (instant.substitute σ)
  | kind => kind

def ScheduleNode.substitute (node : ScheduleNode) : ScheduleNode :=
  { node with
    kind := node.kind.substitute σ
    options := node.options.map (Directive.substitute σ) }

variable (job : JobBlock)

def JobBlock.substitute : JobBlock :=
  { job with
    schedule := job.schedule.map (ScheduleNode.substitute σ)
    directives := substituteAll σ job.directives }

def CalendarRule.substitute (rule : CalendarRule) : CalendarRule :=
  { rule with
    ruleType := rule.ruleType.substitute σ
    args := rule.args.map (StringValue.substitute σ) }

def CalendarBlock.substitute (block : CalendarBlock) : CalendarBlock :=
  ⟨block.name.substitute σ,block.rules.map (CalendarRule.substitute σ)⟩

def ConcurrencyGroupBlock.substitute (block : ConcurrencyGroupBlock) : ConcurrencyGroupBlock :=
  ⟨block.name.substitute σ,block.directives.map (Directive.substitute σ)⟩

/-- No value of an item is left out. -/
def Item.substitute : Item → Item
  | .importFile path => .importFile (path.substitute σ)
  | .server directives => .server (directives.map (Directive.substitute σ))
  | .smtp directives => .smtp (directives.map (Directive.substitute σ))
  | .pullApi directives => .pullApi (directives.map (Directive.substitute σ))
  | .observability subBlocks => .observability (subBlocks.map (NamedBlock.substitute σ))
  | .mcp directives => .mcp (directives.map (Directive.substitute σ))
  | .oidc directives => .oidc (directives.map (Directive.substitute σ))
  | .auth subBlocks => .auth (subBlocks.map (NamedBlock.substitute σ))
  | .policy directives => .policy (directives.map (Directive.substitute σ))
  | .alerts subBlocks => .alerts (subBlocks.map (NamedBlock.substitute σ))
  | .vars entries => .vars (entries.map (Directive.substitute σ))
  | .defaults directives => .defaults (substituteAll σ directives)
  | .calendar block => .calendar (block.substitute σ)
  | .concurrencyGroup block => .concurrencyGroup (block.substitute σ)
  | .job block => .job (block.substitute σ)
  | .comment text => .comment text

/-- Every placeholder is replaced by a quoted literal. -/
def Croniqfile.substitute (ast : Croniqfile) : Croniqfile :=
  ⟨ast.items.map (Item.substitute σ)⟩

variable (directive : Directive)

/-- The key of a directive is a value too. -/
def Directive.values : List StringValue :=
  directive.key :: directive.args

mutual

def DirectiveOrBlock.values : DirectiveOrBlock → List StringValue
  | .directive directive => directive.values
  | .block name qualifier directives => name :: qualifier.toList ++ valuesOfAll directives
  | .comment _ => []

def valuesOfAll : List DirectiveOrBlock → List StringValue
  | [] => []
  | item :: rest => item.values ++ valuesOfAll rest

end

def NamedBlock.values : List StringValue :=
  block.name :: block.qualifier.toList ++ valuesOfAll block.directives

/-- Of the times of a schedule only an instant is a value. -/
def ScheduleKind.values : ScheduleKind → List StringValue
  | .once instant => [instant]
  | _ => []

def ScheduleNode.values (node : ScheduleNode) : List StringValue :=
  node.kind.values ++ node.options.flatMap Directive.values

def JobBlock.values : List StringValue :=
  job.schedule.toList.flatMap ScheduleNode.values ++ valuesOfAll job.directives

def CalendarRule.values (rule : CalendarRule) : List StringValue :=
  rule.ruleType :: rule.args

/-- The values that `Item.substitute` replaces. -/
def Item.values : Item → List StringValue
  | .importFile path => [path]
  | .server directives | .smtp directives | .pullApi directives | .mcp directives
  | .oidc directives | .policy directives | .vars directives => directives.flatMap Directive.values
  | .observability subBlocks | .auth subBlocks | .alerts subBlocks =>
    subBlocks.flatMap NamedBlock.values
  | .defaults directives => valuesOfAll directives
  | .calendar block => block.name :: block.rules.flatMap CalendarRule.values
  | .concurrencyGroup block => block.name :: block.directives.flatMap Directive.values
  | .job block => block.values
  | .comment _ => []

variable (ast : Croniqfile)

def Croniqfile.values : List StringValue :=
  ast.items.flatMap Item.values

mutual

/-- The values that are read without being resolved. -/
def DirectiveOrBlock.rawValues : DirectiveOrBlock → List StringValue
  | .directive directive => [directive.key]
  | .block name qualifier directives => name :: qualifier.toList ++ rawValuesOfAll directives
  | .comment _ => []

def rawValuesOfAll : List DirectiveOrBlock → List StringValue
  | [] => []
  | item :: rest => item.rawValues ++ rawValuesOfAll rest

end

/-- The name of a block and what its body reads as written, without its qualifier, which is
resolved. -/
def NamedBlock.rawValues : List StringValue :=
  block.name :: rawValuesOfAll block.directives

/-- The flag of `mcp` is not resolved. -/
def mcpRawValues : List StringValue :=
  directive.key :: if directive.key.value = "enabled" then directive.args.head?.toList else []

/-- A policy flag is read as written. -/
def policyRawValues : List StringValue :=
  directive.key :: directive.args.head?.toList

def JobBlock.rawValues : List StringValue :=
  (job.schedule.toList.flatMap fun node => node.kind.values ++ node.options.map Directive.key) ++
    rawValuesOfAll job.directives

/-- The keys, block names and rule types, and the values taken as written: the flags of `mcp` and
`policy`, the qualifiers of job blocks, the name of a calendar and the instant of a one-off
schedule. -/
def Item.rawValues : Item → List StringValue
  | .importFile _ | .comment _ => []
  | .server directives | .smtp directives | .pullApi directives | .oidc directives
  | .vars directives => directives.map Directive.key
  | .mcp directives => directives.flatMap mcpRawValues
  | .policy directives => directives.flatMap policyRawValues
  | .observability subBlocks | .auth subBlocks | .alerts subBlocks =>
    subBlocks.flatMap NamedBlock.rawValues
  | .defaults directives => rawValuesOfAll directives
  | .calendar block => block.name :: block.rules.map CalendarRule.ruleType
  | .concurrencyGroup block => block.directives.map Directive.key
  | .job block => block.rawValues

def Croniqfile.rawValues : List StringValue :=
  ast.items.flatMap Item.rawValues

def Item.calendarRules : Item → List CalendarRule
  | .calendar block => block.rules
  | _ => []

def Croniqfile.calendarRules : List CalendarRule :=
  ast.items.flatMap Item.calendarRules

end Croniq.Config

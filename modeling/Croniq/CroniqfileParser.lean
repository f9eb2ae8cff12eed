import Croniq.CroniqfileLexer

/-!
# The parser of a Croniqfile

The parser works on the tokens that are left.
-/

namespace Croniq.Config

open CivilCalendar ConsumingLoops DecimalText TokenKind

inductive ParseError where
  | general (message : String)
  | unexpected (expected got : String)
  | invalidJobKey (key : String)
  | invalidTime (value : String)
  | invalidOrdinal (value : String)
  | lex (error : LexError)
deriving DecidableEq

def TokenKind.display : TokenKind → String
  | .ident text => text
  | .quotedString text => "\"" ++ text ++ "\""
  | .comment text => "# " ++ text
  | .placeholder text => "\x7b" ++ text ++ "\x7d"
  | .lBrace => "\x7b"
  | .rBrace => "\x7d"
  | .semicolon => ";"
  | .dotDot => ".."
  | .newline => "<newline>"

def displayNext : List TokenKind → String
  | [] => "<eof>"
  | token :: _ => token.display

def TokenKind.value? : TokenKind → Option StringValue
  | .ident text => some ⟨text,false,false⟩
  | .quotedString text => some ⟨text,true,false⟩
  | .placeholder text => some ⟨text,false,true⟩
  | _ => none

def TokenKind.isTerminator : TokenKind → Bool
  | .semicolon | .newline => true
  | _ => false

variable (tokens : List TokenKind)

def readStringValue : Except ParseError (StringValue × List TokenKind) :=
  match tokens.head?.bind value? with
  | some value => .ok (value, tokens.tail)
  | none => .error (.unexpected "identifier, string, or placeholder" (displayNext tokens))

/-- Two values joined by dots, with the flags of the first. -/
def StringValue.to (first second : StringValue) : StringValue :=
  { first with value := first.value ++ ".." ++ second.value }

/-- The values of a directive, up to the first other token. -/
def parseArgs : List TokenKind → Except ParseError (List StringValue × List TokenKind)
  | [] => .ok ([], [])
  | token :: rest =>
    match token.value? with
    | none => .ok ([], token :: rest)
    | some first =>
      match rest with
      | .dotDot :: [] => .error (.unexpected "identifier, string, or placeholder" (displayNext []))
      | .dotDot :: next :: rest =>
        match next.value? with
        | none => .error (.unexpected "identifier, string, or placeholder" next.display)
        | some second => (parseArgs rest).map fun (args, left) => (first.to second :: args, left)
      | rest => (parseArgs rest).map fun (args, left) => (first :: args, left)

theorem parseArgs_range {token next : TokenKind} {first second : StringValue}
    (isFirst : token.value? = some first) (isSecond : next.value? = some second)
    (rest : List TokenKind) :
    parseArgs (token :: .dotDot :: next :: rest) =
      (parseArgs rest).map fun (args, left) => (first.to second :: args, left) := by
  simp [parseArgs,isFirst,isSecond]

theorem parseArgs_value {token : TokenKind} {first : StringValue} {rest : List TokenKind}
    (isFirst : token.value? = some first) (noRange : rest.head? ≠ some .dotDot) :
    parseArgs (token :: rest) = (parseArgs rest).map fun (args, left) => (first :: args, left) := by
  match rest with
  | [] => simp [parseArgs,isFirst]
  | next :: rest =>
    rw [parseArgs,isFirst]
    split <;> simp_all

def parseDirective : Except ParseError (Directive × List TokenKind) := do
  let (key, rest) ← readStringValue tokens
  let (args, rest) ← parseArgs rest
  return (⟨key,args⟩, rest.dropWhile isTerminator)

def nextText : List TokenKind → String
  | .ident text :: _ | .quotedString text :: _ | .placeholder text :: _ => text
  | _ => ""

def isValueToken : Bool :=
  (tokens.head?.bind value?).isSome

def TokenKind.isComment : TokenKind → Bool
  | .comment _ => true
  | _ => false

def TokenKind.isCommentOrSemicolon (token : TokenKind) : Bool :=
  token.isComment || token == .semicolon

def skipNewlines : List TokenKind → List TokenKind :=
  List.dropWhile (· == .newline)

def skipTerminators : List TokenKind → List TokenKind :=
  List.dropWhile isTerminator

def expectIdent (name : String) (tokens : List TokenKind) : Except ParseError (List TokenKind) :=
  if tokens.head? = some (.ident name) then .ok tokens.tail
  else .error (.unexpected ("'" ++ name ++ "'") (displayNext tokens))

def expectBrace (brace : TokenKind) (tokens : List TokenKind) :
    Except ParseError (List TokenKind) :=
  if (skipNewlines tokens).head? = some brace then .ok (skipNewlines tokens).tail
  else .error (.unexpected ("'" ++ brace.display ++ "'") (displayNext (skipNewlines tokens)))

def expectLBrace := expectBrace .lBrace

def expectRBrace := expectBrace .rBrace

abbrev Parser (α : Type) := List TokenKind → Except ParseError (α × List TokenKind)

/-- What a parser reads, as a part of something else. -/
def Parser.as {α β : Type} (parser : Parser α) (item : α → β) : Parser β := fun tokens =>
  (parser tokens).map fun (value, rest) => (item value, rest)

def braced {α : Type} (body : Parser α) : Parser α := fun tokens => do
  let rest ← expectLBrace tokens
  let (value, rest) ← body rest
  let rest ← expectRBrace rest
  return (value, rest)

def atBlockEnd : Bool :=
  tokens.isEmpty || tokens.head? == some .rBrace

/-- Read items up to the end of a block, without the ignored tokens. -/
def itemLoop {α : Type} (ignored : TokenKind → Bool) (item : Parser α) :
    Loop TokenKind (List α) ParseError where
  skip := skipNewlines
  stop _ := atBlockEnd
  body items tokens :=
    if tokens.head?.any ignored then .ok (items, tokens.tail)
    else (item tokens).map fun (read, rest) => (items ++ [read], rest)

def parseDirectivesUntilRBrace : Parser (List Directive) :=
  (itemLoop isCommentOrSemicolon parseDirective).run []

def maxBlockDepth : Nat := 64

/-- A comment, a block or a directive, told apart by what follows the first values. -/
def parseDirectiveOrBlock (parseBody : Parser (List DirectiveOrBlock)) :
    Parser DirectiveOrBlock := fun tokens =>
  match skipTerminators tokens with
  | .comment text :: rest => .ok (.comment text, rest)
  | tokens => do
      let (name, rest) ← readStringValue tokens
      if rest.head? = some .lBrace then Parser.as (braced parseBody) (.block name none) rest
      else
        match rest.head?.bind value? with
        | some qualifier =>
          if rest.tail.head? = some .lBrace then
            Parser.as (braced parseBody) (.block name (some qualifier)) rest.tail
          -- Not a block: the tokens are read again as a directive.
          else Parser.as parseDirective .directive tokens
        | none => Parser.as parseDirective .directive tokens

/-- The body of a block with up to that many more levels. -/
def parseDirectivesOrBlocksUntilRBrace : Nat → Parser (List DirectiveOrBlock)
  | 0 => fun _ =>
    .error (.general ("blocks nest deeper than " ++ toString maxBlockDepth ++ " levels"))
  | left + 1 =>
    (collect skipNewlines atBlockEnd
      (parseDirectiveOrBlock (parseDirectivesOrBlocksUntilRBrace left))).run []

def parseBlockBody : Parser (List DirectiveOrBlock) :=
  parseDirectivesOrBlocksUntilRBrace maxBlockDepth

def parseNamedBlock : Parser NamedBlock := fun tokens => do
  let (name, rest) ← readStringValue tokens
  let (directives, rest) ← braced parseBlockBody rest
  return (⟨name,none,directives⟩, rest)

/-- A named block of the alerts. -/
def parseAlertBlock : Parser NamedBlock := fun tokens => do
  let (name, rest) ← readStringValue tokens
  if rest.head? = some .lBrace then
    .error (.general ("expected a string identifier after `" ++ name.value ++ "` (e.g. `" ++
      name.value ++ " \"name\" \x7b … \x7d`)"))
  else
    let (qualifier, rest) ← readStringValue rest
    let (directives, rest) ← braced parseBlockBody rest
    return (⟨name,some qualifier,directives⟩, rest)

def parseKeywordBlock {α : Type} (keyword : String) (body : Parser α) : Parser α := fun tokens => do
  let rest ← expectIdent keyword tokens
  braced body rest

def parseServer := parseKeywordBlock "server" parseDirectivesUntilRBrace

def parseSmtp := parseKeywordBlock "smtp" parseDirectivesUntilRBrace

def parsePullApi := parseKeywordBlock "pull_api" parseDirectivesUntilRBrace

def parseMcp := parseKeywordBlock "mcp" parseDirectivesUntilRBrace

def parsePolicy := parseKeywordBlock "policy" parseDirectivesUntilRBrace

def parseOidc := parseKeywordBlock "oidc" parseDirectivesUntilRBrace

def parseVars := parseKeywordBlock "vars" parseDirectivesUntilRBrace

def parseDefaults := parseKeywordBlock "defaults" parseBlockBody

def parseAuth :=
  parseKeywordBlock "auth" ((itemLoop isComment parseNamedBlock).run [])

def parseObservability :=
  parseKeywordBlock "observability" ((itemLoop isComment parseNamedBlock).run [])

def parseAlerts :=
  parseKeywordBlock "alerts" ((itemLoop isComment parseAlertBlock).run [])

def parseImport : Parser StringValue := fun tokens => do
  let rest ← expectIdent "import" tokens
  readStringValue rest

def parseConcurrencyGroup : Parser ConcurrencyGroupBlock := fun tokens => do
  let rest ← expectIdent "concurrency_group" tokens
  let (name, rest) ← readStringValue rest
  let (directives, rest) ← braced parseDirectivesUntilRBrace rest
  return (⟨name,directives⟩, rest)

def week : List Weekday := [.mon,.tue,.wed,.thu,.fri,.sat,.sun]

/-- The days from an index on, to the last one or once around the week. -/
def weekdayWalk (last : Nat) : Nat → Nat → List Weekday
  | 0, _ => []
  | left + 1, index =>
    week.getD index .mon :: if index = last then [] else weekdayWalk last left ((index + 1) % 7)

def weekdayRange (first last : Weekday) : List Weekday :=
  weekdayWalk (week.idxOf last) 7 (week.idxOf first)

variable (text : String)

def bareValue : StringValue := ⟨text,false,false⟩

variable (ruleType : String)

/-- A range in a rule is a list of days if both its ends are days. -/
def expandRange (first second : StringValue) : List StringValue :=
  match ruleType with
  | "weekly" =>
    match parseWeekday first.value, parseWeekday second.value with
    | some start, some last => (weekdayRange start last).map fun day => bareValue (weekdayAsStr day)
    | _, _ => [first,second]
  | "monthly" =>
    match parseUnsigned 32 first.value.toList, parseUnsigned 32 second.value.toList with
    | some start, some last =>
      if start ≤ 31 ∧ last ≤ 31 ∧ start ≤ last then
        (List.range' start (last + 1 - start)).map fun day => bareValue (toString day)
      else [first,second]
    | _, _ => [first,second]
  | _ => [first,second]

/-- A group alias in a weekly rule is the list of its days. -/
def expandGroup (value : StringValue) : List StringValue :=
  match parseWeekdayGroup value.value with
  | some group =>
    if ruleType = "weekly" ∧ value.isPlaceholder = false then
      group.map fun day => bareValue (weekdayAsStr day)
    else [value]
  | none => [value]

def startsRule : Bool :=
  tokens.head? == some (.ident "include") || tokens.head? == some (.ident "exclude") ||
    tokens.head? == some (.ident "timezone")

/-- One argument of a rule, or those of its range. -/
def parseRuleArg : Parser (List StringValue) := fun tokens => do
  let (first, rest) ← readStringValue tokens
  if rest.head? = some .dotDot then
    let (second, rest) ← readStringValue rest.tail
    return (expandRange ruleType first second, rest)
  else return (expandGroup ruleType first, rest)

/-- The arguments of a rule, and whether a terminator ended it. -/
def ruleArgLoop : Loop TokenKind (List StringValue × Bool) ParseError where
  skip := id
  stop state tokens := state.2 || !isValueToken tokens || startsRule tokens
  body state tokens := (parseRuleArg ruleType tokens).map fun (read, rest) =>
    if rest.head?.any isTerminator then ((state.1 ++ read, true), rest.tail)
    else ((state.1 ++ read, false), rest)

def parseRule (kind : CalendarRuleKind) : Parser CalendarRule := fun tokens => do
  let (_, rest) ← readStringValue tokens
  let (ruleType, rest) ← readStringValue rest
  let ((args, _), rest) ← (ruleArgLoop (toAsciiLowercase ruleType.value)).run ([], false) rest
  return (⟨kind,ruleType,args⟩, rest)

def parseCalendarRule : Parser CalendarRule := fun tokens =>
  match nextText tokens with
  | "include" => parseRule .include tokens
  | "exclude" => parseRule .exclude tokens
  | "timezone" => do
      let (key, rest) ← readStringValue tokens
      let (timezone, rest) ← readStringValue rest
      return (⟨.include,key,[timezone]⟩, rest)
  | other =>
    .error (.general ("expected 'include', 'exclude', or 'timezone', got '" ++ other ++ "'"))

def parseCalendar : Parser CalendarBlock := fun tokens => do
  let rest ← expectIdent "calendar" tokens
  let (name, rest) ← readStringValue rest
  let (rules, rest) ←
    braced ((itemLoop isCommentOrSemicolon parseCalendarRule).run []) rest
  return (⟨name,rules⟩, rest)

def readTime (raw : String) : Except ParseError TimeValue :=
  match raw.toList.splitOn ':' with
  | [hour,minute] =>
    match parseUnsigned 8 hour, parseUnsigned 8 minute with
    | some hour, some minute =>
      if 23 < hour ∨ 59 < minute then .error (.invalidTime raw) else .ok ⟨hour,minute,raw⟩
    | _, _ => .error (.invalidTime raw)
  | _ => .error (.invalidTime raw)

/-- A value made of the text of the next token. -/
def ofNextText {α : Type} (read : String → Except ParseError α) : Parser α := fun tokens =>
  (read (nextText tokens)).map fun value => (value, tokens.tail)

def parseTimeToken : Parser TimeValue := ofNextText readTime

def parseOptionalScheduleBlock : Parser (List Directive) := fun tokens =>
  if tokens.head? = some .lBrace then braced parseDirectivesUntilRBrace tokens
  else .ok ([], tokens)

def isDayName : Bool :=
  (parseWeekdayToken text).isSome

def ordinalEndings : List (List Char) :=
  [['s','t'],['n','d'],['r','d'],['t','h']]

def isOrdinal : Bool :=
  text == "last" || ordinalEndings.any fun ending => ending.isSuffixOf text.toList

def stripSuffix (ending text : List Char) : Option (List Char) :=
  if ending.isSuffixOf text then some (text.take (text.length - ending.length)) else none

def readOrdinal : Except ParseError MonthDay :=
  if text = "last" then .ok .last
  else
    match ordinalEndings.findSome? fun ending => stripSuffix ending text.toList with
    | none => .error (.invalidOrdinal text)
    | some digits =>
      match parseUnsigned 8 digits with
      | none => .error (.invalidOrdinal text)
      | some number =>
        if number = 0 ∨ 31 < number then .error (.invalidOrdinal text) else .ok (.day number)

def parseOrdinal : Parser MonthDay := ofNextText readOrdinal

def splitUnit (text : List Char) : Option (List Char × IntervalUnit) :=
  match stripSuffix ['s'] text with
  | some digits => some (digits, .seconds)
  | none =>
    match stripSuffix ['m'] text with
    | some digits => some (digits, .minutes)
    | none => (stripSuffix ['h'] text).map fun digits => (digits, .hours)

/-- A count with its unit as one letter, `15m`. -/
def parseCompactInterval : Option (Nat × IntervalUnit) :=
  (splitUnit text.toList).bind fun (digits, unit) =>
    if digits.isEmpty then none else (parseUnsigned 32 digits).map fun count => (count, unit)

def parseIntervalUnit : Option IntervalUnit :=
  match text with
  | "seconds" | "second" => some .seconds
  | "minutes" | "minute" => some .minutes
  | "hours" | "hour" => some .hours
  | _ => none

def parseInterval : Parser (Nat × IntervalUnit) := fun tokens =>
  let text := nextText tokens
  match parseCompactInterval text with
  | some interval => .ok (interval, tokens.tail)
  | none =>
    match parseUnsigned 32 text.toList with
    | none =>
      .error (.general ("expected number or compact duration (e.g. '15', '15m', '30s', " ++
        "'2h'), got '" ++ text ++ "'"))
    | some count =>
      match parseIntervalUnit (nextText tokens.tail) with
      | none =>
        .error (.general ("expected 'seconds', 'minutes', or 'hours', got '" ++
          nextText tokens.tail ++ "'"))
      | some unit => .ok ((count, unit), tokens.tail.tail)

def parseScheduleInterval : Parser ScheduleNode := fun tokens => do
  let ((count, unit), rest) ← parseInterval tokens
  let (options, rest) ← parseOptionalScheduleBlock rest
  return (⟨.interval count unit,none,options⟩, rest)

def parseScheduleDaily : Parser ScheduleNode := fun tokens => do
  let rest ← expectIdent "day" tokens
  let rest ← expectIdent "at" rest
  let (time, rest) ← parseTimeToken rest
  let (options, rest) ← parseOptionalScheduleBlock rest
  return (⟨.daily time,none,options⟩, rest)

/-- Day names, group aliases and ranges from a day name on. -/
def weekdayLoop : Loop TokenKind (List Weekday) ParseError where
  skip := id
  stop _ tokens := !isDayName (nextText tokens)
  body days tokens :=
    match parseWeekdayGroup (nextText tokens) with
    | some group => .ok (days ++ group, tokens.tail)
    | none =>
      match parseWeekday (nextText tokens) with
      | none => .error (.general "is_day_name guarded")
      | some start =>
        if tokens.tail.head? = some .dotDot then
          match parseWeekday (nextText tokens.tail.tail) with
          | some last => .ok (days ++ weekdayRange start last, tokens.tail.tail.tail)
          | none =>
            .error (.general ("expected weekday name after '..', got '" ++
              nextText tokens.tail.tail ++ "'"))
        else .ok (days ++ [start], tokens.tail)

def parseScheduleWeekdays : Parser ScheduleNode := fun tokens => do
  let (days, rest) ← weekdayLoop.run [] tokens
  let rest ← expectIdent "at" rest
  let (time, rest) ← parseTimeToken rest
  let (options, rest) ← parseOptionalScheduleBlock rest
  return (⟨.weekdays days time,none,options⟩, rest)

def ordinalLoop : Loop TokenKind (List MonthDay) ParseError :=
  collect id (fun tokens => !isOrdinal (nextText tokens)) parseOrdinal

def parseScheduleMonthly : Parser ScheduleNode := fun tokens => do
  let (ordinals, rest) ← ordinalLoop.run [] tokens
  let rest ← expectIdent "of" rest
  let rest ← expectIdent "month" rest
  let rest ← expectIdent "at" rest
  let (time, rest) ← parseTimeToken rest
  let (options, rest) ← parseOptionalScheduleBlock rest
  return (⟨.monthly ordinals time,none,options⟩, rest)

def parseScheduleOnce : Parser ScheduleNode := fun tokens => do
  let rest ← expectIdent "once" tokens
  let rest ← expectIdent "at" rest
  let (datetime, rest) ← readStringValue rest
  return (⟨.once datetime,none,[]⟩, rest)

def parseScheduleEvery : Parser ScheduleNode := fun tokens => do
  let rest ← expectIdent "every" tokens
  if isDayName (nextText rest) then parseScheduleWeekdays rest
  else if rest.head? = some (.ident "day") then parseScheduleDaily rest
  else if isOrdinal (nextText rest) then parseScheduleMonthly rest
  else parseScheduleInterval rest

def parseScheduleMode : Option ScheduleMode × List TokenKind :=
  match nextText tokens with
  | "ephemeral" => (some .ephemeral, tokens.tail)
  | "queued" => (some .queued, tokens.tail)
  | _ => (none, tokens)

def parseScheduleBody : Parser ScheduleNode := fun tokens =>
  match nextText tokens with
  | "disabled" => .ok (⟨.disabled,none,[]⟩, tokens.tail)
  | "once" => parseScheduleOnce tokens
  | "every" => parseScheduleEvery tokens
  | _ => .error (.general "expected 'every', 'once', or 'disabled'")

def parseSchedule : Parser ScheduleNode := fun tokens =>
  let (mode, rest) := parseScheduleMode tokens
  Parser.as parseScheduleBody (fun node => { node with mode }) rest

def readJobKey (raw : String) : Except ParseError JobKey :=
  match (raw.toList.splitOn ':').map String.ofList with
  | [nameSpace,name] => .ok ⟨raw,nameSpace,name,none⟩
  | [nameSpace,name,variant] => .ok ⟨raw,nameSpace,name,some variant⟩
  | _ => .error (.invalidJobKey raw)

def parseJobKey : Parser JobKey := fun tokens =>
  match tokens with
  | .ident _ :: _ | .quotedString _ :: _ => ofNextText readJobKey tokens
  | _ => .error (.unexpected "job key" (displayNext tokens))

def scheduleStarts : List String :=
  ["every","once","disabled","ephemeral","queued"]

def isScheduleStart : Bool :=
  scheduleStarts.any fun word => tokens.head? == some (.ident word)

/-- The body of a job: its first schedule, and its directives. -/
def jobLoop : Loop TokenKind (Option ScheduleNode × List DirectiveOrBlock) ParseError where
  skip := skipNewlines
  stop _ := atBlockEnd
  body state tokens :=
    match tokens with
    | .comment text :: rest => .ok ((state.1, state.2 ++ [.comment text]), rest)
    | .semicolon :: rest => .ok (state, rest)
    | tokens =>
      if state.1.isNone ∧ isScheduleStart tokens then
        (parseSchedule tokens).map fun (node, rest) => ((some node, state.2), rest)
      else
        (parseDirectiveOrBlock parseBlockBody tokens).map fun (item, rest) =>
          ((state.1, state.2 ++ [item]), rest)

def parseJob : Parser JobBlock := fun tokens => do
  let rest ← expectIdent "job" tokens
  let (key, rest) ← parseJobKey rest
  let ((schedule, directives), rest) ← braced (jobLoop.run (none, [])) rest
  return (⟨key,schedule,directives⟩, rest)

def topLevelBlocks : String :=
  "import, server, smtp, pull_api, observability, mcp, oidc, auth, policy, alerts, vars, " ++
    "defaults, calendar, concurrency_group, or job"

def parseKeyword : String → Parser Item
  | "import" => Parser.as parseImport .importFile
  | "server" => Parser.as parseServer .server
  | "smtp" => Parser.as parseSmtp .smtp
  | "pull_api" => Parser.as parsePullApi .pullApi
  | "observability" => Parser.as parseObservability .observability
  | "mcp" => Parser.as parseMcp .mcp
  | "oidc" => Parser.as parseOidc .oidc
  | "auth" => Parser.as parseAuth .auth
  | "policy" => Parser.as parsePolicy .policy
  | "alerts" => Parser.as parseAlerts .alerts
  | "vars" => Parser.as parseVars .vars
  | "defaults" => Parser.as parseDefaults .defaults
  | "calendar" => Parser.as parseCalendar .calendar
  | "concurrency_group" => Parser.as parseConcurrencyGroup .concurrencyGroup
  | "job" => Parser.as parseJob .job
  | other => fun _ => .error (.general ("unknown top-level block: '" ++ other ++ "'"))

def parseItem : Parser Item := fun tokens =>
  match skipTerminators tokens with
  | .comment text :: rest => .ok (.comment text, rest)
  | .ident text :: rest => parseKeyword text (.ident text :: rest)
  | tokens => .error (.unexpected topLevelBlocks (displayNext tokens))

def parseCroniqfile : Except ParseError Croniqfile :=
  ((collect skipTerminators List.isEmpty parseItem).run [] tokens).map fun (items, _) => ⟨items⟩

def parse (source : String) : Except ParseError Croniqfile :=
  match tokenize source.toList with
  | .error error => .error (.lex error)
  | .ok tokens => parseCroniqfile tokens

end Croniq.Config

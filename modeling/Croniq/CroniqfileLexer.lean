import Croniq.ConsumingLoops
import Croniq.Placeholders
import Mathlib.Data.List.DropRight

/-!
# The lexer of a Croniqfile

A source text is cut into words, strings, placeholders, comments and marks.
-/

namespace Croniq.Config

open ConsumingLoops List

inductive TokenKind where
  | ident (text : String)
  | quotedString (text : String)
  | comment (text : String)
  | placeholder (text : String)
  | lBrace
  | rBrace
  | semicolon
  | dotDot
  | newline
deriving DecidableEq

inductive LexError where
  | unterminatedString
  | unterminatedPlaceholder
  | invalidEscape (char : Char)
  | unexpectedChar (char : Char)
deriving DecidableEq

variable (char : Char)

def isSpace : Bool :=
  char == ' ' || char == '\t' || char == '\r'

def isBlank : Bool :=
  char == '\n' || isSpace char

def isIdentChar : Bool :=
  char.isAlphanum || [':','/','*','?','-','.','_','+','@'].contains char

variable (rest : List Char)

/-- An opening brace starts a placeholder, given what follows. -/
def isPlaceholderStart : Bool :=
  rest.head? == some '$' || ['e','n','v','.'].isPrefixOf rest ||
    ['f','i','l','e','.'].isPrefixOf rest || ['v','a','r','s','.'].isPrefixOf rest

/-- The text of a comment without the sign, its first space and blanks at its end. -/
def lexComment : TokenKind × List Char :=
  let content := if rest.head? = some ' ' then rest.tail else rest
  (.comment (String.ofList (trimEnd (content.takeWhile (· != '\n')))),
    content.dropWhile (· != '\n'))

def unescape : Char → Option Char
  | 'n' => some '\n'
  | 't' => some '\t'
  | 'r' => some '\r'
  | '\\' => some '\\'
  | '"' => some '"'
  | _ => none

/-- An error names the first byte after the backslash. -/
def firstByte : Char :=
  Char.ofNat ((String.utf8EncodeChar char).headD 0).toNat

/-- The body of a string, without its closing quote. -/
def lexStringBody : List Char → Except LexError (List Char × List Char)
  | [] => .error .unterminatedString
  | '"' :: rest => .ok ([], rest)
  | ['\\'] => .error .unterminatedString
  | '\\' :: escape :: rest =>
    match unescape escape with
    | some char => (lexStringBody rest).map fun (value, left) => (char :: value, left)
    | none => .error (.invalidEscape (firstByte escape))
  | '\n' :: _ => .error .unterminatedString
  | char :: rest => (lexStringBody rest).map fun (value, left) => (char :: value, left)

/-- The body of a placeholder, without its closing brace. -/
def lexPlaceholderBody : Nat → List Char → Except LexError (List Char × List Char)
  | _, [] => .error .unterminatedPlaceholder
  | depth, '\x7b' :: rest =>
    (lexPlaceholderBody (depth + 1) rest).map fun (content, left) => ('\x7b' :: content, left)
  | depth, '\x7d' :: rest =>
    if depth - 1 = 0 then .ok ([], rest)
    else
      (lexPlaceholderBody (depth - 1) rest).map fun (content, left) => ('\x7d' :: content, left)
  | _, '\n' :: _ => .error .unterminatedPlaceholder
  | depth, char :: rest =>
    (lexPlaceholderBody depth rest).map fun (content, left) => (char :: content, left)

/-- The longest word at the front; two dots in a row end it. -/
def spanIdent : List Char → List Char × List Char
  | [] => ([], [])
  | char :: rest =>
    if isIdentChar char ∧ ¬ (char = '.' ∧ rest.head? = some '.') then
      (char :: (spanIdent rest).1, (spanIdent rest).2)
    else ([], char :: rest)

def lexIdent (chars : List Char) : Except LexError (TokenKind × List Char) :=
  if (spanIdent chars).1 = [] then .error (.unexpectedChar (chars.headD '�'))
  else .ok (.ident (String.ofList (spanIdent chars).1), (spanIdent chars).2)

/-- The first token of a text without a space in front. -/
def nextToken : List Char → Except LexError (TokenKind × List Char)
  | '\n' :: rest => .ok (.newline, rest.dropWhile isBlank)
  | '#' :: rest => .ok (lexComment rest)
  | '"' :: rest =>
    (lexStringBody rest).map fun (value, left) => (.quotedString (String.ofList value), left)
  | '\x7b' :: rest =>
    if isPlaceholderStart rest then
      (lexPlaceholderBody 1 rest).map fun (content, left) =>
        (.placeholder (String.ofList content), left)
    else .ok (.lBrace, rest)
  | '\x7d' :: rest => .ok (.rBrace, rest)
  | ';' :: rest => .ok (.semicolon, rest)
  | '.' :: '.' :: rest => .ok (.dotDot, rest)
  | chars => lexIdent chars

def skipSpaces : List Char → List Char := dropWhile isSpace

def tokenLoop : Loop Char (List TokenKind) LexError :=
  collect skipSpaces isEmpty nextToken

def tokenize (source : List Char) : Except LexError (List TokenKind) :=
  (tokenLoop.run [] source).map Prod.fst

variable (chars : List Char)

theorem lexStringBody_append :
    Yields (fun (_, rest) => ∃ body, body ++ '"' :: rest = chars) (lexStringBody chars) := by
  fun_induction lexStringBody chars with
  | case1 | case3 | case5 | case6 => trivial
  | case2 rest => exact ⟨[],rfl⟩
  | case4 escape rest char escaped ih =>
    apply ih.map
    rintro _ ⟨body,rfl⟩
    exact ⟨'\\' :: escape :: body,rfl⟩
  | case7 char rest notQuote notLast notEscape notNewline ih =>
    apply ih.map
    rintro _ ⟨body,rfl⟩
    exact ⟨char :: body,rfl⟩

theorem lexPlaceholderBody_append (depth : Nat) (chars : List Char) :
    Yields (fun (content, rest) => content ++ '\x7d' :: rest = chars)
      (lexPlaceholderBody depth chars) := by
  fun_induction lexPlaceholderBody depth chars with
  | case1 | case5 => trivial
  | case2 depth rest ih => exact ih.map fun _ append => congrArg (_ :: ·) append
  | case3 => rfl
  | case4 depth rest inner ih => exact ih.map fun _ append => congrArg (_ :: ·) append
  | case6 depth char rest notOpen notClosed notNewline ih =>
    exact ih.map fun _ append => congrArg (_ :: ·) append

theorem spanIdent_append : (spanIdent chars).1 ++ (spanIdent chars).2 = chars := by
  fun_induction spanIdent chars with
  | case1 => rfl
  | case2 char rest inWord ih => simpa using ih
  | case3 => rfl

theorem lexComment_append : ∃ body, body ++ (lexComment rest).2 = rest := by
  rw [lexComment]
  split
  next space =>
    obtain ⟨content,rfl⟩ := head?_eq_some_iff.mp space
    exact ⟨' ' :: content.takeWhile (· != '\n'),by simp⟩
  · exact ⟨rest.takeWhile (· != '\n'),by simp⟩

theorem nextToken_append :
    Yields (fun (kind, rest) => ∃ first taken, first :: (taken ++ rest) = chars ∧
      (kind = .newline → first = '\n' ∧ taken.all isBlank)) (nextToken chars) := by
  fun_cases nextToken chars with
  | case1 rest => exact ⟨'\n',rest.takeWhile isBlank,by simp⟩
  | case2 rest =>
    obtain ⟨body,append⟩ := lexComment_append rest
    exact ⟨_,body,congrArg (_ :: ·) append,nofun⟩
  | case3 rest =>
    apply (lexStringBody_append rest).map
    rintro _ ⟨body,append⟩
    exact ⟨'"',body ++ ['"'],by simp [append],nofun⟩
  | case4 rest =>
    apply (lexPlaceholderBody_append 1 rest).map
    intro read append
    exact ⟨'\x7b',read.1 ++ ['\x7d'],by simp [append],nofun⟩
  | case5 | case6 | case7 => exact ⟨_,[],rfl,nofun⟩
  | case8 rest => exact ⟨_,['.'],rfl,nofun⟩
  | case9 chars =>
    rw [lexIdent]
    split
    · trivial
    next notEmpty =>
      obtain ⟨first,taken,isWord⟩ := exists_cons_of_ne_nil notEmpty
      have append := spanIdent_append chars
      exact ⟨first,taken,by rwa [isWord] at append,nofun⟩

theorem nextToken_shorter :
    Yields (fun (_, rest) => rest.length < chars.length) (nextToken chars) := by
  have append := nextToken_append chars
  cases next : nextToken chars with
  | error => trivial
  | ok read =>
    obtain ⟨first,taken,rfl,-⟩ := next ▸ append
    simp only [yields_ok,length_append,length_cons]
    omega

theorem tokenLoop_consumes : tokenLoop.Consumes :=
  collect_consumes (fun _ => (dropWhile_sublist _).length_le)
    fun input _ => nextToken_shorter input

theorem tokenize_eq (source : List Char) :
    tokenize source =
      if skipSpaces source = [] then .ok []
      else nextToken (skipSpaces source) >>= fun (token, rest) =>
        (tokenize rest).map fun tokens => token :: tokens := by
  rw [tokenize,tokenLoop,run_collect_eq tokenLoop_consumes]
  by_cases empty : skipSpaces source = []
  · simp [empty,Except.map]
  rw [if_neg empty,if_neg (by simpa using empty)]
  cases nextToken (skipSpaces source) with
  | error => rfl
  | ok result =>
    simp only [bind,Except.bind,tokenize,tokenLoop]
    cases (collect skipSpaces isEmpty nextToken).run [] result.2 <;> rfl

example : tokenize "window 02:00..{$END} # all night".toList =
    .ok [.ident "window",.ident "02:00",.dotDot,.placeholder "$END",.comment "all night"] := by
  decide

end Croniq.Config

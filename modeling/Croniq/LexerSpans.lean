import Croniq.CroniqfileLexer

/-!
# The lexer on bytes

The lexer looks at single bytes and cuts its tokens out of the source at byte
positions.  Cutting inside a character would crash it.
-/

namespace Croniq.Config

open Char List

/-- A token with its span; the end of the input has the kind `none`. -/
structure Token where
  kind : Option TokenKind
  (start length : Nat)
deriving DecidableEq

inductive LexFailure where
  | refused (error : LexError)
  | panic
deriving DecidableEq

def encode (chars : List Char) : List UInt8 :=
  chars.flatMap String.utf8EncodeChar

/-- Whether a position is the start of a character or the end, by the byte that is next. -/
def isCharBoundary : List UInt8 → Bool
  | [] => true
  | byte :: _ => byte < 128 || 192 ≤ byte

def fromUtf8 (bytes : List UInt8) : Except LexFailure String :=
  match String.fromUTF8? bytes.toByteArray with
  | some text => .ok text
  | none => .error .panic

/-- The source between two positions, given by the bytes from there on. -/
def slice (rest left : List UInt8) : Except LexFailure String :=
  if isCharBoundary rest && isCharBoundary left then
    fromUtf8 (rest.take (rest.length - left.length))
  else .error .panic

def commentBytes (rest : List UInt8) : Except LexFailure (TokenKind × List UInt8) :=
  let content := if rest.head?.map ofUInt8 = some ' ' then rest.tail else rest
  let left := content.dropWhile (ofUInt8 · != '\n')
  (slice content left).map fun text => (.comment (String.ofList (trimEnd text.toList)), left)

/-- The body of a string; after a backslash the next byte is `escaped`. -/
def stringBytes : Bool → List UInt8 → Except LexFailure (List UInt8 × List UInt8)
  | _, [] => .error (.refused .unterminatedString)
  | true, byte :: rest =>
    match unescape (ofUInt8 byte) with
    | some char =>
      (stringBytes false rest).map fun (value, left) => (char.toUInt8 :: value, left)
    | none => .error (.refused (.invalidEscape (ofUInt8 byte)))
  | false, byte :: rest =>
    match ofUInt8 byte with
    | '"' => .ok ([], rest)
    | '\\' => stringBytes true rest
    | '\n' => .error (.refused .unterminatedString)
    | _ => (stringBytes false rest).map fun (value, left) => (byte :: value, left)

/-- The position of the brace that closes a placeholder.  The depth is an `i32` in the source, which
only two gibibytes of opening braces exceed. -/
def placeholderBytes : Nat → List UInt8 → Except LexFailure (List UInt8)
  | _, [] => .error (.refused .unterminatedPlaceholder)
  | depth, byte :: rest =>
    match ofUInt8 byte with
    | '\x7b' => placeholderBytes (depth + 1) rest
    | '\x7d' => if depth - 1 = 0 then .ok (byte :: rest) else placeholderBytes (depth - 1) rest
    | '\n' => .error (.refused .unterminatedPlaceholder)
    | _ => placeholderBytes depth rest

/-- What is left after the word at the front. -/
def wordBytes : List UInt8 → List UInt8
  | [] => []
  | byte :: rest =>
    if isIdentChar (ofUInt8 byte) ∧ ¬ (ofUInt8 byte = '.' ∧ rest.head?.map ofUInt8 = some '.') then
      wordBytes rest
    else byte :: rest

def identBytes (bytes : List UInt8) : Except LexFailure (TokenKind × List UInt8) :=
  let left := wordBytes bytes
  if left.length = bytes.length then
    (slice bytes []).bind fun text => .error (.refused (.unexpectedChar (text.toList.headD '�')))
  else (slice bytes left).map fun text => (.ident text, left)

def nextTokenBytes : List UInt8 → Except LexFailure (TokenKind × List UInt8)
  | [] => .error .panic
  | byte :: rest =>
    match ofUInt8 byte with
    | '\n' => .ok (.newline, rest.dropWhile (isBlank <| ofUInt8 ·))
    | '#' => commentBytes rest
    | '"' => (stringBytes false rest).bind fun (value, left) =>
      (fromUtf8 value).map fun text => (.quotedString text, left)
    | '\x7b' =>
      if !isCharBoundary rest then .error .panic
      else if isPlaceholderStart (rest.map ofUInt8) then
        (placeholderBytes 1 rest).bind fun left =>
          (slice rest left).map fun text => (.placeholder text, left.tail)
      else .ok (.lBrace, rest)
    | '\x7d' => .ok (.rBrace, rest)
    | ';' => .ok (.semicolon, rest)
    | '.' =>
      if rest.head?.map ofUInt8 = some '.' then .ok (.dotDot, rest.tail)
      else identBytes (byte :: rest)
    | _ => identBytes (byte :: rest)

/-- The tokens from a position on. A lexer that gets stuck runs out of memory. -/
def tokenizeFrom : Nat → Nat → List UInt8 → Except LexFailure (List Token)
  | 0, _, _ => .error .panic
  | fuel + 1, pos, bytes =>
    let rest := bytes.dropWhile (isSpace <| ofUInt8 ·)
    let start := pos + (bytes.length - rest.length)
    if rest = [] then .ok [⟨none,start,0⟩]
    else
      (nextTokenBytes rest).bind fun (kind, left) =>
        let taken := rest.length - left.length
        (tokenizeFrom fuel (start + taken) left).map fun tokens =>
          ⟨kind,start,if kind = .newline then 1 else taken⟩ :: tokens

def tokenizeBytes (source : List Char) : Except LexFailure (List Token) :=
  tokenizeFrom ((encode source).length + 1) 0 (encode source)

example : tokenizeBytes "é \"ü\"".toList = .error (.refused (.unexpectedChar 'é')) := by decide

/-! ## Characters and their bytes -/

variable (c : Char)

/-- A character is one byte, or none of its bytes is ASCII; its first byte differs from those
inside. -/
theorem utf8EncodeChar_cases : ∃ byte bytes, String.utf8EncodeChar c = byte :: bytes ∧
    (byte < 128 ∨ 192 ≤ byte) ∧ (bytes = [] ∧ ofUInt8 byte = c ∨
      128 ≤ c.toNat ∧ ∀ other ∈ byte :: bytes, 128 ≤ (ofUInt8 other).toNat) := by
  have isByte (byte : UInt8) : (ofUInt8 byte).toNat = byte.toNat := rfl
  have value : c.val.toNat = c.toNat := rfl
  unfold String.utf8EncodeChar
  simp only [value]
  split
  · have low : (UInt8.ofNat c.toNat).toNat = c.toNat := by
      simp
      omega
    refine ⟨_,_,rfl,.inl (UInt8.lt_iff_toNat_lt.mpr ?_),.inl ⟨rfl,?_⟩⟩
    · rw [low]
      exact Nat.lt_succ_of_le ‹_›
    · exact ext (UInt32.toNat_inj.mp low)
  · split <;> [skip; split] <;> refine ⟨_,_,rfl,.inr ?_,.inr ⟨by omega,?_⟩⟩ <;>
      simp [UInt8.le_iff_toNat_le,isByte] <;> omega

variable (chars left : List Char)

theorem encode_cons : encode (c :: left) = String.utf8EncodeChar c ++ encode left :=
  flatMap_cons

theorem encode_append : encode (chars ++ left) = encode chars ++ encode left :=
  flatMap_append

theorem isCharBoundary_encode : isCharBoundary (encode chars) = true := by
  cases chars with
  | nil => rfl
  | cons c =>
    obtain ⟨byte,bytes,isBytes,first,-⟩ := utf8EncodeChar_cases c
    simpa [encode_cons,isBytes,isCharBoundary] using first

theorem fromUtf8_encode : fromUtf8 (encode chars) = .ok (String.ofList chars) := by
  have valid : (encode chars).toByteArray.IsValidUTF8 := .intro chars rfl
  rw [fromUtf8,String.fromUTF8?,dif_pos valid]
  rfl

theorem slice_encode : slice (encode (chars ++ left)) (encode left) =
    .ok (String.ofList chars) := by
  have length : (encode (chars ++ left)).length - (encode left).length =
      (encode chars).length := by
    simp [encode_append]
  rw [slice,isCharBoundary_encode,isCharBoundary_encode,length,encode_append,take_left]
  exact fromUtf8_encode chars

theorem ne_of_high {c ascii : Char} (high : 128 ≤ c.toNat) (low : ascii.toNat < 128) :
    c ≠ ascii := by
  rintro rfl
  omega

theorem apply_ofUInt8 {Value : Type} {p : Char → Value} {value : Value}
    (constant : ∀ c : Char, 128 ≤ c.toNat → p c = value) {c : Char} {byte : UInt8}
    (member : byte ∈ String.utf8EncodeChar c) : p (ofUInt8 byte) = p c := by
  obtain ⟨first,bytes,isBytes,-,⟨rfl,isChar⟩ | ⟨high,all⟩⟩ := utf8EncodeChar_cases c
  · rw [isBytes,mem_singleton] at member
    rw [member,isChar]
  · rw [constant c high,constant _ (all byte (isBytes ▸ member))]

theorem ofUInt8_ne {ascii c : Char} {byte : UInt8} (low : ascii.toNat < 128)
    (other : c ≠ ascii) (member : byte ∈ String.utf8EncodeChar c) : ofUInt8 byte ≠ ascii := by
  have same : (ofUInt8 byte == ascii) = (c == ascii) :=
    apply_ofUInt8 (fun c high => beq_false_of_ne (ne_of_high high low)) member
  simpa [other] using same

def IsAscii (text : List Char) : Prop :=
  ∀ char ∈ text, char.toNat < 128

theorem utf8Size_eq_one_iff : c.utf8Size = 1 ↔ c.toNat < 128 := by
  rw [Char.utf8Size_eq_one_iff,UInt32.le_iff_toNat_le]
  exact Nat.lt_succ_iff.symm

theorem utf8EncodeChar_of_low {c : Char} (low : c.toNat < 128) :
    String.utf8EncodeChar c = [c.toUInt8] ∧ ofUInt8 c.toUInt8 = c := by
  have isByte : String.utf8EncodeChar c = [c.toUInt8] :=
    String.utf8EncodeChar_eq_singleton ((utf8Size_eq_one_iff c).mpr low)
  obtain ⟨byte,bytes,isBytes,-,⟨-,isChar⟩ | ⟨high,-⟩⟩ := utf8EncodeChar_cases c
  · cases isByte.symm.trans isBytes
    exact ⟨isByte,isChar⟩
  · omega

theorem encode_of_isAscii {text : List Char} (ascii : IsAscii text) :
    encode text = text.map toUInt8 := by
  induction text with
  | nil => rfl
  | cons c text ih =>
    obtain ⟨low,ascii⟩ := forall_mem_cons.mp ascii
    rw [encode_cons,ih ascii,(utf8EncodeChar_of_low low).1]
    rfl

theorem dropWhile_encode {p : Char → Bool} {value : Bool}
    (constant : ∀ c : Char, 128 ≤ c.toNat → p c = value) :
    (encode chars).dropWhile (p <| ofUInt8 ·) = encode (chars.dropWhile p) := by
  induction chars with
  | nil => rfl
  | cons c left ih =>
    have same := @apply_ofUInt8 _ p value constant c
    rw [encode_cons]
    cases keeps : p c with
    | true =>
      rw [dropWhile_append_of_pos fun byte member => (same member).trans keeps,ih,
        dropWhile_cons_of_pos keeps]
    | false =>
      rw [dropWhile_cons_of_neg (by simp [keeps]),encode_cons]
      obtain ⟨byte,bytes,isBytes,-⟩ := utf8EncodeChar_cases c
      rw [isBytes]
      exact dropWhile_cons_of_neg (by simp [@same byte (by simp [isBytes]),keeps])

/-! ## The same tokens -/

/-- A result of the lexer of characters, on bytes. -/
def onBytes {Value Result : Type} (f : Value → Result) :
    Except LexError (Value × List Char) → Except LexFailure (Result × List UInt8)
  | .ok (value, left) => .ok (f value, encode left)
  | .error error => .error (.refused error)

variable {bytes rest : List UInt8}

theorem stringBytes_plain (plain : ∀ byte ∈ bytes,
      ofUInt8 byte ≠ '"' ∧ ofUInt8 byte ≠ '\\' ∧ ofUInt8 byte ≠ '\n') :
    stringBytes false (bytes ++ rest) =
      (stringBytes false rest).map fun (value, left) => (bytes ++ value, left) := by
  induction bytes with
  | nil => cases read : stringBytes false rest <;> simp [read,Except.map]
  | cons byte bytes ih =>
    obtain ⟨⟨noQuote,noEscape,noNewline⟩,laterPlain⟩ := forall_mem_cons.mp plain
    have later := ih laterPlain
    simp only [cons_append,stringBytes,later]
    cases stringBytes false rest <;> rfl

theorem unescape_high (high : 128 ≤ c.toNat) : unescape c = none := by
  unfold unescape
  split <;> first | rfl | exact absurd high (by decide)

theorem stringBytes_encode :
    stringBytes false (encode chars) = onBytes encode (lexStringBody chars) := by
  fun_induction lexStringBody chars with
  | case1 | case2 | case3 | case6 => rfl
  | case4 escape rest char escaped ih =>
    unfold unescape at escaped
    split at escaped <;> cases escaped
    all_goals
      change (stringBytes false (encode rest)).map _ = _
      rw [ih]
      cases lexStringBody rest <;> rfl
  | case5 escape rest unescaped =>
    change stringBytes true (encode (escape :: rest)) = _
    obtain ⟨byte,bytes,isBytes,-⟩ := utf8EncodeChar_cases escape
    have same : unescape (ofUInt8 byte) = unescape escape :=
      apply_ofUInt8 unescape_high (isBytes ▸ mem_cons_self)
    have byteChar : ofNat byte.toNat = ofUInt8 byte := ofNat_toNat (ofUInt8 byte)
    simp [encode_cons,isBytes,stringBytes,same,unescaped,onBytes,firstByte,byteChar]
  | case7 char rest notQuote notLast notEscape notNewline ih =>
    have notBackslash : char ≠ '\\' := by
      rintro rfl
      cases rest with
      | nil => exact notLast rfl rfl
      | cons => exact notEscape _ _ rfl rfl
    rw [encode_cons,stringBytes_plain,ih]
    · cases lexStringBody rest <;> simp [onBytes,Except.map,encode_cons]
    · exact fun byte member => ⟨ofUInt8_ne (by decide) notQuote member,
        ofUInt8_ne (by decide) notBackslash member,ofUInt8_ne (by decide) notNewline member⟩

theorem placeholderBytes_plain {depth : Nat} (plain : ∀ byte ∈ bytes,
      ofUInt8 byte ≠ '\x7b' ∧ ofUInt8 byte ≠ '\x7d' ∧ ofUInt8 byte ≠ '\n') :
    placeholderBytes depth (bytes ++ rest) = placeholderBytes depth rest := by
  induction bytes with
  | nil => rfl
  | cons byte bytes ih =>
    obtain ⟨⟨noOpening,noClosing,noNewline⟩,laterPlain⟩ := forall_mem_cons.mp plain
    rw [← ih laterPlain]
    simp only [cons_append,placeholderBytes]

theorem placeholderBytes_encode (depth : Nat) : placeholderBytes depth (encode chars) =
      (onBytes id (lexPlaceholderBody depth chars)).map fun (_, left) => 125 :: left := by
  fun_induction lexPlaceholderBody depth chars with
  | case1 | case5 => rfl
  | case2 depth rest ih =>
    change placeholderBytes (depth + 1) (encode rest) = _
    rw [ih]
    cases lexPlaceholderBody (depth + 1) rest <;> rfl
  | case3 depth rest outer =>
    change (if depth - 1 = 0 then _ else _) = _
    rw [if_pos outer]
    rfl
  | case4 depth rest inner ih =>
    change (if depth - 1 = 0 then _ else placeholderBytes (depth - 1) (encode rest)) = _
    rw [if_neg inner,ih]
    cases lexPlaceholderBody (depth - 1) rest <;> rfl
  | case6 depth char rest notOpen notClosed notNewline ih =>
    rw [encode_cons,placeholderBytes_plain,ih]
    · cases lexPlaceholderBody depth rest <;> rfl
    · exact fun byte member => ⟨ofUInt8_ne (by decide) notOpen member,
        ofUInt8_ne (by decide) notClosed member,ofUInt8_ne (by decide) notNewline member⟩

theorem isIdentChar_high (high : 128 ≤ c.toNat) : isIdentChar c = false := by
  have marks : ∀ mark ∈ [':','/','*','?','-','.','_','+','@'], mark.toNat < 128 := by simp
  have value : c.val.toNat = c.toNat := rfl
  rw [isIdentChar,Bool.or_eq_false_iff,Bool.eq_false_iff,Bool.eq_false_iff]
  constructor
  · delta isAlphanum isAlpha isUpper isLower isDigit
    simp [UInt32.le_iff_toNat_le,value]
    omega
  · intro isMark
    exact absurd (marks c (contains_iff_mem.mp isMark)) (by omega)

theorem isBlank_high (high : 128 ≤ c.toNat) : isBlank c = false := by
  have other (ascii : Char) (low : ascii.toNat < 128) : c ≠ ascii := ne_of_high high low
  simp [isBlank,isSpace,other '\n' (by decide),other ' ' (by decide),other '\t' (by decide),
    other '\r' (by decide)]

theorem head_encode {ascii : Char} (low : ascii.toNat < 128) :
    (encode chars).head?.map ofUInt8 = some ascii ↔ chars.head? = some ascii := by
  cases chars with
  | nil => simp [encode]
  | cons c =>
    obtain ⟨byte,bytes,isBytes,-,⟨-,isChar⟩ | ⟨high,all⟩⟩ := utf8EncodeChar_cases c
    · simp [encode_cons,isBytes,isChar]
    · have otherByte := ne_of_high (all byte mem_cons_self) low
      simp [encode_cons,isBytes,otherByte,ne_of_high high low]

theorem wordBytes_encode : wordBytes (encode chars) = encode (spanIdent chars).2 := by
  induction chars with
  | nil => rfl
  | cons c rest ih =>
    obtain ⟨byte,bytes,isBytes,-,ascii⟩ := utf8EncodeChar_cases c
    have sameKind : isIdentChar (ofUInt8 byte) = isIdentChar c :=
      apply_ofUInt8 isIdentChar_high (isBytes ▸ mem_cons_self)
    rw [encode_cons,isBytes]
    obtain ⟨rfl,rfl⟩ | ⟨high,-⟩ := ascii
    · have next := head_encode rest (show '.'.toNat < 128 by decide)
      simp only [cons_append,nil_append,wordBytes,spanIdent,next,ih]
      split
      · rfl
      · rw [encode_cons,isBytes]
        rfl
    · simp [wordBytes,spanIdent,sameKind,isIdentChar_high c high,encode_cons,isBytes]

theorem commentBytes_encode : commentBytes (encode chars) =
    .ok ((lexComment chars).1, encode (lexComment chars).2) := by
  have content : (if (encode chars).head?.map ofUInt8 = some ' ' then
        (encode chars).tail else encode chars) =
      encode (if chars.head? = some ' ' then chars.tail else chars) := by
    simp only [head_encode chars (show ' '.toNat < 128 by decide)]
    split
    · obtain ⟨rest,rfl⟩ := head?_eq_some_iff.mp ‹_›
      rfl
    · rfl
  have newline (c : Char) (high : 128 ≤ c.toNat) : (c != '\n') = true :=
    bne_iff_ne.mpr (ne_of_high high (by decide))
  simp only [commentBytes,content,dropWhile_encode _ newline,lexComment]
  generalize (if chars.head? = some ' ' then chars.tail else chars) = content
  have cut := slice_encode (content.takeWhile (· != '\n')) (content.dropWhile (· != '\n'))
  rw [takeWhile_append_dropWhile] at cut
  rw [cut]
  simp [Except.map]

theorem encode_eq_nil : encode chars = [] ↔ chars = [] := by
  cases chars with
  | nil => simp [encode]
  | cons c =>
    obtain ⟨byte,bytes,isBytes,-⟩ := utf8EncodeChar_cases c
    simp [encode_cons,isBytes]

theorem identBytes_encode : identBytes (encode chars) = onBytes id (lexIdent chars) := by
  have cut := slice_encode (spanIdent chars).1 (spanIdent chars).2
  have all := slice_encode chars []
  have append := encode_append (spanIdent chars).1 (spanIdent chars).2
  rw [spanIdent_append] at cut append
  rw [append_nil] at all
  have empty : (encode (spanIdent chars).2).length = (encode chars).length ↔
      (spanIdent chars).1 = [] := by
    rw [append,← encode_eq_nil (spanIdent chars).1]
    simp
  simp only [identBytes,wordBytes_encode,empty,lexIdent]
  split
  · change (slice _ (encode [])).bind _ = _
    rw [all]
    simp [onBytes,Except.bind]
  · rw [cut]
    rfl

theorem isPrefixOf_encode {word : List Char} (ascii : IsAscii word) :
    word.isPrefixOf ((encode chars).map ofUInt8) = word.isPrefixOf chars := by
  induction word generalizing chars with
  | nil => simp
  | cons letter word ih =>
    cases chars with
    | nil => rfl
    | cons c rest =>
      obtain ⟨byte,bytes,isBytes,-,⟨rfl,isChar⟩ | ⟨high,all⟩⟩ := utf8EncodeChar_cases c
      · simp [encode_cons,isBytes,isChar,isPrefixOf,
          ih rest fun c member => ascii c (.tail _ member)]
      · have low := ascii letter mem_cons_self
        have otherByte := ne_of_high (all byte mem_cons_self) low
        simp [encode_cons,isBytes,isPrefixOf,beq_false_of_ne otherByte.symm,
          beq_false_of_ne (ne_of_high high low).symm]

theorem isPlaceholderStart_encode :
    isPlaceholderStart ((encode chars).map ofUInt8) = isPlaceholderStart chars := by
  have dollar := head_encode chars (show '$'.toNat < 128 by decide)
  have sameDollar : (((encode chars).map ofUInt8).head? == some '$') =
      (chars.head? == some '$') := by
    rw [head?_map,Bool.eq_iff_iff,beq_iff_eq,beq_iff_eq,dollar]
  have ascii : IsAscii ['e','n','v','.'] ∧ IsAscii ['f','i','l','e','.'] ∧
      IsAscii ['v','a','r','s','.'] := by simp [IsAscii]
  simp only [isPlaceholderStart,sameDollar,isPrefixOf_encode chars ascii.1,
    isPrefixOf_encode chars ascii.2.1,isPrefixOf_encode chars ascii.2.2]

theorem nextTokenBytes_brace : nextTokenBytes (encode ('\x7b' :: chars)) =
    if isPlaceholderStart chars then
      (placeholderBytes 1 (encode chars)).bind fun left =>
        (slice (encode chars) left).map fun text => (.placeholder text, left.tail)
    else .ok (.lBrace, encode chars) := by
  change (if !isCharBoundary (encode chars) then _ else
    if isPlaceholderStart ((encode chars).map ofUInt8) then _ else _) = _
  rw [isCharBoundary_encode,isPlaceholderStart_encode]
  rfl

theorem nextTokenBytes_encode (present : chars ≠ []) :
    nextTokenBytes (encode chars) = onBytes id (nextToken chars) := by
  fun_cases nextToken chars with
  | case1 rest =>
    change Except.ok (TokenKind.newline, (encode rest).dropWhile _) = _
    rw [dropWhile_encode _ isBlank_high]
    rfl
  | case2 rest => exact commentBytes_encode rest
  | case3 rest =>
    change (stringBytes false (encode rest)).bind _ = _
    rw [stringBytes_encode]
    cases lexStringBody rest with
    | error => rfl
    | ok => simp [onBytes,Except.bind,fromUtf8_encode,Except.map]
  | case4 rest starts =>
    have append := lexPlaceholderBody_append 1 rest
    rw [nextTokenBytes_brace,if_pos starts,placeholderBytes_encode]
    cases content : lexPlaceholderBody 1 rest with
    | error => rfl
    | ok read =>
      obtain ⟨text,left⟩ := read
      have isRest : text ++ '\x7d' :: left = rest := by simpa [content] using append
      have cut := slice_encode text ('\x7d' :: left)
      rw [isRest] at cut
      change (slice (encode rest) (encode ('\x7d' :: left))).map _ = _
      rw [cut]
      rfl
  | case5 rest starts => rw [nextTokenBytes_brace,if_neg starts,onBytes,id]
  | case6 rest | case7 rest | case8 rest => rfl
  | case9 chars notNewline notComment notQuote notOpen notClosed notSemicolon notRange =>
    obtain ⟨c,rest,rfl⟩ := exists_cons_of_ne_nil present
    rw [← identBytes_encode]
    obtain ⟨byte,bytes,isBytes,-,ascii⟩ := utf8EncodeChar_cases c
    have other {mark : Char} (low : mark.toNat < 128) (isOther : c ≠ mark) : ofUInt8 byte ≠ mark :=
      ofUInt8_ne low isOther (isBytes ▸ mem_cons_self)
    rw [encode_cons,isBytes,cons_append]
    simp only [nextTokenBytes]
    split
    case h_7 isDot =>
      -- A dot is one byte, and the byte after it is a dot only in a range.
      obtain ⟨rfl,isChar⟩ | ⟨-,high⟩ := ascii
      · have next := head_encode rest (show '.'.toNat < 128 by decide)
        rw [if_neg]
        rw [nil_append,next,head?_eq_some_iff]
        rintro ⟨after,rfl⟩
        exact notRange after (by rw [← isChar,isDot])
      · exact absurd isDot (ne_of_high (high byte mem_cons_self) (by decide))
    case h_8 => rfl
    all_goals
      refine absurd ‹_› (other (by decide) ?_)
      rintro rfl
      simp at notNewline notComment notQuote notOpen notClosed notSemicolon

/-! ## The spans -/

/-- Tokens from a position on, in order, that leave only blank bytes out. -/
structure Spanned (pos : Nat) (bytes : List UInt8) (tokens : List Token) : Prop where
  after : ∀ token ∈ tokens, pos ≤ token.start
  ordered : tokens.Pairwise fun token later =>
    token.start < later.start ∧ token.start + token.length ≤ later.start
  blank : ∀ position byte, bytes[position]? = some byte →
    (∀ token ∈ tokens, ¬ (token.start ≤ pos + position ∧
      pos + position < token.start + token.length)) → isBlank (ofUInt8 byte)

variable {pos : Nat} {spaces : List UInt8} (blank : ∀ byte ∈ spaces, isBlank (ofUInt8 byte))
include blank

theorem Spanned.eof : Spanned pos spaces [⟨none,pos + spaces.length,0⟩] where
  after token member := by simp_all
  ordered := pairwise_singleton _ _
  blank position byte isByte _ := blank byte (mem_of_getElem? isByte)

theorem Spanned.cons {taken rest : List UInt8} {tokens : List Token} {kind : TokenKind}
    {length : Nat} (positive : 0 < length) (within : length ≤ taken.length)
    (trailing : ∀ byte ∈ taken.drop length, isBlank (ofUInt8 byte))
    (later : Spanned (pos + spaces.length + taken.length) rest tokens) :
    Spanned pos (spaces ++ (taken ++ rest)) (⟨kind,pos + spaces.length,length⟩ :: tokens) where
  after token member := by
    obtain rfl | member := mem_cons.mp member
    · exact Nat.le_add_right ..
    · have := later.after token member
      omega
  ordered := by
    refine pairwise_cons.mpr ⟨fun token member => ?_,later.ordered⟩
    have := later.after token member
    constructor <;> dsimp only <;> omega
  blank position byte isByte outside := by
    have notFirst := outside _ mem_cons_self
    by_cases inSpaces : position < spaces.length
    · rw [getElem?_append_left inSpaces] at isByte
      exact blank byte (mem_of_getElem? isByte)
    rw [getElem?_append_right (by omega)] at isByte
    by_cases inTaken : position - spaces.length < taken.length
    · rw [getElem?_append_left inTaken] at isByte
      refine trailing byte (mem_of_getElem? (i := position - spaces.length - length) ?_)
      rw [getElem?_drop,← isByte]
      congr 1
      dsimp only at notFirst
      omega
    · rw [getElem?_append_right (by omega)] at isByte
      refine later.blank _ byte isByte fun token member inside => ?_
      refine outside token (mem_cons_of_mem _ member) ?_
      omega

omit blank

theorem nextToken_bytes {kind : TokenKind} (next : nextToken chars = .ok (kind, left)) :
    ∃ taken, taken ++ encode left = encode chars ∧ 0 < taken.length ∧
      ∀ byte ∈ taken.drop (if kind = .newline then 1 else taken.length),
        isBlank (ofUInt8 byte) := by
  have append := nextToken_append chars
  rw [next] at append
  obtain ⟨first,taken,rfl,newline⟩ := append
  refine ⟨encode (first :: taken),(encode_append _ left).symm,?_,fun byte member => ?_⟩
  · exact length_pos_of_ne_nil (mt (encode_eq_nil _).mp (cons_ne_nil _ _))
  by_cases isNewline : kind = .newline
  · obtain ⟨rfl,allBlank⟩ := newline isNewline
    rw [if_pos isNewline] at member
    obtain ⟨c,isTaken,isByte⟩ := mem_flatMap.mp (show byte ∈ encode taken from member)
    rw [apply_ofUInt8 isBlank_high isByte]
    exact all_eq_true.mp allBlank c isTaken
  · simp [isNewline] at member

/-- With a round for every byte both lexers read the same tokens. -/
theorem tokenizeFrom_encode {fuel : Nat} (enough : (encode chars).length < fuel) :
    match tokenize chars with
    | .error error => tokenizeFrom fuel pos (encode chars) = .error (.refused error)
    | .ok kinds => ∃ tokens, tokenizeFrom fuel pos (encode chars) = .ok tokens ∧
        tokens.map Token.kind = kinds.map some ++ [none] ∧
        Spanned pos (encode chars) tokens := by
  induction fuel generalizing pos chars with
  | zero => omega
  | succ fuel ih =>
    let spaces := (encode chars).takeWhile (isSpace <| ofUInt8 ·)
    have blank (byte) (member : byte ∈ spaces) : isBlank (ofUInt8 byte) := by
      simp [isBlank,mem_takeWhile_imp member]
    have isSpace_high (c : Char) (high : 128 ≤ c.toNat) : isSpace c = false :=
      (Bool.or_eq_false_iff.mp (isBlank_high c high)).2
    have dropped := dropWhile_encode chars isSpace_high
    have append : spaces ++ encode (skipSpaces chars) = encode chars := by
      rw [skipSpaces,← dropped]
      exact takeWhile_append_dropWhile
    have lengths := congrArg length append
    rw [length_append] at lengths
    have skipped : (encode chars).length - (encode (skipSpaces chars)).length =
        spaces.length := by omega
    rw [tokenize_eq,tokenizeFrom]
    simp only [dropped]
    rw [← skipSpaces,skipped]
    by_cases atEnd : skipSpaces chars = []
    · have all : spaces = encode chars := by simpa [atEnd,encode] using append
      simp only [atEnd]
      exact ⟨_,rfl,rfl,all ▸ Spanned.eof blank⟩
    rw [if_neg atEnd,if_neg (mt (encode_eq_nil _).mp atEnd),nextTokenBytes_encode _ atEnd]
    cases next : nextToken (skipSpaces chars) with
    | error => rfl
    | ok read =>
      obtain ⟨kind,left⟩ := read
      obtain ⟨taken,isRest,positive,trailing⟩ := nextToken_bytes _ _ next
      have restLength := congrArg length isRest
      rw [length_append] at restLength
      have takenLength : (encode (skipSpaces chars)).length - (encode left).length =
          taken.length := by omega
      have later := @ih left (pos + spaces.length + taken.length) (by omega)
      simp only [onBytes,bind,Except.bind,id,takenLength]
      cases rest : tokenize left with
      | error =>
        simp only [rest] at later
        rw [later]
        rfl
      | ok kinds =>
        simp only [rest] at later
        obtain ⟨tokens,areTokens,areKinds,spanned⟩ := later
        refine ⟨_ :: tokens,by rw [areTokens]; rfl,by simp [areKinds],?_⟩
        rw [← append,← isRest]
        apply spanned.cons blank _ _ trailing <;> split <;> omega

/-- Text is refused, or becomes tokens in order that end with the end of file and leave only blanks
out. -/
theorem tokenizeBytes_sound (source : List Char) :
    (∃ error, tokenizeBytes source = .error (.refused error)) ∨
    ∃ (tokens : List Token) (kinds : List TokenKind), tokenizeBytes source = .ok tokens ∧
      tokens.map Token.kind = kinds.map some ++ [none] ∧
      (tokens.Pairwise fun token later =>
        token.start < later.start ∧ token.start + token.length ≤ later.start) ∧
      ∀ position byte, (encode source)[position]? = some byte →
        (∀ token ∈ tokens, ¬ (token.start ≤ position ∧ position < token.start + token.length)) →
        ofUInt8 byte ∈ [' ','\t','\r','\n'] := by
  have lexed := @tokenizeFrom_encode source 0 _ (Nat.lt_succ_self _)
  cases kinds : tokenize source with
  | error error =>
    simp only [kinds] at lexed
    exact .inl ⟨error,lexed⟩
  | ok kinds =>
    simp only [kinds] at lexed
    obtain ⟨tokens,areTokens,areKinds,spanned⟩ := lexed
    refine .inr ⟨tokens,_,areTokens,areKinds,spanned.ordered,?_⟩
    intro position byte isByte outside
    have blank := spanned.blank position byte isByte (by simpa using outside)
    simp [isBlank,isSpace] at blank
    simp
    tauto

/-! ## Quoted strings -/

def escapeChar : Char → List Char
  | '\\' => ['\\','\\']
  | '"' => ['\\','"']
  | '\n' => ['\\','n']
  | '\r' => ['\\','r']
  | '\t' => ['\\','t']
  | char => [char]

def quoteString (value : List Char) : List Char :=
  '"' :: value.flatMap escapeChar ++ ['"']

theorem lexStringBody_escaped (value rest : List Char) :
    lexStringBody (value.flatMap escapeChar ++ '"' :: rest) = .ok (value, rest) := by
  induction value with
  | nil => rfl
  | cons char value ih =>
    rw [flatMap_cons,append_assoc]
    fun_cases escapeChar char with
    | case1 | case2 | case3 | case4 | case5 => simp [lexStringBody,unescape,ih,Except.map]
    | case6 char noBackslash noQuote noNewline =>
      rw [singleton_append,lexStringBody,ih]
      · rfl
      all_goals simp_all

/-- A quoted string is read as one token, whatever follows. -/
theorem tokenizeFrom_quoteString (fuel position : Nat) (value rest : List Char) :
    tokenizeFrom (fuel + 1) position (encode (quoteString value ++ rest)) =
      (tokenizeFrom fuel (position + (encode (quoteString value)).length) (encode rest)).map
        fun tokens => ⟨some (.quotedString (String.ofList value)),position,
          (encode (quoteString value)).length⟩ :: tokens := by
  have next : nextToken (quoteString value ++ rest) =
      .ok (.quotedString (String.ofList value), rest) := by
    simp [quoteString,nextToken,lexStringBody_escaped,Except.map]
  have noSpace : (encode (quoteString value ++ rest)).dropWhile (isSpace <| ofUInt8 ·) =
      encode (quoteString value ++ rest) := rfl
  have notEmpty : encode (quoteString value ++ rest) ≠ [] := nofun
  have taken : (encode (quoteString value ++ rest)).length - (encode rest).length =
      (encode (quoteString value)).length := by
    simp [encode_append]
  simp only [tokenizeFrom,noSpace,Nat.sub_self,Nat.add_zero,if_neg notEmpty]
  rw [nextTokenBytes_encode (quoteString value ++ rest) (cons_ne_nil _ _),next]
  simp [onBytes,Except.bind,taken]

end Croniq.Config

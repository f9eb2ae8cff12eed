import Croniq.FailureAlerts
import Croniq.LexerSpans
import Mathlib.Data.List.Infix

/-!
# What the globs of alert rules match

The matcher works on bytes; a pattern is meant over characters.
-/

namespace Croniq

open Config List

def GlobMatches : List Char → List Char → Prop
  | [], text => text = []
  | '*' :: pattern, text => ∃ skipped rest, text = skipped ++ rest ∧ GlobMatches pattern rest
  | '?' :: pattern, text => ∃ char rest, text = char :: rest ∧ GlobMatches pattern rest
  | literal :: pattern, text => ∃ rest, text = literal :: rest ∧ GlobMatches pattern rest

theorem length_encode_eq_iff (text : List Char) :
    text.length ≤ (encode text).length ∧ ((encode text).length = text.length ↔ IsAscii text) := by
  induction text with
  | nil => simp [encode,IsAscii]
  | cons char text ih =>
    have size := char.utf8Size_pos
    rw [encode_cons,length_append,String.length_utf8EncodeChar,length_cons,IsAscii,forall_mem_cons,
      ← IsAscii,← ih.2,← utf8Size_eq_one_iff]
    omega

theorem globBytes_marks (count : Nat) (bytes : List UInt8) :
    globBytes (replicate count 63) bytes = true ↔ bytes.length = count := by
  induction count generalizing bytes with
  | zero => simp [globBytes]
  | succ count ih => cases bytes <;> simp [replicate_succ,globBytes,ih]

theorem globMatches_marks (text : List Char) : GlobMatches (replicate text.length '?') text := by
  induction text with
  | nil => rfl
  | cons char text ih => exact ⟨char,text,rfl,ih⟩

/-- No `?` is held against a character outside ASCII, where the places for a star are tried from
the left until one matches. -/
def MarksMeetAscii : List Char → List Char → Prop
  | [], _ => True
  | '*' :: pattern, text => ∀ skipped rest, text = skipped ++ rest → MarksMeetAscii pattern rest ∨
      ∃ earlier later, skipped = earlier ++ later ∧ later ≠ [] ∧ GlobMatches pattern (later ++ rest)
  | '?' :: pattern, text => ∀ char rest, text = char :: rest →
      char.toNat < 128 ∧ MarksMeetAscii pattern rest
  | literal :: pattern, text => ∀ rest, text = literal :: rest → MarksMeetAscii pattern rest

theorem marksMeetAscii_of_isAscii (pattern : List Char) {text : List Char} (ascii : IsAscii text) :
    MarksMeetAscii pattern text := by
  fun_induction MarksMeetAscii pattern text with
  | case1 => trivial
  | case2 pattern text ih =>
    rintro skipped rest rfl
    exact .inl (ih rest (forall_mem_append.mp ascii).2)
  | case3 pattern text ih =>
    rintro char rest rfl
    exact ⟨(forall_mem_cons.mp ascii).1,ih rest (forall_mem_cons.mp ascii).2⟩
  | case4 literal pattern text _ _ ih =>
    rintro rest rfl
    exact ih rest (forall_mem_cons.mp ascii).2

section

variable {bytes : List UInt8} {text : List Char}

theorem globBytes_star {patterns : List UInt8} :
    globBytes (42 :: patterns) bytes = true ↔
      ∃ rest, rest <:+ bytes ∧ globBytes patterns rest = true := by
  simp [globBytes]

theorem globBytes_literal {literals patterns : List UInt8}
    (plain : ∀ byte ∈ literals, byte ≠ 42 ∧ byte ≠ 63) :
    globBytes (literals ++ patterns) bytes = true ↔
      ∃ rest, bytes = literals ++ rest ∧ globBytes patterns rest = true := by
  induction literals generalizing bytes with
  | nil => simp
  | cons literal literals ih =>
    obtain ⟨⟨notStar,notMark⟩,plain⟩ := forall_mem_cons.mp plain
    cases bytes with
    | nil => simp [globBytes,notStar]
    | cons byte bytes =>
      simp only [cons_append,globBytes,notStar,notMark,if_false,decide_false,Bool.false_or,
        Bool.and_eq_true,decide_eq_true_eq,ih plain,cons.injEq]
      constructor
      · rintro ⟨rfl,rest,rfl,matched⟩
        exact ⟨rest,⟨rfl,rfl⟩,matched⟩
      · rintro ⟨rest,⟨rfl,rfl⟩,matched⟩
        exact ⟨rfl,rest,rfl,matched⟩

theorem plain_utf8EncodeChar {char : Char} (notStar : char ≠ '*') (notMark : char ≠ '?') :
    ∀ byte ∈ String.utf8EncodeChar char, byte ≠ 42 ∧ byte ≠ 63 := by
  intro byte member
  constructor
  · rintro rfl
    exact ofUInt8_ne (by decide) notStar member rfl
  · rintro rfl
    exact ofUInt8_ne (by decide) notMark member rfl

theorem encode_cons_eq_iff {char literal : Char} {rest : List UInt8} :
    encode (char :: text) = String.utf8EncodeChar literal ++ rest ↔
      char = literal ∧ encode text = rest := by
  rw [encode_cons]
  constructor
  · intro same
    have decoded := congrArg (fun bytes => bytes.toByteArray.utf8DecodeChar? 0) same
    simp only [List.toByteArray_append,ByteArray.utf8DecodeChar?_utf8EncodeChar_append,
      Option.some.injEq] at decoded
    subst decoded
    exact ⟨rfl,append_cancel_left same⟩
  · rintro ⟨rfl,rfl⟩
    rfl

/-- The rest of the bytes of a text starts at a character or inside one. -/
theorem suffix_encode_cases (isSuffix : bytes <:+ encode text) :
    (∃ skipped rest, text = skipped ++ rest ∧ bytes = encode rest) ∨
      ∃ skipped char rest byte inner, text = skipped ++ char :: rest ∧
        bytes = byte :: inner ∧ bytes <:+ encode (char :: rest) ∧
        128 ≤ char.toNat ∧ ¬ byte.IsUTF8FirstByte := by
  induction text with
  | nil => exact .inl ⟨[],[],rfl,suffix_nil.mp isSuffix⟩
  | cons char text ih =>
    obtain ⟨before,same⟩ := isSuffix
    rw [encode_cons,append_eq_append_iff] at same
    obtain ⟨inside,isBytes,rfl⟩ | ⟨beyond,rfl,isRest⟩ := same
    · cases before with
      | nil => exact .inl ⟨[],char :: text,rfl,by rw [encode_cons,isBytes,nil_append]⟩
      | cons lead before =>
        cases inside with
        | nil => exact .inl ⟨[char],text,rfl,nil_append _⟩
        | cons byte inner =>
          refine .inr ⟨[],char,text,byte,_,rfl,rfl,?_,?_,?_⟩
          · rw [encode_cons,isBytes,append_assoc]
            exact suffix_append _ _
          · by_contra low
            have single := (utf8EncodeChar_of_low (Nat.lt_of_not_le low)).1
            have lengths := congrArg length (isBytes.symm.trans single)
            simp at lengths
          · intro isFirst
            have size : before.length + 1 < (String.utf8EncodeChar char).length := by
              simp [isBytes]
            have isByte : (String.utf8EncodeChar char)[before.length + 1] = byte := by
              simp [isBytes]
            rw [← isByte,UInt8.isUTF8FirstByte_getElem_utf8EncodeChar] at isFirst
            cases isFirst
    · obtain ⟨skipped,rest,rfl,isBytes⟩ | ⟨skipped,inner,rest,found⟩ := ih ⟨beyond,isRest.symm⟩
      · exact .inl ⟨char :: skipped,rest,rfl,isBytes⟩
      · obtain ⟨byte,bytes,rfl,isInside⟩ := found
        exact .inr ⟨char :: skipped,inner,rest,byte,bytes,rfl,isInside⟩

end

/-- A match that starts inside a character can start at it. -/
theorem globBytes_of_inside {pattern rest : List Char} {char : Char} {byte : UInt8}
    {inner : List UInt8} (meets : MarksMeetAscii pattern (char :: rest))
    (isSuffix : byte :: inner <:+ encode (char :: rest)) (high : 128 ≤ char.toNat)
    (notFirst : ¬ byte.IsUTF8FirstByte)
    (matched : globBytes (encode pattern) (byte :: inner) = true) :
    globBytes (encode pattern) (encode (char :: rest)) = true := by
  unfold MarksMeetAscii at meets
  split at meets
  · cases matched
  · obtain ⟨left,isLeft,matched⟩ := globBytes_star.mp matched
    exact globBytes_star.mpr ⟨left,isLeft.trans isSuffix,matched⟩
  · exact absurd (meets char rest rfl).1 (Nat.not_lt.mpr high)
  · rename_i literal pattern notStar notMark
    rw [encode_cons,globBytes_literal (plain_utf8EncodeChar notStar notMark)] at matched
    obtain ⟨left,isBytes,-⟩ := matched
    obtain ⟨first,more,isCode,-⟩ := utf8EncodeChar_cases literal
    have isFirst := UInt8.isUTF8FirstByte_getElem_zero_utf8EncodeChar (c := literal)
    simp only [isCode,cons_append,cons.injEq,getElem_cons_zero] at isBytes isFirst
    exact absurd (isBytes.1 ▸ isFirst) notFirst

theorem globBytes_encode {pattern text : List Char} (meets : MarksMeetAscii pattern text) :
    globBytes (encode pattern) (encode text) = true ↔ GlobMatches pattern text := by
  fun_induction MarksMeetAscii pattern text with
  | case1 text => cases text <;> simp [globBytes,GlobMatches,encode]
  | case2 pattern text ih =>
    change globBytes (42 :: encode pattern) _ = true ↔ _
    rw [globBytes_star]
    constructor
    · rintro ⟨bytes,isSuffix,matched⟩
      obtain ⟨skipped,rest,isText,isMatch⟩ : ∃ skipped rest, text = skipped ++ rest ∧
          (MarksMeetAscii pattern rest → globBytes (encode pattern) (encode rest) = true) := by
        obtain ⟨skipped,rest,isText,rfl⟩ | inside := suffix_encode_cases isSuffix
        · exact ⟨skipped,rest,isText,fun _ => matched⟩
        · obtain ⟨skipped,char,rest,byte,inner,isText,rfl,isRest,high,notFirst⟩ := inside
          exact ⟨skipped,_,isText,fun meets =>
            globBytes_of_inside meets isRest high notFirst matched⟩
      subst isText
      obtain here | ⟨earlier,later,rfl,-,isEarlier⟩ := meets skipped rest rfl
      · exact ⟨skipped,rest,rfl,(ih rest here).mp (isMatch here)⟩
      · exact ⟨earlier,later ++ rest,append_assoc _ _ _,isEarlier⟩
    · rintro ⟨skipped,rest,isText,isMatch⟩
      -- The leftmost place that matches is one that the condition speaks about.
      induction size : skipped.length using Nat.strong_induction_on generalizing skipped rest with
      | _ length shorter =>
        obtain here | ⟨earlier,later,rfl,notNil,isEarlier⟩ := meets skipped rest isText
        · refine ⟨encode rest,?_,(ih rest here).mpr isMatch⟩
          rw [isText,encode_append]
          exact suffix_append _ _
        · refine shorter earlier.length ?_ earlier (later ++ rest) ?_ isEarlier rfl
          · have := length_pos_iff.mpr notNil
            simp only [length_append] at size
            omega
          · rw [isText,append_assoc]
  | case3 pattern text ih =>
    change globBytes (63 :: encode pattern) _ = true ↔ _
    cases text with
    | nil => simp [globBytes,GlobMatches,encode]
    | cons char text =>
      obtain ⟨low,meets⟩ := meets char text rfl
      rw [encode_cons,(utf8EncodeChar_of_low low).1]
      simp [globBytes,GlobMatches,ih text meets]
  | case4 literal pattern text notStar notMark ih =>
    rw [encode_cons,globBytes_literal (plain_utf8EncodeChar notStar notMark)]
    cases text with
    | nil => simp [GlobMatches,encode]
    | cons char text =>
      simp only [encode_cons_eq_iff,GlobMatches,cons.injEq]
      constructor
      · rintro ⟨bytes,⟨rfl,rfl⟩,matched⟩
        exact ⟨text,⟨rfl,rfl⟩,(ih text (meets text rfl)).mp matched⟩
      · rintro ⟨rest,⟨rfl,rfl⟩,isMatch⟩
        exact ⟨_,⟨rfl,rfl⟩,(ih text (meets text rfl)).mpr isMatch⟩

/-- A pattern means what it says for a text if none of its `?` is held against a character outside
ASCII; every pattern does for the texts in ASCII and for no others. -/
theorem globMatch_iff_globMatches (text : String) :
    (∀ pattern : String, MarksMeetAscii pattern.toList text.toList →
      (globMatch pattern text = true ↔ GlobMatches pattern.toList text.toList)) ∧
    ((∀ pattern : String, globMatch pattern text = true ↔
      GlobMatches pattern.toList text.toList) ↔ IsAscii text.toList) := by
  refine ⟨fun pattern meets => globBytes_encode meets,fun agrees => ?_,fun ascii pattern =>
    globBytes_encode (marksMeetAscii_of_isAscii _ ascii)⟩
  have marks := (agrees (.ofList (replicate text.toList.length '?'))).mpr
    (by simpa using globMatches_marks text.toList)
  rw [globMatch,utf8Bytes,String.toList_ofList,← encode,
    encode_of_isAscii fun _ same => eq_of_mem_replicate same ▸ by decide,map_replicate] at marks
  exact (length_encode_eq_iff _).2.mp ((globBytes_marks _ _).mp marks)

theorem globMatch_iff_globMatches_billing :
    MarksMeetAscii "billing:*".toList "billing:é".toList ∧ ¬ IsAscii "billing:é".toList ∧
      GlobMatches "billing:*".toList "billing:é".toList := by
  have meets : MarksMeetAscii "billing:*".toList "billing:é".toList := by simp [MarksMeetAscii]
  refine ⟨meets,by simp [IsAscii],?_⟩
  exact ((globMatch_iff_globMatches "billing:é").1 "billing:*" meets).mp (by decide)

/-- A question mark does not match a letter of two bytes. -/
theorem globMatch_not_globMatches : globMatch "?" "é" = false ∧ GlobMatches "?".toList "é".toList :=
  ⟨by decide,'é',[],rfl,rfl⟩

end Croniq

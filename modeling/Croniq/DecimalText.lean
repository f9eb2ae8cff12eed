import Mathlib.Algebra.Group.Nat.Defs
import Mathlib.Data.List.Basic

/-!
# Numbers written in decimal

The standard reading of an unsigned machine integer: an optional plus sign, at
least one decimal digit and nothing else, with a value that fits the width.
-/

namespace DecimalText

def digitValue (char : Char) : Option Nat :=
  if '0' ≤ char ∧ char ≤ '9' then some (char.toNat - '0'.toNat) else none

/-- The value of a row of digits after those already read. -/
def digitsValue : List Char → Nat → Option Nat
  | [], value => some value
  | char :: rest, value =>
    match digitValue char with
    | some digit => digitsValue rest (10 * value + digit)
    | none => none

def unsignedDigits : List Char → Option Nat
  | [] => none
  | '+' :: rest => if rest.isEmpty then none else digitsValue rest 0
  | chars => digitsValue chars 0

def parseUnsigned (width : Nat) (text : List Char) : Option Nat :=
  (unsignedDigits text).filter (· < 2 ^ width)

example : parseUnsigned 32 ['0','8'] = some 8 := by decide

example : parseUnsigned 8 ['2','5','6'] = none := by decide

/-- The last digits of a number, with zeros in front. -/
def digits : Nat → Nat → List Char
  | 0, _ => []
  | width + 1, number =>
    Nat.digitChar (number / 10 ^ width % 10) :: digits width (number % 10 ^ width)

/-- Read a fixed number of digits after those already read. -/
def readDigits : Nat → Nat → List Char → Option (Nat × List Char)
  | 0, value, rest => some (value, rest)
  | _ + 1, _, [] => none
  | width + 1, value, char :: rest =>
    (digitValue char).bind fun digit => readDigits width (10 * value + digit) rest

theorem digitValue_digitChar {digit : Nat} (small : digit < 10) :
    digitValue (Nat.digitChar digit) = some digit := by
  have all : ∀ digit < 10, digitValue (Nat.digitChar digit) = some digit := by decide
  exact all digit small

theorem digitChar_lt {digit larger : Nat} (less : digit < larger) (small : larger < 10) :
    Nat.digitChar digit < Nat.digitChar larger := by
  have all : ∀ larger < 10, ∀ digit < larger, Nat.digitChar digit < Nat.digitChar larger := by
    decide
  exact all larger small digit less

variable {width number larger : Nat} {text rest : List Char}

theorem leadingDigit_lt (fits : number < 10 ^ (width + 1)) : number / 10 ^ width < 10 := by
  rwa [Nat.div_lt_iff_lt_mul (Nat.pow_pos (by decide)),Nat.mul_comm,← Nat.pow_succ]

theorem digits_append_lt_of_lt (less : number < larger) (fits : larger < 10 ^ width) :
    digits width number ++ text < digits width larger ++ rest := by
  induction width generalizing number larger with
  | zero => omega
  | succ width ih =>
    have positive : 0 < 10 ^ width := Nat.pow_pos (by decide)
    have leading := leadingDigit_lt fits
    have notMore : number / 10 ^ width ≤ larger / 10 ^ width :=
      Nat.div_le_div_right (Nat.le_of_lt less)
    simp only [digits,List.cons_append,List.cons_lt_cons_iff]
    rw [Nat.mod_eq_of_lt leading,Nat.mod_eq_of_lt (Nat.lt_of_le_of_lt notMore leading)]
    rcases Nat.lt_or_eq_of_le notMore with lessLeading | sameLeading
    · exact .inl (digitChar_lt lessLeading leading)
    have numberEq := Nat.div_add_mod number (10 ^ width)
    have largerEq := Nat.div_add_mod larger (10 ^ width)
    rw [sameLeading] at numberEq
    exact .inr ⟨by rw [sameLeading],ih (by omega) (Nat.mod_lt _ positive)⟩

theorem append_lt_append_left (less : text < rest) (common : List Char) :
    common ++ text < common ++ rest := by
  induction common with
  | nil => exact less
  | cons char common ih => exact List.cons_lt_cons_iff.mpr (.inr ⟨rfl,ih⟩)

/-- A field decides, or else what follows its separator. -/
theorem digits_append_cons_lt (separator : Char) (fits : larger < 10 ^ width)
    (less : number < larger ∨ number = larger ∧ text < rest) :
    digits width number ++ separator :: text < digits width larger ++ separator :: rest := by
  rcases less with less | ⟨rfl,less⟩
  · exact digits_append_lt_of_lt less fits
  · exact append_lt_append_left (List.cons_lt_cons_iff.mpr (.inr ⟨rfl,less⟩)) _

theorem readDigits_digits (fits : number < 10 ^ width) (value : Nat) (rest : List Char) :
    readDigits width value (digits width number ++ rest) =
      some (value * 10 ^ width + number, rest) := by
  induction width generalizing number value with
  | zero =>
    have isZero : number = 0 := by omega
    simp [digits,readDigits,isZero]
  | succ width ih =>
    have positive : 0 < 10 ^ width := Nat.pow_pos (by decide)
    have leading := leadingDigit_lt fits
    simp only [digits,List.cons_append,readDigits,Nat.mod_eq_of_lt leading,
      digitValue_digitChar leading,Option.bind_some,ih (Nat.mod_lt _ positive)]
    have numberEq := Nat.div_add_mod' number (10 ^ width)
    rw [Nat.add_mul,Nat.mul_comm 10,Nat.mul_assoc,← Nat.pow_succ',Nat.succ_eq_add_one]
    congr 2
    omega

end DecimalText

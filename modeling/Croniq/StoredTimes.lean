import Croniq.CivilCalendar
import Croniq.DecimalText

/-!
# Timestamps as stored text

An instant is stored as RFC 3339 text in UTC, with as many groups of three
fraction digits as it takes.  The store compares such texts byte by byte.
-/

namespace Croniq

open CivilCalendar DecimalText List Option

section

variable (instant : Int)

def utcSeconds : Int :=
  instant / 1000000000

def subsecNanos : Nat :=
  (instant % 1000000000).toNat

def utcDate : Int :=
  utcSeconds instant / 86400

def secondOfDay : Nat :=
  (utcSeconds instant % 86400).toNat

end

def utcOffset : List Char := ['+','0','0',':','0','0']

/-- The groups of three digits up to the last nonzero one. -/
def fractionGroups : Nat → Nat → List Char
  | 0, _ => utcOffset
  | groups + 1, fraction =>
    if fraction = 0 then utcOffset
    else digits 3 (fraction / 1000 ^ groups) ++ fractionGroups groups (fraction % 1000 ^ groups)

def subsecText (nanos : Nat) : List Char :=
  if nanos = 0 then utcOffset else '.' :: fractionGroups 3 nanos

/-- Years outside of four digits get a sign. -/
def yearText (year : Int) : List Char :=
  if 0 ≤ year ∧ year ≤ 9999 then digits 4 year.toNat
  else (if year < 0 then '-' else '+') :: (Nat.toDigits 10 year.natAbs).leftpad 4 '0'

def dtToSql (instant : Int) : List Char :=
  let date := utcDate instant
  let second := secondOfDay instant
  yearText (yearOf date) ++ '-' :: (digits 2 (monthOf date) ++ '-' :: (digits 2 (dayOf date) ++
    'T' :: (digits 2 (second / 3600) ++ ':' :: (digits 2 (second / 60 % 60) ++
      ':' :: (digits 2 (second % 60) ++ subsecText (subsecNanos instant))))))

/-- Read a number of two digits after one of the separators. -/
def readField (allowed : List Char) : List Char → Option (Nat × List Char)
  | [] => none
  | char :: rest => if char ∈ allowed then readDigits 2 0 rest else none

/-- Digits of a fraction; those after the ninth do not count. -/
def readFraction : Nat → List Char → Nat × List Char
  | _, [] => (0, [])
  | places, char :: rest =>
    match digitValue char with
    | none => (0, char :: rest)
    | some digit =>
      let read := readFraction (places - 1) rest
      (if places = 0 then 0 else digit * 10 ^ (places - 1) + read.1, read.2)

def readSubsec : List Char → Option (Nat × List Char)
  | '.' :: rest => if (rest.head?.bind digitValue).isSome then some (readFraction 9 rest) else none
  | rest => some (0, rest)

/-- The offset from UTC in minutes, at the end of the text. -/
def readOffset : List Char → Option Int
  | ['Z'] | ['z'] => some 0
  | sign :: rest => do
    let (hours, rest) ← readDigits 2 0 rest
    let (minutes, rest) ← readField [':'] rest
    if rest = [] ∧ hours ≤ 23 ∧ minutes ≤ 59 then
      match sign with
      | '+' => some (60 * hours + minutes)
      | '-' => some (-(60 * hours + minutes))
      | _ => none
    else none
  | [] => none

/-- The instant of an RFC 3339 text.  Leap seconds, which no stored instant has, are left out. -/
def parseFromRfc3339 (text : List Char) : Option Int := do
  let (year, rest) ← readDigits 4 0 text
  let (month, rest) ← readField ['-'] rest
  let (day, rest) ← readField ['-'] rest
  let (hour, rest) ← readField ['T','t',' '] rest
  let (minute, rest) ← readField [':'] rest
  let (second, rest) ← readField [':'] rest
  let (nanos, rest) ← readSubsec rest
  let offset ← readOffset rest
  let date ← fromYmdOpt year month day
  if hour ≤ 23 ∧ minute ≤ 59 ∧ second ≤ 59 then
    some ((86400 * date + 3600 * hour + 60 * minute + second - 60 * offset) * 1000000000 + nanos)
  else none

/-- A value that does not parse, with the number of its column. -/
inductive BadColumn where
  | datetime (idx : Nat) (value : List Char)
deriving DecidableEq

/-- The library's reading gives every such text its instant. -/
def ReadsRfc3339 (parse : List Char → Option Int) : Prop :=
  ∀ text instant, parseFromRfc3339 text = some instant → parse text = some instant

def parseDt (parse : List Char → Option Int) (idx : Nat) (text : List Char) :
    Except BadColumn Int :=
  match parse text with
  | some instant => .ok instant
  | none => .error (.datetime idx text)

theorem subsecNanos_lt (instant : Int) : subsecNanos instant < 1000 ^ 3 := by
  unfold subsecNanos
  omega

theorem secondOfDay_lt (instant : Int) : secondOfDay instant < 86400 := by
  unfold secondOfDay
  omega

theorem instant_eq (instant : Int) : instant =
    (86400 * utcDate instant + secondOfDay instant) * 1000000000 + subsecNanos instant := by
  unfold utcDate secondOfDay subsecNanos utcSeconds
  omega

theorem utcOffset_lt_digits (width number : Nat) (rest : List Char) :
    utcOffset < digits (width + 1) number ++ rest := by
  have all : ∀ digit < 10, '+' < Nat.digitChar digit := by decide
  exact cons_lt_cons_iff.mpr (.inl (all _ (Nat.mod_lt _ (by decide))))

variable {groups fraction larger nanos number : Nat} {first second instant : Int}

theorem fractionGroups_lt (less : fraction < larger) (fits : larger < 1000 ^ groups) :
    fractionGroups groups fraction < fractionGroups groups larger := by
  induction groups generalizing fraction larger with
  | zero => omega
  | succ groups ih =>
    have positive : 0 < 1000 ^ groups := Nat.pow_pos (by decide)
    rw [fractionGroups,fractionGroups,if_neg (show larger ≠ 0 by omega)]
    split
    · exact utcOffset_lt_digits 2 _ _
    have notMore : fraction / 1000 ^ groups ≤ larger / 1000 ^ groups :=
      Nat.div_le_div_right (Nat.le_of_lt less)
    rcases Nat.lt_or_eq_of_le notMore with lessGroup | sameGroup
    · apply digits_append_lt_of_lt lessGroup
      rw [Nat.div_lt_iff_lt_mul positive,Nat.mul_comm]
      exact fits
    have fractionEq := Nat.div_add_mod fraction (1000 ^ groups)
    have largerEq := Nat.div_add_mod larger (1000 ^ groups)
    rw [sameGroup] at fractionEq ⊢
    exact append_lt_append_left (ih (by omega) (Nat.mod_lt _ positive)) _

theorem subsecText_lt (less : nanos < larger) (fits : larger < 1000 ^ 3) :
    subsecText nanos < subsecText larger := by
  rw [subsecText,subsecText,if_neg (show larger ≠ 0 by omega)]
  split
  · exact cons_lt_cons_iff.mpr (.inl (by decide))
  · exact cons_lt_cons_iff.mpr (.inr ⟨rfl,fractionGroups_lt less fits⟩)

theorem civil_lt (earlier : first < second) :
    yearOf first < yearOf second ∨ yearOf first = yearOf second ∧
      (monthOf first < monthOf second ∨ monthOf first = monthOf second ∧
        dayOf first < dayOf second) := by
  have firstDay := dayOf_eq first
  have secondDay := dayOf_eq second
  obtain ⟨firstMonth,firstWithin,firstStarted,-⟩ := monthOf_bounds first
  obtain ⟨secondMonth,secondWithin,-,secondOver⟩ := monthOf_bounds second
  rcases Int.lt_trichotomy (yearOf first) (yearOf second) with before | sameYear | after
  · exact .inl before
  · refine .inr ⟨sameYear,?_⟩
    rw [sameYear] at firstStarted firstDay
    rcases Nat.lt_trichotomy (monthOf first) (monthOf second) with before | sameMonth | after
    · exact .inl before
    · rw [sameMonth] at firstDay
      exact .inr ⟨sameMonth,by omega⟩
    have started := monthOffset_mono (yearOf second) (by omega)
      (show monthOf second + 1 ≤ monthOf first from after) (by omega)
    simp only [monthStart] at firstStarted secondOver
    omega
  · have started := yearStart_yearOf_le first
    have notOver := lt_yearStart_yearOf_succ second
    rcases Int.lt_or_eq_of_le (show yearOf second + 1 ≤ yearOf first from after) with later | same
    · have := yearStart_strictMono later
      omega
    · rw [same] at notOver
      omega

def InFourDigitYears (instant : Int) : Prop :=
  0 ≤ yearOf (utcDate instant) ∧ yearOf (utcDate instant) ≤ 9999

instance (instant : Int) : Decidable (InFourDigitYears instant) :=
  inferInstanceAs (Decidable (_ ∧ _))

theorem yearText_of_fourDigits (inYears : InFourDigitYears instant) :
    yearText (yearOf (utcDate instant)) = digits 4 (yearOf (utcDate instant)).toNat :=
  if_pos inYears

theorem monthOf_dayOf_lt (date : Int) : monthOf date < 10 ^ 2 ∧ dayOf date < 10 ^ 2 := by
  obtain ⟨positive,within,-⟩ := monthOf_bounds date
  have dayWithin := (dayOf_bounds date).2
  have monthLength := (daysInMonth_bounds (yearOf date) positive within).2
  omega

theorem dtToSql_lt (firstIn : InFourDigitYears first)
    (secondIn : InFourDigitYears second) (earlier : first < second) :
    dtToSql first < dtToSql second := by
  have firstEq := instant_eq first
  have secondEq := instant_eq second
  have secondNanos := subsecNanos_lt second
  have secondSecond := secondOfDay_lt second
  obtain ⟨monthFits,dayFits⟩ := monthOf_dayOf_lt (utcDate second)
  have timeOrder : utcDate first < utcDate second ∨ utcDate first = utcDate second ∧
      (secondOfDay first / 3600 < secondOfDay second / 3600 ∨
        secondOfDay first / 3600 = secondOfDay second / 3600 ∧
      (secondOfDay first / 60 % 60 < secondOfDay second / 60 % 60 ∨
        secondOfDay first / 60 % 60 = secondOfDay second / 60 % 60 ∧
      (secondOfDay first % 60 < secondOfDay second % 60 ∨
        secondOfDay first % 60 = secondOfDay second % 60 ∧
          subsecNanos first < subsecNanos second))) := by
    omega
  rw [dtToSql,dtToSql,yearText_of_fourDigits firstIn,yearText_of_fourDigits secondIn]
  obtain ⟨firstLow,firstHigh⟩ := firstIn
  obtain ⟨secondLow,secondHigh⟩ := secondIn
  rcases timeOrder with earlierDate | ⟨sameDate,timeOrder⟩
  · refine digits_append_cons_lt '-' (by omega) ((civil_lt earlierDate).imp (by omega) ?_)
    rintro ⟨sameYear,order⟩
    refine ⟨by rw [sameYear],digits_append_cons_lt '-' monthFits (order.imp_right ?_)⟩
    rintro ⟨sameMonth,order⟩
    exact ⟨sameMonth,digits_append_cons_lt 'T' dayFits (.inl order)⟩
  · rw [sameDate]
    refine append_lt_append_left (cons_lt_cons_iff.mpr (.inr ⟨rfl,?_⟩)) _
    refine append_lt_append_left (cons_lt_cons_iff.mpr (.inr ⟨rfl,?_⟩)) _
    refine append_lt_append_left (cons_lt_cons_iff.mpr (.inr ⟨rfl,?_⟩)) _
    refine digits_append_cons_lt ':' (by omega) (timeOrder.imp_right ?_)
    rintro ⟨sameHour,order⟩
    refine ⟨sameHour,digits_append_cons_lt ':' (by omega) (order.imp_right ?_)⟩
    rintro ⟨sameMinute,lessSecond | ⟨sameSecond,lessNanos⟩⟩
    · exact ⟨sameMinute,digits_append_lt_of_lt lessSecond (by omega)⟩
    · rw [sameSecond]
      exact ⟨sameMinute,append_lt_append_left (subsecText_lt lessNanos secondNanos) _⟩

theorem readFraction_digits {width : Nat} (fits : number < 10 ^ width) (places : Nat)
    (rest : List Char) :
    readFraction (width + places) (digits width number ++ rest) =
      (number * 10 ^ places + (readFraction places rest).1, (readFraction places rest).2) := by
  induction width generalizing number with
  | zero =>
    have isZero : number = 0 := by omega
    simp [digits,isZero]
  | succ width ih =>
    have positive : 0 < 10 ^ width := Nat.pow_pos (by decide)
    have leading := leadingDigit_lt fits
    simp only [digits,cons_append,readFraction,Nat.mod_eq_of_lt leading,
      digitValue_digitChar leading]
    rw [show width + 1 + places - 1 = width + places by omega,ih (Nat.mod_lt _ positive),
      if_neg (by omega),Nat.pow_add,← Nat.mul_assoc,← Nat.add_assoc,← Nat.add_mul,Nat.div_add_mod']

theorem readFraction_groups (fits : fraction < 1000 ^ groups) :
    readFraction (3 * groups) (fractionGroups groups fraction) = (fraction, utcOffset) := by
  induction groups generalizing fraction with
  | zero =>
    have isZero : fraction = 0 := by omega
    rw [isZero]
    rfl
  | succ groups ih =>
    have positive : 0 < 1000 ^ groups := Nat.pow_pos (by decide)
    rw [fractionGroups]
    split
    · rename_i isZero
      rw [isZero]
      rfl
    have group : fraction / 1000 ^ groups < 10 ^ 3 := by
      rw [Nat.div_lt_iff_lt_mul positive,Nat.mul_comm]
      exact fits
    rw [show 3 * (groups + 1) = 3 + 3 * groups by omega,readFraction_digits group,
      ih (Nat.mod_lt _ positive),Nat.pow_mul,Nat.div_add_mod']

theorem readSubsec_subsecText (fits : nanos < 1000 ^ 3) :
    readSubsec (subsecText nanos) = some (nanos, utcOffset) := by
  unfold subsecText
  split
  · rename_i isZero
    rw [isZero]
    rfl
  rename_i notZero
  have leading : ((fractionGroups 3 nanos).head?.bind digitValue).isSome = true := by
    rw [fractionGroups,if_neg notZero]
    simp only [digits,cons_append,head?_cons,bind_some]
    rw [digitValue_digitChar (Nat.mod_lt _ (by decide))]
    rfl
  rw [readSubsec,if_pos leading,readFraction_groups fits]

theorem readField_digits {separator : Char} {allowed : List Char} (isAllowed : separator ∈ allowed)
    (fits : number < 10 ^ 2) (rest : List Char) :
    readField allowed (separator :: (digits 2 number ++ rest)) = some (number, rest) := by
  rw [readField,if_pos isAllowed,readDigits_digits fits,Nat.zero_mul,Nat.zero_add]

theorem parseFromRfc3339_dtToSql (inYears : InFourDigitYears instant) :
    parseFromRfc3339 (dtToSql instant) = some instant := by
  have isInstant := instant_eq instant
  have small := secondOfDay_lt instant
  obtain ⟨monthFits,dayFits⟩ := monthOf_dayOf_lt (utcDate instant)
  have isDate : fromYmdOpt (yearOf (utcDate instant)) (monthOf (utcDate instant))
      (dayOf (utcDate instant)) = some (utcDate instant) :=
    fromYmdOpt_eq_some_iff.mpr ⟨rfl,rfl,rfl⟩
  rw [dtToSql,yearText_of_fourDigits inYears]
  obtain ⟨low,high⟩ := inYears
  have isYear : ((yearOf (utcDate instant)).toNat : Int) = yearOf (utcDate instant) := by omega
  refine bind_eq_some_iff.mpr ⟨_,readDigits_digits (by omega) 0 _,?_⟩
  refine bind_eq_some_iff.mpr ⟨_,readField_digits (by decide) monthFits _,?_⟩
  refine bind_eq_some_iff.mpr ⟨_,readField_digits (by decide) dayFits _,?_⟩
  refine bind_eq_some_iff.mpr ⟨_,readField_digits (by decide) (by omega) _,?_⟩
  refine bind_eq_some_iff.mpr ⟨_,readField_digits (by decide) (by omega) _,?_⟩
  refine bind_eq_some_iff.mpr ⟨_,readField_digits (by decide) (by omega) _,?_⟩
  refine bind_eq_some_iff.mpr ⟨_,readSubsec_subsecText (subsecNanos_lt instant),?_⟩
  refine bind_eq_some_iff.mpr ⟨0,by decide,?_⟩
  rw [Nat.zero_mul,Nat.zero_add,isYear]
  refine bind_eq_some_iff.mpr ⟨_,isDate,?_⟩
  rw [if_pos (by omega)]
  congr 1
  omega

/-- Stored times are ordered as the instants they stand for, and are read back exactly. -/
theorem stored_times_order (parse : List Char → Option Int) (reads : ReadsRfc3339 parse)
    (first second : Int) (firstIn : InFourDigitYears first)
    (secondIn : InFourDigitYears second) (idx : Nat) :
    (dtToSql first < dtToSql second ↔ first < second) ∧
      parseDt parse idx (dtToSql first) = .ok first := by
  constructor
  · refine ⟨fun less => ?_,dtToSql_lt firstIn secondIn⟩
    rcases Int.lt_trichotomy first second with earlier | rfl | later
    · exact earlier
    · exact absurd less (List.lt_irrefl _)
    · exact absurd (dtToSql_lt secondIn firstIn later) (List.lt_asymm less)
  · rw [parseDt,reads _ _ (parseFromRfc3339_dtToSql firstIn)]

/-- A whole second, and a nanosecond and a millisecond later. -/
theorem stored_times_order_precisions :
    dtToSql 1700000000000000000 = "2023-11-14T22:13:20+00:00".toList ∧
    dtToSql 1700000000000000001 = "2023-11-14T22:13:20.000000001+00:00".toList ∧
    dtToSql 1700000000001000000 = "2023-11-14T22:13:20.001+00:00".toList ∧
    dtToSql 1700000000000000000 < dtToSql 1700000000000000001 ∧
    dtToSql 1700000000000000001 < dtToSql 1700000000001000000 ∧
    parseDt parseFromRfc3339 8 (dtToSql 1700000000001000000) = .ok 1700000000001000000 := by
  have order := stored_times_order parseFromRfc3339 fun _ _ => id
  refine ⟨by decide,by decide,by decide,?_,?_,?_⟩
  · exact (order _ _ (by decide) (by decide) 8).1.mpr (by decide)
  · exact (order _ _ (by decide) (by decide) 8).1.mpr (by decide)
  · exact (order _ 0 (by decide) (by decide) 8).2

end Croniq

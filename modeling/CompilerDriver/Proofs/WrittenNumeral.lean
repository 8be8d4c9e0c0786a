import CompilerDriver.Proofs.NumeralText
import Mathlib.Data.List.Induction

namespace CompilerDriver

/-- A sign where there may be one. -/
inductive LeadingSign where
  | absent
  | plus
  | minus
deriving DecidableEq

namespace LeadingSign

def chars : LeadingSign → List Char
  | absent => []
  | plus => ['+']
  | minus => ['-']

def negative (sign : LeadingSign) : Bool :=
  sign = minus

theorem chars_injective : Function.Injective chars := by
  intro a b same
  cases a <;> cases b <;> first | rfl | cases same

end LeadingSign

/-- An exponent as it is written: a mark, and digits that may have a sign. -/
structure WrittenExponent where
  mark : Char
  sign : LeadingSign
  digits : List Char
  isMark : mark = 'e' ∨ mark = 'E'
  isDigit : ∀ d ∈ digits, d.isDigit = true
  nonempty : digits ≠ []

namespace WrittenExponent

def chars (exponent : WrittenExponent) : List Char :=
  exponent.mark :: (exponent.sign.chars ++ exponent.digits)

def number (exponent : WrittenExponent) : Nat :=
  Nat.ofDigitChars 10 exponent.digits 0

def signed (exponent : WrittenExponent) (number : Nat) : Int :=
  if exponent.sign.negative then -number else number

end WrittenExponent

/-- A decimal number as it is written: digits before and behind a point that may be absent, at
least one in all, with a sign and an exponent where there are any. -/
structure WrittenNumeral where
  sign : LeadingSign
  whole : List Char
  fraction : Option (List Char)
  exponent : Option WrittenExponent
  isDigit : ∀ d ∈ whole ++ fraction.getD [], d.isDigit = true
  nonempty : whole ++ fraction.getD [] ≠ []

namespace WrittenNumeral

def decimals (numeral : WrittenNumeral) : List Char :=
  numeral.fraction.getD []

def fractionChars : Option (List Char) → List Char
  | none => []
  | some decimals => '.' :: decimals

def exponentChars : Option WrittenExponent → List Char
  | none => []
  | some exponent => exponent.chars

def behind (numeral : WrittenNumeral) : List Char :=
  fractionChars numeral.fraction ++ exponentChars numeral.exponent

def unsigned (numeral : WrittenNumeral) : List Char :=
  numeral.whole ++ numeral.behind

def chars (numeral : WrittenNumeral) : List Char :=
  numeral.sign.chars ++ numeral.unsigned

def text (numeral : WrittenNumeral) : String :=
  String.ofList numeral.chars

/-- The number that the digits write when there is no point among them. -/
def significand (numeral : WrittenNumeral) : Nat :=
  Nat.ofDigitChars 10 (numeral.whole ++ numeral.decimals) 0

def power (numeral : WrittenNumeral) : Int :=
  match numeral.exponent with
  | none => 0
  | some exponent => exponent.signed exponent.number

/-- The power of ten as far as the digits of the exponent are counted. -/
def countedPower (numeral : WrittenNumeral) : Int :=
  match numeral.exponent with
  | none => 0
  | some exponent => exponent.signed (Decimal.exponentValue exponent.digits)

def under (numeral : WrittenNumeral) (power : Int) : Decimal :=
  ⟨numeral.sign.negative, numeral.significand, power - numeral.decimals.length⟩

def exact (numeral : WrittenNumeral) : Decimal :=
  numeral.under numeral.power

/-- The number that is written when its exponent is taken as far as it is counted. -/
def counted (numeral : WrittenNumeral) : Decimal :=
  numeral.under numeral.countedPower

end WrittenNumeral

namespace Decimal

theorem takeSign_chars {sign : LeadingSign} {rest : List Char}
    (h : ∀ c ∈ rest.head?, c ≠ '+' ∧ c ≠ '-') :
    takeSign (sign.chars ++ rest) = (sign.negative, rest) := by
  cases sign with
  | absent =>
    cases rest with
    | nil => rfl
    | cons c rest =>
      obtain ⟨plus, minus⟩ := h c rfl
      show takeSign (c :: rest) = (false, c :: rest)
      unfold takeSign
      split <;> simp_all
  | plus => rfl
  | minus => rfl

theorem exists_sign (cs : List Char) :
    ∃ sign : LeadingSign, cs = sign.chars ++ (takeSign cs).2 := by
  unfold takeSign
  split
  · exact ⟨.minus, rfl⟩
  · exact ⟨.plus, rfl⟩
  · exact ⟨.absent, rfl⟩

theorem digit_ne_sign {c : Char} (h : c.isDigit = true) : c ≠ '+' ∧ c ≠ '-' := by
  constructor <;> (rintro rfl; cases h)

theorem takeSign_exponent (exponent : WrittenExponent) :
    takeSign (exponent.sign.chars ++ exponent.digits) =
      (exponent.sign.negative, exponent.digits) := by
  refine takeSign_chars fun c hc => ?_
  exact digit_ne_sign (exponent.isDigit c (List.mem_of_mem_head? hc))

theorem readExponent_chars (exponent : WrittenExponent) :
    readExponent exponent.chars = some (exponent.signed (exponentValue exponent.digits)) := by
  have all : exponent.digits.all Char.isDigit = true := List.all_eq_true.mpr exponent.isDigit
  have some : exponent.digits.isEmpty = false := by
    rw [Bool.eq_false_iff, ne_eq, List.isEmpty_iff]
    exact exponent.nonempty
  rw [WrittenExponent.chars, readExponent, if_pos exponent.isMark]
  simp only [takeSign_exponent, all, some, Bool.not_true, Bool.or_false, Bool.false_eq_true,
    if_false]
  rfl

theorem exponent_chars_injective : Function.Injective WrittenExponent.chars := by
  intro a b same
  obtain ⟨mark, behind⟩ := List.cons.inj same
  have taken : (a.sign.negative, a.digits) = (b.sign.negative, b.digits) := by
    rw [← takeSign_exponent, ← takeSign_exponent, behind]
  have digits : a.digits = b.digits := congrArg Prod.snd taken
  rw [digits] at behind
  have sign := LeadingSign.chars_injective (List.append_cancel_right behind)
  cases a
  cases b
  simp_all

theorem exists_exponent {cs : List Char} {power : Int} (h : readExponent cs = some power) :
    ∃ exponent, cs = WrittenNumeral.exponentChars exponent := by
  cases cs with
  | nil => exact ⟨none, rfl⟩
  | cons c rest =>
    rw [readExponent] at h
    split at h
    next mark =>
      obtain ⟨sign, split⟩ := exists_sign rest
      generalize takeSign rest = taken at h split
      simp only at h
      split at h
      next => cases h
      next digits =>
        simp only [Bool.or_eq_true, not_or, List.isEmpty_iff, Bool.not_eq_true',
          Bool.not_eq_false, List.all_eq_true] at digits
        exact ⟨some ⟨c, sign, taken.2, mark, digits.2, digits.1⟩, congrArg (c :: ·) split⟩
    next => cases h

theorem head_exponentChars {exponent : Option WrittenExponent} {c : Char}
    (h : c ∈ (WrittenNumeral.exponentChars exponent).head?) : c = 'e' ∨ c = 'E' := by
  cases exponent with
  | none => cases h
  | some exponent =>
    cases h
    exact exponent.isMark

theorem takeFraction_chars {fraction : Option (List Char)} {exponent : Option WrittenExponent}
    (digits : ∀ d ∈ fraction.getD [], d.isDigit = true) :
    takeFraction (WrittenNumeral.fractionChars fraction ++
        WrittenNumeral.exponentChars exponent) =
      (fraction.getD [], WrittenNumeral.exponentChars exponent) := by
  cases fraction with
  | none =>
    show takeFraction (WrittenNumeral.exponentChars exponent) = _
    unfold takeFraction
    split
    next split =>
      have mark := @head_exponentChars exponent '.' (by rw [split]; rfl)
      simp at mark
    next => rfl
  | some decimals =>
    refine takeDigits_append digits fun c hc => ?_
    rcases head_exponentChars hc with rfl | rfl <;> rfl

section

variable (numeral : WrittenNumeral)

theorem head_behind {c : Char} (h : c ∈ numeral.behind.head?) : c = '.' ∨ c = 'e' ∨ c = 'E' := by
  rw [WrittenNumeral.behind] at h
  cases fraction : numeral.fraction with
  | none =>
    rw [fraction] at h
    exact .inr (head_exponentChars h)
  | some decimals =>
    rw [fraction] at h
    cases h
    exact .inl rfl

theorem takeSign_numeral :
    takeSign numeral.chars = (numeral.sign.negative, numeral.unsigned) := by
  refine takeSign_chars fun c hc => ?_
  rw [WrittenNumeral.unsigned] at hc
  cases whole : numeral.whole with
  | nil =>
    rw [whole] at hc
    rcases head_behind numeral hc with rfl | rfl | rfl <;> decide
  | cons d more =>
    rw [whole] at hc
    cases hc
    exact digit_ne_sign (numeral.isDigit c (by simp [whole]))

theorem takeDigits_numeral : takeDigits numeral.unsigned = (numeral.whole, numeral.behind) := by
  refine takeDigits_append (fun d hd => numeral.isDigit d (List.mem_append_left _ hd)) ?_
  intro c hc
  rcases head_behind numeral hc with rfl | rfl | rfl <;> rfl

theorem takeFraction_numeral : takeFraction numeral.behind =
    (numeral.decimals, WrittenNumeral.exponentChars numeral.exponent) :=
  takeFraction_chars fun d hd => numeral.isDigit d (List.mem_append_right _ hd)

theorem readExponent_numeral :
    readExponent (WrittenNumeral.exponentChars numeral.exponent) = some numeral.countedPower := by
  unfold WrittenNumeral.countedPower
  cases numeral.exponent with
  | none => rfl
  | some exponent => exact readExponent_chars exponent

/-- A written number is read as its sign, its digits and its power of ten. -/
theorem ofChars?_numeral :
    ofChars? numeral.chars = some numeral.counted := by
  have some : (numeral.whole.isEmpty && numeral.decimals.isEmpty) = false := by
    rw [Bool.eq_false_iff, ne_eq, Bool.and_eq_true, List.isEmpty_iff, List.isEmpty_iff]
    rintro ⟨whole, decimals⟩
    exact numeral.nonempty (List.append_eq_nil_iff.mpr ⟨whole, decimals⟩)
  rw [ofChars?, takeSign_numeral]
  simp only [takeDigits_numeral, takeFraction_numeral, some, Bool.false_eq_true, if_false,
    readExponent_numeral, Option.map_some, digitsValue_eq]
  rfl

end

theorem fractionChars_injective : Function.Injective WrittenNumeral.fractionChars := by
  intro a b same
  cases a <;> cases b <;> simp_all [WrittenNumeral.fractionChars]

theorem exponentChars_injective : Function.Injective WrittenNumeral.exponentChars := by
  intro a b same
  cases a with
  | none =>
    cases b with
    | none => rfl
    | some exponent => cases same
  | some exponent =>
    cases b with
    | none => cases same
    | some other => exact congrArg some (exponent_chars_injective same)

/-- The characters of a number say what it is made of. -/
theorem chars_injective : Function.Injective WrittenNumeral.chars := by
  intro a b same
  have taken : (a.sign.negative, a.unsigned) = (b.sign.negative, b.unsigned) := by
    rw [← takeSign_numeral, ← takeSign_numeral, same]
  have unsigned : a.unsigned = b.unsigned := congrArg Prod.snd taken
  have digits : (a.whole, a.behind) = (b.whole, b.behind) := by
    rw [← takeDigits_numeral, ← takeDigits_numeral, unsigned]
  obtain ⟨whole, behind⟩ := Prod.mk.inj digits
  have last : (a.decimals, WrittenNumeral.exponentChars a.exponent) =
      (b.decimals, WrittenNumeral.exponentChars b.exponent) := by
    rw [← takeFraction_numeral, ← takeFraction_numeral, behind]
  have scale : WrittenNumeral.exponentChars a.exponent = WrittenNumeral.exponentChars b.exponent :=
    congrArg Prod.snd last
  have sign : a.sign = b.sign := by
    rw [WrittenNumeral.chars, WrittenNumeral.chars, unsigned] at same
    exact LeadingSign.chars_injective (List.append_cancel_right same)
  have fraction : a.fraction = b.fraction := by
    rw [WrittenNumeral.behind, WrittenNumeral.behind, scale] at behind
    exact fractionChars_injective (List.append_cancel_right behind)
  have exponent := exponentChars_injective scale
  cases a
  cases b
  simp_all

theorem exists_fraction (cs : List Char) :
    ∃ fraction : Option (List Char), (takeFraction cs).1 = fraction.getD [] ∧
      (∀ d ∈ fraction.getD [], d.isDigit = true) ∧
      cs = WrittenNumeral.fractionChars fraction ++ (takeFraction cs).2 := by
  unfold takeFraction
  split
  next rest =>
    refine ⟨some (takeDigits rest).1, rfl, fun d hd => ?_, ?_⟩
    · exact List.all_eq_true.mp List.all_takeWhile d hd
    · exact congrArg ('.' :: ·) List.takeWhile_append_dropWhile.symm
  next => exact ⟨none, rfl, by simp, rfl⟩

/-- Only written numbers are read. -/
theorem exists_numeral {cs : List Char} {d : Decimal} (h : ofChars? cs = some d) :
    ∃ numeral : WrittenNumeral, numeral.chars = cs := by
  simp only [ofChars?] at h
  obtain ⟨sign, signed⟩ := exists_sign cs
  generalize (takeSign cs).2 = unsigned at h signed
  have whole : unsigned = (takeDigits unsigned).1 ++ (takeDigits unsigned).2 :=
    List.takeWhile_append_dropWhile.symm
  have digits : ∀ d ∈ (takeDigits unsigned).1, d.isDigit = true :=
    List.all_eq_true.mp List.all_takeWhile
  obtain ⟨fraction, decimals, places, point⟩ := exists_fraction (takeDigits unsigned).2
  split at h
  next => cases h
  next some =>
    obtain ⟨power, scale, -⟩ := Option.map_eq_some_iff.mp h
    obtain ⟨exponent, written⟩ := exists_exponent scale
    have nonempty : (takeDigits unsigned).1 ++ fraction.getD [] ≠ [] := by
      rw [← decimals]
      simpa [List.isEmpty_iff] using some
    refine ⟨⟨sign, _, fraction, exponent, ?_, nonempty⟩, ?_⟩
    · exact fun d hd => (List.mem_append.mp hd).elim (digits d) (places d)
    · rw [written] at point
      rw [signed]
      show sign.chars ++ ((takeDigits unsigned).1 ++ (WrittenNumeral.fractionChars fraction ++
        WrittenNumeral.exponentChars exponent)) = _
      rw [← point, ← whole]

/-- An exponent is counted in full when it is less than ten times the limit; from there on no less
than the limit is counted. -/
theorem exponentValue_spec (digits : List Char) :
    (Nat.ofDigitChars 10 digits 0 < 10 * exponentLimit →
      exponentValue digits = Nat.ofDigitChars 10 digits 0) ∧
    (10 * exponentLimit ≤ Nat.ofDigitChars 10 digits 0 → exponentLimit ≤ exponentValue digits) := by
  rw [← digitsValue_eq]
  induction digits using List.reverseRecOn with
  | nil => exact ⟨fun _ => rfl, fun large => absurd large (by decide)⟩
  | append_singleton digits d ih =>
    obtain ⟨small, large⟩ := ih
    have value : digitsValue (digits ++ [d]) = digitsValue digits * 10 + digitValue d := by
      rw [digitsValue, List.foldl_append, digitsValue]
      rfl
    have count : exponentValue (digits ++ [d]) =
        if exponentValue digits < exponentLimit then exponentValue digits * 10 + digitValue d
        else exponentValue digits := by
      rw [exponentValue, List.foldl_append, exponentValue]
      rfl
    rw [value, count]
    split <;> constructor <;> intro h <;> omega

theorem ofDigitChars_lt {digits : List Char} (h : ∀ d ∈ digits, d.isDigit = true) :
    Nat.ofDigitChars 10 digits 0 < tenTo digits.length := by
  induction digits with
  | nil => exact Nat.one_pos
  | cons d more ih =>
    have rest := ih fun other ho => h other (List.mem_cons_of_mem _ ho)
    have digit : d.toNat - '0'.toNat ≤ 9 :=
      Nat.sub_le_of_le_add (Char.isDigit_iff_toNat.mp (h d List.mem_cons_self)).2
    have next : tenTo (more.length + 1) = tenTo more.length * 10 := tenTo_add more.length 1
    have leading := Nat.mul_le_mul_left (tenTo more.length) digit
    rw [Nat.ofDigitChars_cons, Nat.ofDigitChars_eq_ofDigitChars_zero, List.length_cons, next,
      Nat.mul_zero, Nat.zero_add]
    show tenTo more.length * (d.toNat - '0'.toNat) + Nat.ofDigitChars 10 more 0 < _
    omega

end Decimal

end CompilerDriver

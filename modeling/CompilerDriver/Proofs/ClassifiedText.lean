import CompilerDriver.Define
import CompilerDriver.Proofs.ExactReading
import CompilerDriver.Proofs.NearestValue
import CompilerDriver.Proofs.WrittenNumeral

namespace CompilerDriver

namespace Decimal

theorem toDouble?_of_large {d : Decimal} (some : d.digits ≠ 0)
    (large : greatestPower < digitCount d.digits + d.exponent) : d.toDouble? = none := by
  rw [toDouble?_eq]
  exact ofRatio?_of_large some large

theorem toDouble?_of_small {d : Decimal}
    (small : digitCount d.digits + d.exponent < leastPower) :
    d.toDouble? = Option.some (Double.zero d.negative) := by
  rw [toDouble?_eq]
  exact ofRatio?_of_small small

/-- Zeros that an exponent takes back do not count. -/
theorem toDouble?_shifted (negative : Bool) (n k : Nat) :
    toDouble? ⟨negative, n * tenTo k, -k⟩ = toDouble? ⟨negative, n, 0⟩ := by
  have scaled := Double.ofRatio?_scale negative n 1 (tenTo_pos k)
  rw [Nat.one_mul] at scaled
  rw [toDouble?_eq, toDouble?_eq]
  simp only [numerator, denominator]
  rw [Int.toNat_eq_zero.mpr (by omega : -(k : Int) ≤ 0), Int.neg_neg, Int.toNat_natCast]
  show Double.ofRatio? negative (n * tenTo k * 1) (tenTo k) = Double.ofRatio? negative (n * 1) 1
  rw [Nat.mul_one, Nat.mul_one, scaled]

/-- Zeros that an exponent takes back more than once leave next to nothing. -/
theorem value_shifted_lt {k p : Nat} (h : k < p) :
    |value ⟨false, tenTo k, -p⟩| < 1 / 2 := by
  have ten : (10 : ℚ) ≠ 0 := by norm_num
  have power : value ⟨false, tenTo k, -p⟩ = 10 ^ ((k : Int) - p) := by
    rw [value, signedValue, if_neg Bool.false_ne_true, cast_tenTo, ← zpow_add₀ ten]
    rfl
  have least : (10 : ℚ) ^ ((k : Int) - p) ≤ 10 ^ (-1 : Int) :=
    zpow_le_zpow_right₀ (by norm_num) (by omega)
  have tenth : (10 : ℚ) ^ (-1 : Int) < 1 / 2 := by norm_num
  rw [power, abs_of_pos (zpow_pos (by norm_num) _)]
  exact least.trans_lt tenth

end Decimal

namespace WrittenNumeral

open Decimal

/-- The exponent is counted in full, or there are so few digits that it does not matter where
counting it ends. -/
def Ordinary (numeral : WrittenNumeral) : Prop :=
  (∀ exponent ∈ numeral.exponent, exponent.number < 10 * exponentLimit) ∨
    numeral.whole.length + numeral.decimals.length ≤ 65200

theorem digitCount_significand (numeral : WrittenNumeral) :
    digitCount numeral.significand ≤ numeral.whole.length + numeral.decimals.length := by
  rw [← List.length_append]
  have some : 0 < (numeral.whole ++ numeral.decimals).length :=
    List.length_pos_iff.mpr numeral.nonempty
  exact (Nat.length_toDigits_le_iff (by decide) some).mpr (ofDigitChars_lt numeral.isDigit)

/-- Where there are few digits, the greatest exponents are beyond all doubles and the least ones
nearest to zero, however far they are counted. -/
theorem toDouble?_under_eq {numeral : WrittenNumeral}
    (few : numeral.whole.length + numeral.decimals.length ≤ 65200) {a b : Int}
    (far : 65536 ≤ a ∧ 65536 ≤ b ∨ a ≤ -65536 ∧ b ≤ -65536) :
    (numeral.under a).toDouble? = (numeral.under b).toDouble? := by
  have least := digitCount_pos numeral.significand
  have most := numeral.digitCount_significand
  by_cases zero : numeral.significand = 0
  · rw [under, under, zero, toDouble?_zero, toDouble?_zero]
  rcases far with ⟨high, high'⟩ | ⟨low, low'⟩
  · have beyond {p : Int} (h : 65536 ≤ p) : (numeral.under p).toDouble? = none := by
      refine toDouble?_of_large zero ?_
      show greatestPower < digitCount numeral.significand + (p - numeral.decimals.length)
      unfold greatestPower
      omega
    rw [beyond high, beyond high']
  · have beneath {p : Int} (h : p ≤ -65536) :
        (numeral.under p).toDouble? = some (Double.zero numeral.sign.negative) := by
      refine toDouble?_of_small ?_
      show digitCount numeral.significand + (p - numeral.decimals.length) < leastPower
      unfold leastPower
      omega
    rw [beneath low, beneath low']

theorem toDouble?_counted {numeral : WrittenNumeral} (ordinary : numeral.Ordinary) :
    numeral.counted.toDouble? = numeral.exact.toDouble? := by
  rw [counted, exact]
  cases present : numeral.exponent with
  | none => simp only [countedPower, power, present]
  | some exponent =>
    have full : numeral.power = exponent.signed exponent.number := by rw [power, present]
    have counts : numeral.countedPower = exponent.signed (exponentValue exponent.digits) := by
      rw [countedPower, present]
    obtain ⟨small, large⟩ := exponentValue_spec exponent.digits
    rw [full, counts]
    by_cases short : exponent.number < 10 * exponentLimit
    · rw [small short]
      rfl
    · -- neither the number nor what is counted of it can be made up for by so few digits
      have few := ordinary.resolve_left fun all => short (all exponent present)
      have long : 10 * exponentLimit ≤ exponent.number := Nat.not_lt.mp short
      have enough := large long
      refine toDouble?_under_eq few ?_
      unfold WrittenExponent.signed
      unfold exponentLimit at *
      split <;> omega

end WrittenNumeral

namespace Double

/-- The texts that are read as a number are the written numbers below the bound; they are rounded
to the nearest double. -/
theorem ofString?_eq_some_iff (raw : String) (x : Double) :
    ofString? raw = some x ↔
      ∃ numeral : WrittenNumeral, numeral.text = raw ∧ numeral.counted.RoundsTo x := by
  rw [ofString?, Decimal.ofString?]
  constructor
  · intro h
    obtain ⟨d, read, rounded⟩ := Option.bind_eq_some_iff.mp h
    obtain ⟨numeral, written⟩ := Decimal.exists_numeral read
    rw [← written, Decimal.ofChars?_numeral, Option.some.injEq] at read
    refine ⟨numeral, ?_, (Decimal.toDouble?_eq_some_iff _ x).mp (read ▸ rounded)⟩
    rw [WrittenNumeral.text, written, String.ofList_toList]
  · rintro ⟨numeral, rfl, rounded⟩
    rw [WrittenNumeral.text, String.toList_ofList, Decimal.ofChars?_numeral]
    exact (Decimal.toDouble?_eq_some_iff _ x).mpr rounded

theorem ofString?_eq_none_iff (raw : String) :
    ofString? raw = none ↔
      ∀ numeral : WrittenNumeral, numeral.text = raw → overflow ≤ |numeral.counted.value| := by
  constructor
  · rintro h numeral rfl
    rw [ofString?, Decimal.ofString?, WrittenNumeral.text, String.toList_ofList,
      Decimal.ofChars?_numeral] at h
    exact (Decimal.toDouble?_eq_none_iff _).mp h
  · intro h
    cases read : ofString? raw with
    | none => rfl
    | some x =>
      obtain ⟨numeral, written, rounded⟩ := (ofString?_eq_some_iff raw x).mp read
      exact absurd rounded.finite (h numeral written).not_gt

end Double

namespace DefineValue

section

variable {raw : String}

theorem classify_of_found {x : Double} (h : Double.ofString? raw = some x) :
    classify raw = .number x := by
  have yes : raw ≠ "true" := by
    rintro rfl
    cases (by decide : Double.ofString? "true" = none).symm.trans h
  have no : raw ≠ "false" := by
    rintro rfl
    cases (by decide : Double.ofString? "false" = none).symm.trans h
  rw [classify, if_neg yes, if_neg no, h]

theorem classify_of_none (yes : raw ≠ "true") (no : raw ≠ "false")
    (h : Double.ofString? raw = none) : classify raw = .text raw := by
  rw [classify, if_neg yes, if_neg no, h]

theorem classify_cases (raw : String) :
    (∃ b : Bool, raw = (if b then "true" else "false") ∧ classify raw = .bool b) ∨
    (∃ x, Double.ofString? raw = some x ∧ classify raw = .number x) ∨
    (raw ≠ "true" ∧ raw ≠ "false" ∧ Double.ofString? raw = none ∧ classify raw = .text raw) := by
  by_cases yes : raw = "true"
  · exact .inl ⟨true, yes, by rw [yes]; rfl⟩
  by_cases no : raw = "false"
  · exact .inl ⟨false, no, by rw [no]; rfl⟩
  cases h : Double.ofString? raw with
  | some x => exact .inr (.inl ⟨x, rfl, classify_of_found h⟩)
  | none => exact .inr (.inr ⟨yes, no, rfl, classify_of_none yes no h⟩)

theorem classify_eq_bool_iff (b : Bool) :
    classify raw = .bool b ↔ raw = if b then "true" else "false" := by
  constructor
  · intro h
    rcases classify_cases raw with ⟨c, word, found⟩ | ⟨x, _, found⟩ | ⟨_, _, _, found⟩
    · have same : c = b := DefineValue.bool.inj (found.symm.trans h)
      exact same ▸ word
    · cases found.symm.trans h
    · cases found.symm.trans h
  · rintro rfl
    cases b <;> rfl

theorem classify_eq_number_iff (x : Double) :
    classify raw = .number x ↔ Double.ofString? raw = some x := by
  constructor
  · intro h
    rcases classify_cases raw with ⟨c, _, found⟩ | ⟨y, read, found⟩ | ⟨_, _, _, found⟩
    · cases found.symm.trans h
    · have same : y = x := DefineValue.number.inj (found.symm.trans h)
      exact same ▸ read
    · cases found.symm.trans h
  · exact classify_of_found

theorem classify_eq_text_iff (s : String) :
    classify raw = .text s ↔
      s = raw ∧ raw ≠ "true" ∧ raw ≠ "false" ∧ Double.ofString? raw = none := by
  constructor
  · intro h
    rcases classify_cases raw with ⟨c, _, found⟩ | ⟨y, _, found⟩ | ⟨yes, no, none, found⟩
    · cases found.symm.trans h
    · cases found.symm.trans h
    · exact ⟨(DefineValue.text.inj (found.symm.trans h)).symm, yes, no, none⟩
  · rintro ⟨rfl, yes, no, none⟩
    exact classify_of_none yes no none

theorem classify_ne_undefined : classify raw ≠ .undefined := by
  intro h
  rcases classify_cases raw with ⟨_, _, found⟩ | ⟨_, _, found⟩ | ⟨_, _, _, found⟩ <;>
    cases found.symm.trans h

end

/-- Every text is a boolean, the double nearest to the number that it writes, or itself. -/
theorem classify_nearest (raw : String) :
    (∀ b, classify raw = .bool b ↔ raw = if b then "true" else "false") ∧
    (∀ x, classify raw = .number x ↔
      ∃ numeral : WrittenNumeral, numeral.text = raw ∧ numeral.counted.RoundsTo x) ∧
    (∀ s, classify raw = .text s ↔ s = raw ∧ raw ≠ "true" ∧ raw ≠ "false" ∧
      ∀ numeral : WrittenNumeral, numeral.text = raw →
        Double.overflow ≤ |numeral.counted.value|) ∧
    classify raw ≠ .undefined ∧
    (∀ numeral : WrittenNumeral, numeral.Ordinary →
      (∀ x, numeral.counted.RoundsTo x ↔ numeral.exact.RoundsTo x) ∧
      (Double.overflow ≤ |numeral.counted.value| ↔ Double.overflow ≤ |numeral.exact.value|)) := by
  refine ⟨classify_eq_bool_iff, fun x => ?_, fun s => ?_, classify_ne_undefined,
    fun numeral ordinary => ⟨fun x => ?_, ?_⟩⟩
  · rw [classify_eq_number_iff, Double.ofString?_eq_some_iff]
  · rw [classify_eq_text_iff, Double.ofString?_eq_none_iff]
  · rw [← Decimal.toDouble?_eq_some_iff, ← Decimal.toDouble?_eq_some_iff,
      WrittenNumeral.toDouble?_counted ordinary]
  · rw [← Decimal.toDouble?_eq_none_iff, ← Decimal.toDouble?_eq_none_iff,
      WrittenNumeral.toDouble?_counted ordinary]

def one : Double :=
  ⟨false, 1023 * twoTo 52, by decide⟩

theorem value_one : one.value = 1 := by
  have units : one.units = twoTo 1074 := by decide +kernel
  rw [Double.value, signedValue, if_neg (by decide), Double.absValue, units,
    div_self (Double.twoTo_pos_rat _).ne']

/-- One and so many zeros, under an exponent that takes more of them back than there are. -/
def manyZeros (zeros : Nat) : WrittenNumeral where
  sign := .absent
  whole := '1' :: List.replicate zeros '0'
  fraction := none
  exponent := some ⟨'e', .minus, ['6', '5', '5', '3', '6', '0'], .inl rfl,
    List.all_eq_true.mp (by decide), List.cons_ne_nil _ _⟩
  isDigit := by
    intro d hd
    rw [Option.getD_none, List.append_nil] at hd
    rcases List.mem_cons.mp hd with rfl | zero
    · rfl
    · exact Decimal.isDigit_zeros zero
  nonempty := List.cons_ne_nil _ _

theorem manyZeros_text (zeros : Nat) : (manyZeros zeros).text =
    String.ofList ('1' :: (List.replicate zeros '0' ++ ['e', '-', '6', '5', '5', '3', '6', '0'])) :=
  rfl

theorem manyZeros_under (zeros : Nat) (power : Int) :
    (manyZeros zeros).under power = ⟨false, tenTo zeros, power⟩ := by
  have digits : (manyZeros zeros).significand = tenTo zeros := by
    have value := Decimal.digitsValue_append_zeros 1 zeros
    rw [Decimal.digitsValue_eq, Nat.one_mul] at value
    rw [← value, WrittenNumeral.significand]
    exact congrArg (Nat.ofDigitChars 10 · 0) (List.append_nil _)
  rw [WrittenNumeral.under, digits]
  exact congrArg (Decimal.mk false (tenTo zeros)) (Int.sub_zero power)

theorem manyZeros_countedPower (zeros : Nat) : (manyZeros zeros).countedPower = -(65536 : Nat) :=
  rfl

theorem manyZeros_power (zeros : Nat) : (manyZeros zeros).power = -(655360 : Nat) :=
  rfl

theorem toDouble?_manyZeros : (manyZeros 65536).counted.toDouble? = some one := by
  have single : Decimal.toDouble? ⟨false, 1, 0⟩ = some one := by decide +kernel
  have shifted := Decimal.toDouble?_shifted false 1 65536
  rwa [Nat.one_mul, single, ← manyZeros_under, ← manyZeros_countedPower 65536] at shifted

/-- An exponent that is cut short leaves this number at one, which is nowhere near it. -/
theorem classify_manyZeros :
    let raw := String.ofList
      ('1' :: (List.replicate 65536 '0' ++ ['e', '-', '6', '5', '5', '3', '6', '0']))
    classify raw = .number one ∧
      ¬∃ numeral : WrittenNumeral, numeral.text = raw ∧ numeral.exact.RoundsTo one := by
  intro raw
  have written : (manyZeros 65536).text = raw := manyZeros_text 65536
  constructor
  · rw [classify_eq_number_iff, Double.ofString?_eq_some_iff]
    exact ⟨_, written, (Decimal.toDouble?_eq_some_iff _ _).mp toDouble?_manyZeros⟩
  · rintro ⟨numeral, same, rounded⟩
    -- the text can be taken apart in one way only
    have chars : numeral.chars = (manyZeros 65536).chars :=
      String.ofList_injective (same.trans written.symm)
    obtain rfl := Decimal.chars_injective chars
    have small : |(manyZeros 65536).exact.value| < 1 / 2 := by
      rw [WrittenNumeral.exact, manyZeros_power, manyZeros_under]
      exact Decimal.value_shifted_lt (by decide)
    have nearer := rounded.nearest.near (Double.zero false)
    have nothing : (Double.zero false).value = 0 := Double.absValue_zero false
    rw [value_one, nothing, zero_sub, abs_neg] at nearer
    have far : 1 ≤ |1 - (manyZeros 65536).exact.value| + |(manyZeros 65536).exact.value| := by
      calc (1 : ℚ) = |1| := abs_one.symm
        _ = |1 - (manyZeros 65536).exact.value + (manyZeros 65536).exact.value| := by
          rw [sub_add_cancel]
        _ ≤ _ := abs_add_le _ _
    linarith

end DefineValue

end CompilerDriver

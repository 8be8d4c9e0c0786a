import CompilerDriver.NumberText
import CompilerDriver.Proofs.ShortestNumeral

namespace CompilerDriver

namespace Decimal

open NumberText

theorem takeDigits_append {digits rest : List Char} (h : ∀ d ∈ digits, d.isDigit = true)
    (hr : ∀ c ∈ rest.head?, c.isDigit = false) : takeDigits (digits ++ rest) = (digits, rest) := by
  have behind : rest.takeWhile Char.isDigit = [] ∧ rest.dropWhile Char.isDigit = rest := by
    cases rest with
    | nil => exact ⟨rfl, rfl⟩
    | cons c rest =>
      have other := hr c rfl
      exact ⟨List.takeWhile_cons_of_neg (by simp [other]),
        List.dropWhile_cons_of_neg (by simp [other])⟩
  rw [takeDigits, List.takeWhile_append_of_pos h, List.dropWhile_append_of_pos h, behind.1,
    behind.2, List.append_nil]

theorem takeSign_digit {c : Char} (h : c.isDigit = true) (rest : List Char) :
    takeSign (c :: rest) = (false, c :: rest) := by
  have minus : c ≠ '-' := by
    rintro rfl
    cases h
  have plus : c ≠ '+' := by
    rintro rfl
    cases h
  unfold takeSign
  split <;> simp_all

/-- Digits, and decimals behind a point if there is one, under a sign. -/
theorem ofChars?_of_digits (negative : Bool) (whole fraction rest : List Char) (some : whole ≠ [])
    (hw : ∀ d ∈ whole, d.isDigit = true) (hf : ∀ d ∈ fraction, d.isDigit = true)
    (point : rest = [] ∧ fraction = [] ∨ rest = '.' :: fraction) :
    ofChars? (if negative then '-' :: (whole ++ rest) else whole ++ rest) =
      Option.some ⟨negative, digitsValue (whole ++ fraction), -fraction.length⟩ := by
  obtain ⟨c, more, rfl⟩ := List.exists_cons_of_ne_nil some
  have sign : takeSign (if negative then '-' :: (c :: more ++ rest) else c :: more ++ rest) =
      (negative, c :: more ++ rest) := by
    cases negative with
    | true => rfl
    | false => exact takeSign_digit (hw c List.mem_cons_self) (more ++ rest)
  have digits : takeDigits (c :: more ++ rest) = (c :: more, rest) := by
    refine takeDigits_append hw fun d hd => ?_
    obtain ⟨rfl, _⟩ | rfl := point
    · cases hd
    · cases hd
      rfl
  have decimals : takeFraction rest = (fraction, []) := by
    obtain ⟨rfl, rfl⟩ | rfl := point
    · rfl
    · have all : takeDigits (fraction ++ []) = (fraction, []) := takeDigits_append hf (by simp)
      rwa [List.append_nil] at all
  rw [ofChars?, sign]
  simp only [digits, decimals, List.isEmpty_cons, Bool.false_and, Bool.false_eq_true, if_false,
    readExponent, Option.map_some, Int.zero_sub]

theorem digitsValue_eq (digits : List Char) :
    digitsValue digits = Nat.ofDigitChars 10 digits 0 := by
  rw [digitsValue, Nat.ofDigitChars_eq_foldl]
  congr 1
  funext n c
  rw [Nat.mul_comm]
  rfl

theorem digitsValue_digitsOf (n : Nat) : digitsValue (digitsOf n) = n := by
  rw [digitsValue_eq]
  exact Nat.ofDigitChars_ten_toDigits

theorem digitsValue_zeros_append (k n : Nat) : digitsValue (zeros k ++ digitsOf n) = n := by
  rw [digitsValue_eq, Nat.ofDigitChars_append, zeros, Nat.ofDigitChars_replicate_zero, Nat.mul_zero]
  exact Nat.ofDigitChars_ten_toDigits

theorem digitsValue_append_zeros (n k : Nat) :
    digitsValue (digitsOf n ++ zeros k) = n * tenTo k := by
  rw [digitsValue_eq, Nat.ofDigitChars_append, zeros, Nat.ofDigitChars_replicate_zero,
    ← digitsValue_eq, digitsValue_digitsOf, Nat.mul_comm]
  rfl

theorem isDigit_digitsOf {n : Nat} {d : Char} (h : d ∈ digitsOf n) : d.isDigit = true :=
  Nat.isDigit_of_mem_toDigits (by decide) (by decide) h

theorem isDigit_zeros {k : Nat} {d : Char} (h : d ∈ zeros k) : d.isDigit = true := by
  rw [List.eq_of_mem_replicate h]
  rfl

/-- A numeral in positional notation is read as its digits with all zeros written out and the
places behind the point counted. -/
theorem ofString?_positional (negative : Bool) (n : Nat) (exponent : Int) :
    ofString? (signed negative (positional (digitsOf n) exponent)) =
      some ⟨negative, n * tenTo exponent.toNat, -(-exponent).toNat⟩ := by
  have some : digitsOf n ≠ [] := Nat.toDigits_ne_nil
  rw [ofString?, signed, String.toList_ofList, positional]
  by_cases whole : 0 ≤ exponent
  · rw [if_pos whole]
    have all : ∀ d ∈ digitsOf n ++ zeros exponent.toNat, d.isDigit = true := fun d hd =>
      (List.mem_append.mp hd).elim isDigit_digitsOf isDigit_zeros
    have read := ofChars?_of_digits negative _ [] []
      (List.append_ne_nil_of_left_ne_nil some _) all (by simp) (.inl ⟨rfl, rfl⟩)
    rw [List.append_nil] at read
    rw [read, digitsValue_append_zeros, Int.toNat_eq_zero.mpr (by omega : -exponent ≤ 0)]
    rfl
  rw [if_neg whole]
  rw [tenTo_toNat (show exponent ≤ 0 by omega), Nat.mul_one]
  by_cases inside : 0 < (digitsOf n).length + exponent
  · rw [if_pos inside]
    generalize place : ((digitsOf n).length + exponent : Int).toNat = k
    have front : (digitsOf n).take k ≠ [] := by
      rw [ne_eq, List.take_eq_nil_iff]
      rintro (none | none)
      · omega
      · exact some none
    have read := ofChars?_of_digits negative _ ((digitsOf n).drop k) _ front
      (fun d hd => isDigit_digitsOf (List.mem_of_mem_take hd))
      (fun d hd => isDigit_digitsOf (List.mem_of_mem_drop hd)) (.inr rfl)
    rw [pointAfter, read, List.take_append_drop, digitsValue_digitsOf, List.length_drop]
    congr 2
    omega
  · rw [if_neg inside]
    generalize place : (-((digitsOf n).length + exponent : Int)).toNat = k
    have read := ofChars?_of_digits negative ['0'] (zeros k ++ digitsOf n) _
      (by simp) (fun _ => isDigit_zeros (k := 1))
      (fun d hd => (List.mem_append.mp hd).elim isDigit_zeros isDigit_digitsOf) (.inr rfl)
    have value : digitsValue (['0'] ++ (zeros k ++ digitsOf n)) = n :=
      digitsValue_zeros_append (k + 1) n
    rw [value, List.length_append, zeros, List.length_replicate] at read
    rw [zeros]
    refine read.trans ?_
    congr 2
    omega

theorem ofString?_zero (negative : Bool) :
    ofString? (signed negative ['0']) = some ⟨negative, 0, 0⟩ := by
  rw [ofString?, signed, String.toList_ofList]
  exact ofChars?_of_digits negative ['0'] [] [] (by simp) (fun _ => isDigit_zeros (k := 1))
    (by simp) (.inl ⟨rfl, rfl⟩)

theorem toDouble?_zero (negative : Bool) (exponent : Int) :
    toDouble? ⟨negative, 0, exponent⟩ = some (Double.zero negative) := by
  rw [toDouble?, if_pos rfl]

/-- Writing out zeros does not change what a numeral is nearest to. -/
theorem toDouble?_written (negative : Bool) (n : Nat) (exponent : Int) :
    toDouble? ⟨negative, n * tenTo exponent.toNat, -(-exponent).toNat⟩ =
      toDouble? ⟨negative, n, exponent⟩ := by
  rw [toDouble?_eq, toDouble?_eq]
  simp only [numerator, denominator]
  rw [Int.toNat_eq_zero.mpr (by omega : -((-exponent).toNat : Int) ≤ 0), Int.neg_neg,
    Int.toNat_natCast]
  exact congrArg (Double.ofRatio? negative · _) (Nat.mul_one _)

end Decimal

namespace Double

/-- Every number is read back from its text. -/
theorem ofString?_text (x : Double) : ofString? x.text = some x := by
  have short := toDouble?_shortest .up x
  rw [ofString?, text]
  by_cases zero : (x.shortest .up).digits = 0
  · rw [if_pos zero]
    generalize x.shortest .up = d at *
    obtain ⟨negative, digits, exponent⟩ := d
    obtain rfl : digits = 0 := zero
    rw [Decimal.toDouble?_zero] at short
    rw [Decimal.ofString?_zero, Option.bind_some, Decimal.toDouble?_zero, short]
  · rw [if_neg zero, Decimal.ofString?_positional]
    exact (Decimal.toDouble?_written _ _ _).trans short

end Double
end CompilerDriver

import CompilerDriver.Proofs.DocumentNumeral

namespace CompilerDriver

namespace Double

theorem roundHalfEven_scale (num den : Nat) {c : Nat} (pos : 0 < c) :
    roundHalfEven (num * c) (den * c) = roundHalfEven num den := by
  have low : 2 * (num % den * c) < den * c ↔ 2 * (num % den) < den := by
    rw [← Nat.mul_assoc]
    exact Nat.mul_lt_mul_right pos
  have high : den * c < 2 * (num % den * c) ↔ den < 2 * (num % den) := by
    rw [← Nat.mul_assoc]
    exact Nat.mul_lt_mul_right pos
  unfold roundHalfEven
  simp only [Nat.mul_div_mul_right _ _ pos, Nat.mul_mod_mul_right, low, high]

/-- The nearest double depends on the quotient alone. -/
theorem magnitudeNear_scale (num den : Nat) {c : Nat} (pos : 0 < c) :
    magnitudeNear (num * c) (den * c) = magnitudeNear num den := by
  unfold magnitudeNear
  simp only
  rw [Nat.mul_right_comm num c, Nat.mul_div_mul_right _ _ pos, Nat.mul_right_comm den c,
    roundHalfEven_scale _ _ pos]

theorem ofRatio?_scale (negative : Bool) (num den : Nat) {c : Nat} (pos : 0 < c) :
    ofRatio? negative (num * c) (den * c) = ofRatio? negative num den := by
  rw [ofRatio?, ofRatio?, magnitudeNear_scale num den pos]

theorem finite_of_unitsOf {n m : Nat} (h : n ≤ twoTo 53) (units : unitsOf m = n * twoTo 1074) :
    m < 2047 * twoTo 52 := by
  apply unitsOf_strictMono.lt_iff_lt.mp
  rw [units, unitsOf_infinite]
  calc n * twoTo 1074
      ≤ twoTo 53 * twoTo 1074 := Nat.mul_le_mul_right _ h
    _ < twoTo 1024 * twoTo 1074 := Nat.mul_lt_mul_of_pos_right (by decide +kernel) (twoTo_pos _)
    _ = twoTo 2098 := (twoTo_add 1024 1074).symm

theorem ofNat?_exact {n : Nat} (h : n ≤ twoTo 53) :
    ∃ y, ofNat? n = some y ∧ y.units = n * twoTo 1074 := by
  obtain ⟨m, units⟩ := exists_unitsOf h
  have near : magnitudeNear n 1 = m :=
    Nat.le_antisymm (magnitudeNear_le Nat.one_pos (by rw [units, Nat.mul_one]))
      (le_magnitudeNear Nat.one_pos (by rw [units, Nat.mul_one]))
  have finite := finite_of_unitsOf h units
  refine ⟨⟨false, m, finite⟩, ?_, units⟩
  rw [ofNat?, ofRatio?, near]
  exact ofMagnitude?_of_lt false finite

end Double

namespace StepwiseDecimal

open Double

variable {n : Nat} {exponent : Int}

theorem powerOfTen?_exact : ∀ power < 23,
    (powerOfTen? power).map Double.units = some (tenTo power * twoTo 1074) := by
  decide +kernel

theorem div?_exact {x y : Double} {power : Nat} (hx : x.units = n * twoTo 1074)
    (hy : y.units = tenTo power * twoTo 1074) : x.div? y = ofRatio? false n (tenTo power) := by
  rw [div?, hx, hy]
  exact ofRatio?_scale false n (tenTo power) (twoTo_pos 1074)

theorem mul?_exact {x y : Double} {power : Nat} (hx : x.units = n * twoTo 1074)
    (hy : y.units = tenTo power * twoTo 1074) :
    x.mul? y = ofRatio? false (n * tenTo power) 1 := by
  have parts : twoTo 2148 = 1 * (twoTo 1074 * twoTo 1074) := by
    rw [Nat.one_mul, ← twoTo_add]
  rw [mul?, hx, hy, parts, Nat.mul_mul_mul_comm]
  exact ofRatio?_scale false (n * tenTo power) 1 (Nat.mul_pos (twoTo_pos 1074) (twoTo_pos 1074))

theorem shrink_once {power : Nat} (pos : 0 < power) (low : power ≤ 22) (x : Double) :
    shrink ((power - 1) % greatestPower + 1) ((power - 1) / greatestPower) x =
      divideByPower x power := by
  have limit : 22 < greatestPower := by decide
  rw [Nat.mod_eq_of_lt (by omega), Nat.div_eq_of_lt (by omega), Nat.sub_add_cancel pos, shrink]

/-- Few digits and a low power of ten are kept, so that the one rounding is the right one. -/
theorem toDouble?_exact (few : n ≤ twoTo 53) (low : exponent.natAbs ≤ 22) :
    toDouble? n exponent = Decimal.toDouble? ⟨false, n, exponent⟩ := by
  obtain ⟨x, found, units⟩ := ofNat?_exact few
  obtain ⟨y, power, scale⟩ :=
    Option.map_eq_some_iff.mp (powerOfTen?_exact exponent.natAbs (Nat.lt_succ_of_le low))
  have limit : 22 < greatestPower := by decide
  rw [Decimal.toDouble?_eq]
  simp only [Decimal.numerator, Decimal.denominator]
  by_cases neg : exponent < 0
  · have divided : toDouble? n exponent = x.div? y := by
      rw [toDouble?, found, Option.bind_some, if_pos neg]
      show shrink _ _ x = _
      rw [shrink_once (show 0 < exponent.natAbs by omega) low, divideByPower, power,
        Option.bind_some]
    rw [divided, div?_exact units scale, show exponent.toNat = 0 by omega,
      show (-exponent).toNat = exponent.natAbs by omega, show tenTo 0 = 1 from rfl, Nat.mul_one]
  · have multiplied : toDouble? n exponent = x.mul? y := by
      rw [toDouble?, found, Option.bind_some, if_neg neg, if_pos (by omega),
        show exponent.toNat = exponent.natAbs by omega, power, Option.bind_some]
    rw [multiplied, mul?_exact units scale, show exponent.toNat = exponent.natAbs by omega,
      show (-exponent).toNat = 0 by omega, show tenTo 0 = 1 from rfl]

end StepwiseDecimal

namespace Double

open NumberText

/-- The numeral that a document holds for a number has few digits and a low power of ten. -/
def Short (x : Double) : Prop :=
  let parts := documentParts (x.shortest .even).digits (x.shortest .even).exponent
  parts.1 ≤ twoTo 53 ∧ parts.2.natAbs ≤ 22

instance (x : Double) : Decidable x.Short :=
  inferInstanceAs (Decidable (_ ∧ _))

theorem withSign_ofRatio? (negative : Bool) (num den : Nat) :
    (ofRatio? false num den).map (·.withSign negative) = ofRatio? negative num den := by
  rw [ofRatio?, ofRatio?]
  generalize magnitudeNear num den = magnitude
  unfold ofMagnitude?
  split <;> rfl

theorem withSign_toDouble? (negative : Bool) (n : Nat) (exponent : Int) :
    (Decimal.toDouble? ⟨false, n, exponent⟩).map (·.withSign negative) =
      Decimal.toDouble? ⟨negative, n, exponent⟩ := by
  rw [Decimal.toDouble?_eq, Decimal.toDouble?_eq]
  simp only [Decimal.numerator, Decimal.denominator]
  exact withSign_ofRatio? negative _ _

/-- Writing out a decimal does not change what a numeral is nearest to. -/
theorem toDouble?_documentParts_eq (negative : Bool) (n : Nat) (exponent : Int) :
    Decimal.toDouble? ⟨negative, (documentParts n exponent).1, (documentParts n exponent).2⟩ =
      Decimal.toDouble? ⟨negative, n, exponent⟩ := by
  by_cases whole : 0 ≤ exponent ∧ Decimal.digitCount n + exponent ≤ 16
  · rw [documentParts, if_pos whole, Decimal.toDouble?_eq, Decimal.toDouble?_eq]
    simp only [Decimal.numerator, Decimal.denominator]
    have num : n * tenTo (exponent.toNat + 1) * tenTo (-1 : Int).toNat =
        n * tenTo exponent.toNat * tenTo 1 := by
      rw [tenTo_add, ← Nat.mul_assoc]
      exact Nat.mul_one _
    have den : tenTo (-(-1 : Int)).toNat = tenTo (-exponent).toNat * tenTo 1 := by
      rw [show (-exponent).toNat = 0 by omega]
      rfl
    rw [num, den]
    exact ofRatio?_scale negative _ _ (tenTo_pos 1)
  · rw [documentParts, if_neg whole]

/-- A number with a short numeral comes back from a document as it was. -/
theorem reread_of_short {x : Double} (h : x.Short) : x.reread = x := by
  have exact := StepwiseDecimal.toDouble?_exact h.1 h.2
  have back := toDouble?_shortest .even x
  have read : x.reread? = some x := by
    rw [reread?]
    simp only [exact]
    rw [withSign_toDouble?, toDouble?_documentParts_eq]
    exact back
  rw [reread, read]
  rfl

end Double

end CompilerDriver

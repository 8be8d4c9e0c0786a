import CompilerDriver.StepwiseDecimal
import CompilerDriver.Proofs.ShortestNumeral

namespace CompilerDriver

namespace Double

variable {a b den : Nat}

theorem magnitudeNear_mono (pos : 0 < den) (h : a ≤ b) :
    magnitudeNear a den ≤ magnitudeNear b den := by
  rcases h.eq_or_lt with rfl | less
  · exact Nat.le_refl _
  by_contra more
  have above := midpoint_le_of_lt_magnitudeNear pos (Nat.not_le.mp more)
  have below := le_midpoint_of_magnitudeNear_le pos (Nat.le_refl (magnitudeNear b den))
  have scaled := Nat.mul_lt_mul_of_pos_right less (twoTo_pos 1074)
  omega

/-- A quotient that is not above one with a finite double has one itself. -/
theorem ofRatio?_mono (pos : 0 < den) (h : a ≤ b) {negative : Bool} {y : Double}
    (found : ofRatio? negative b den = some y) :
    ∃ x, ofRatio? negative a den = some x ∧ x.magnitude ≤ y.magnitude := by
  have less : magnitudeNear a den ≤ y.magnitude :=
    (magnitudeNear_mono pos h).trans_eq (magnitude_of_ofMagnitude? found).symm
  exact ⟨_, ofMagnitude?_of_lt negative (less.trans_lt y.magnitude_lt), less⟩

theorem units_mono {x y : Double} (h : x.magnitude ≤ y.magnitude) : x.units ≤ y.units :=
  unitsOf_strictMono.monotone h

theorem mul?_mono {x y x' y' z : Double} (hx : x.magnitude ≤ x'.magnitude)
    (hy : y.magnitude ≤ y'.magnitude) (found : x'.mul? y' = some z) :
    ∃ w, x.mul? y = some w := by
  obtain ⟨w, less, _⟩ := ofRatio?_mono (twoTo_pos 2148)
    (Nat.mul_le_mul (units_mono hx) (units_mono hy)) found
  exact ⟨w, less⟩

/-- A quotient by one or more is no larger than what is divided. -/
theorem div?_of_one_le (x : Double) {y : Double} (h : twoTo 1074 ≤ y.units) :
    ∃ z, x.div? y = some z := by
  have pos : 0 < y.units := (twoTo_pos 1074).trans_le h
  have less : magnitudeNear x.units y.units ≤ x.magnitude :=
    magnitudeNear_le pos (Nat.mul_le_mul_left x.units h)
  exact ⟨_, ofMagnitude?_of_lt false (less.trans_lt x.magnitude_lt)⟩

end Double

namespace StepwiseDecimal

open Double

theorem ofNat?_found {n : Nat} (h : n ≤ tenTo greatestPower) : ∃ x, ofNat? n = some x := by
  have greatest : (ofNat? (tenTo greatestPower)).isSome = true := by decide +kernel
  obtain ⟨y, found⟩ := Option.isSome_iff_exists.mp greatest
  obtain ⟨x, less, _⟩ := ofRatio?_mono Nat.one_pos h found
  exact ⟨x, less⟩

theorem one_le_units {n : Nat} {y : Double} (h : ofNat? (tenTo n) = some y) :
    twoTo 1074 ≤ y.units := by
  obtain ⟨one, unit⟩ := exists_unitsOf (n := 1) (twoTo_pos 53)
  rw [Nat.one_mul] at unit
  have above : one ≤ magnitudeNear (tenTo n) 1 := by
    apply le_magnitudeNear Nat.one_pos
    rw [unit, Nat.mul_one]
    exact Nat.le_mul_of_pos_left _ (tenTo_pos n)
  rw [← magnitude_of_ofMagnitude? h] at above
  rw [← unit]
  exact unitsOf_strictMono.monotone above

/-- The powers of ten that are divided and multiplied by are doubles, and not below one. -/
theorem powerOfTen?_found {n : Nat} (h : n ≤ greatestPower) :
    ∃ y, powerOfTen? n = some y ∧ twoTo 1074 ≤ y.units := by
  obtain ⟨y, found⟩ := ofNat?_found (Decimal.tenTo_le h)
  exact ⟨y, found, one_le_units found⟩

theorem divideByPower_found (x : Double) {power : Nat} (h : power ≤ greatestPower) :
    ∃ z, divideByPower x power = some z := by
  obtain ⟨y, found, one⟩ := powerOfTen?_found h
  obtain ⟨z, quotient⟩ := div?_of_one_le x one
  exact ⟨z, by rw [divideByPower, found, Option.bind_some, quotient]⟩

/-- Division goes through whatever the number of its steps. -/
theorem shrink_found {last : Nat} (h : last ≤ greatestPower) (full : Nat) (x : Double) :
    ∃ z, shrink last full x = some z := by
  induction full generalizing x with
  | zero => exact divideByPower_found x h
  | succ full ih =>
    rw [shrink]
    split
    · exact ⟨x, rfl⟩
    · obtain ⟨y, divided⟩ := divideByPower_found x (Nat.le_refl greatestPower)
      obtain ⟨z, shrunk⟩ := ih y
      exact ⟨z, by rw [divided, Option.bind_some, shrunk]⟩

variable {significand : Nat} {exponent : Int}

theorem toDouble?_of_neg (small : significand ≤ tenTo greatestPower) (h : exponent < 0) :
    ∃ z, toDouble? significand exponent = some z := by
  obtain ⟨x, found⟩ := ofNat?_found small
  have last : (exponent.natAbs - 1) % greatestPower + 1 ≤ greatestPower :=
    Nat.mod_lt _ (by decide)
  obtain ⟨z, shrunk⟩ := shrink_found last ((exponent.natAbs - 1) / greatestPower) x
  refine ⟨z, ?_⟩
  simp only [toDouble?, found, Option.bind_some, if_pos h, shrunk]

/-- What is not too large does not become so with fewer digits or a lower power. -/
theorem toDouble?_mono {larger n power : Nat} (digits : significand ≤ larger) (places : n ≤ power)
    (few : power ≤ greatestPower) (found : (toDouble? larger power).isSome = true) :
    ∃ z, toDouble? significand n = some z := by
  obtain ⟨z, product⟩ := Option.isSome_iff_exists.mp found
  rw [toDouble?] at product
  obtain ⟨y, exact, product⟩ := Option.bind_eq_some_iff.mp product
  rw [if_neg (by omega), if_pos (by omega)] at product
  obtain ⟨factor, scale, product⟩ := Option.bind_eq_some_iff.mp product
  obtain ⟨x, less, smaller⟩ := ofRatio?_mono Nat.one_pos digits exact
  obtain ⟨shift, lower, lowered⟩ := ofRatio?_mono Nat.one_pos (Decimal.tenTo_le places) scale
  obtain ⟨w, multiplied⟩ := mul?_mono smaller lowered product
  refine ⟨w, ?_⟩
  have one : ofNat? significand = some x := less
  have two : powerOfTen? n = some shift := lower
  rw [toDouble?, one, Option.bind_some, if_neg (by omega), if_pos (by omega), Int.toNat_natCast,
    two, Option.bind_some, multiplied]

/-- The greatest magnitude of a double. -/
def greatest : Nat :=
  2047 * twoTo 52 - 1

/-- Twice the number of units from which on nothing is rounded to a double. -/
def ceiling : Nat :=
  unitsOf greatest + unitsOf (greatest + 1)

/-- The most digits before so many zeros in the shortest numeral of a double, the greatest one
apart. -/
def digitBound (zeros : Nat) : Nat :=
  min (ceiling / (2 * (tenTo zeros * twoTo 1074)))
    (unitsOf (greatest - 1) / (twoTo 1074 * tenTo zeros) + 1)

/-- With fewer zeros than these no seventeen digits are too many. -/
def criticalZeros : Nat := 292

theorem toDouble?_seventeen :
    (toDouble? (tenTo 17 + 1) (criticalZeros - 1 : Nat)).isSome = true := by
  decide +kernel

theorem toDouble?_digitBound : ∀ more < 17,
    (toDouble? (digitBound (criticalZeros + more)) (criticalZeros + more : Nat)).isSome = true := by
  decide +kernel

theorem searchGrids_greatest :
    searchGrids .even greatest (pointPosition (unitsOf greatest)) 18 =
      (17976931348623157, 292) := by
  decide +kernel

theorem toDouble?_greatest : (toDouble? 17976931348623157 292).isSome = true := by
  decide +kernel

theorem ceiling_lt : ceiling < 2 * (tenTo 309 * twoTo 1074) := by
  decide +kernel

theorem magnitude_le_greatest (x : Double) : x.magnitude ≤ greatest :=
  Nat.le_sub_one_of_lt x.magnitude_lt

/-- A number with a finite nearest double is below the ceiling. -/
theorem mul_le_ceiling {digits zeros : Nat}
    (h : magnitudeNear (digits * tenTo zeros) 1 ≤ greatest) :
    digits * (2 * (tenTo zeros * twoTo 1074)) ≤ ceiling := by
  have below := le_midpoint_of_magnitudeNear_le Nat.one_pos h
  rw [Nat.mul_one] at below
  calc digits * (2 * (tenTo zeros * twoTo 1074))
      = 2 * (digits * tenTo zeros * twoTo 1074) := by ring
    _ ≤ ceiling := below

theorem zeros_le {digits zeros : Nat} (some : digits ≠ 0)
    (h : digits * (2 * (tenTo zeros * twoTo 1074)) ≤ ceiling) : zeros ≤ greatestPower := by
  by_contra more
  have large : tenTo 309 ≤ tenTo zeros := Decimal.tenTo_le (Nat.not_le.mp more)
  have scaled := Nat.mul_le_mul_right (twoTo 1074) large
  have least : 2 * (tenTo zeros * twoTo 1074) ≤ digits * (2 * (tenTo zeros * twoTo 1074)) :=
    Nat.le_mul_of_pos_left _ (Nat.pos_of_ne_zero some)
  have beyond := ceiling_lt
  omega

theorem digits_ne_zero {digits zeros den : Nat} (pos : 0 < den)
    (h : magnitudeNear (digits * tenTo zeros) den ≠ 0) : digits ≠ 0 := by
  rintro rfl
  have none : magnitudeNear (0 * tenTo zeros) den ≤ 0 :=
    magnitudeNear_le pos (by rw [Nat.zero_mul, Nat.zero_mul]; exact Nat.zero_le _)
  exact h (Nat.le_zero.mp none)

theorem le_digitBound {x : Double} {digits zeros : Nat} (less : x.magnitude ≤ greatest - 1)
    (near : magnitudeNear (digits * tenTo zeros) 1 = x.magnitude)
    (place : digits ≤ x.units * tenTo 0 / (twoTo 1074 * tenTo zeros) + 1) :
    digits ≤ digitBound zeros := by
  have below := mul_le_ceiling (near.trans_le (magnitude_le_greatest x))
  have step : 0 < 2 * (tenTo zeros * twoTo 1074) :=
    Nat.mul_pos Nat.two_pos (Nat.mul_pos (tenTo_pos _) (twoTo_pos _))
  refine Nat.le_min.mpr ⟨(Nat.le_div_iff_mul_le step).mpr below, place.trans ?_⟩
  rw [show tenTo 0 = 1 from rfl, Nat.mul_one]
  have units : x.units ≤ unitsOf (greatest - 1) := unitsOf_strictMono.monotone less
  exact Nat.add_le_add_right (Nat.div_le_div_right units) 1

/-- The shortest numeral of a double is never too large for stepwise reading. -/
theorem toDouble?_of_shortest {x : Double} (positive : x.magnitude ≠ 0) {digits zeros : Nat}
    (short : x.shortest .even = ⟨x.negative, digits, zeros⟩) :
    ∃ z, toDouble? digits zeros = some z := by
  by_cases last : x.magnitude = greatest
  · rw [shortest, if_neg positive, units, last, searchGrids_greatest] at short
    simp only [Decimal.mk.injEq, true_and] at short
    obtain ⟨rfl, place⟩ := short
    rw [← place]
    exact Option.isSome_iff_exists.mp toDouble?_greatest
  obtain ⟨n, e, found, reads, place, few⟩ := shortest_found .even positive
  rw [short] at found
  obtain ⟨-, rfl, rfl⟩ := Decimal.mk.inj found
  have near := (readsBack_iff x.magnitude_lt).mp reads
  rw [Int.toNat_natCast, Int.toNat_eq_zero.mpr (by omega)] at near place
  have some := digits_ne_zero Nat.one_pos (near.trans_ne positive)
  have most := zeros_le some (mul_le_ceiling (near.trans_le (magnitude_le_greatest x)))
  by_cases low : zeros < criticalZeros
  · exact toDouble?_mono few (Nat.le_sub_one_of_lt low) (by decide) toDouble?_seventeen
  · have less := Nat.le_sub_one_of_lt (Nat.lt_of_le_of_ne (magnitude_le_greatest x) last)
    obtain ⟨more, rfl⟩ := Nat.exists_eq_add_of_le (Nat.not_lt.mp low)
    have few : more < 17 := by
      unfold criticalZeros greatestPower at *
      omega
    exact toDouble?_mono (le_digitBound less near place) (Nat.le_refl _) most
      (toDouble?_digitBound more few)

end StepwiseDecimal

end CompilerDriver

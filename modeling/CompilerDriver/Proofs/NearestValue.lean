import CompilerDriver.Proofs.ShortestNumeral
import Mathlib.Algebra.Order.Ring.Rat
import Mathlib.Algebra.Order.Field.Basic
import Mathlib.Tactic.FieldSimp

namespace CompilerDriver

def signedValue (negative : Bool) (v : ℚ) : ℚ :=
  if negative then -v else v

/-- Of two numbers the greater one is nearer to what is beyond their middle. -/
theorem abs_sub_le_of_middle_le {a b v : ℚ} (order : a ≤ b) (middle : a + b ≤ 2 * v) :
    |b - v| ≤ |a - v| := by
  have left : |a - v| = v - a := by rw [abs_sub_comm, abs_of_nonneg (by linarith)]
  rw [left, abs_le]
  constructor <;> linarith

theorem abs_sub_le_of_le_middle {a b v : ℚ} (order : a ≤ b) (middle : 2 * v ≤ a + b) :
    |a - v| ≤ |b - v| := by
  have right : |b - v| = b - v := abs_of_nonneg (by linarith)
  rw [right, abs_le]
  constructor <;> linarith

/-- Two numbers at one distance have `v` in their middle. -/
theorem middle_of_abs_sub_eq {a b v : ℚ} (order : a < b) (same : |a - v| = |b - v|) :
    a + b = 2 * v := by
  rcases abs_eq_abs.mp same with equal | opposite <;> linarith

theorem signedValue_zero (negative : Bool) : signedValue negative 0 = 0 := by
  cases negative with
  | false => rfl
  | true => exact neg_zero

theorem abs_signedValue (negative : Bool) {v : ℚ} (pos : 0 ≤ v) : |signedValue negative v| = v := by
  cases negative with
  | false => exact abs_of_nonneg pos
  | true => exact (abs_neg v).trans (abs_of_nonneg pos)

theorem signedValue_inj {negative : Bool} {a b : ℚ} :
    signedValue negative a = signedValue negative b ↔ a = b := by
  cases negative with
  | false => rfl
  | true => exact neg_inj

namespace Double

/-- The number that a double stands for, without its sign. -/
def absValue (x : Double) : ℚ :=
  x.units / twoTo 1074

/-- The number that a double stands for. -/
def value (x : Double) : ℚ :=
  signedValue x.negative x.absValue

/-- No double is nearer to `v`. Where another number is as near, the significand is even: its last
bit is the last one of the double. -/
structure IsNearest (x : Double) (v : ℚ) : Prop where
  near : ∀ y : Double, |x.value - v| ≤ |y.value - v|
  even : ∀ y : Double, |y.value - v| = |x.value - v| → y.value ≠ x.value → x.bits % 2 = 0

theorem bits_mod_two (x : Double) : x.bits % 2 = x.magnitude % 2 := by
  have sign : (if x.negative then twoTo 63 else 0) % 2 = 0 := by
    cases x.negative <;> decide
  unfold bits
  omega

theorem twoTo_pos_rat (n : Nat) : (0 : ℚ) < twoTo n :=
  Nat.cast_pos.mpr (twoTo_pos n)

theorem absValue_nonneg (x : Double) : 0 ≤ x.absValue :=
  div_nonneg (Nat.cast_nonneg _) (twoTo_pos_rat _).le

theorem absValue_zero (negative : Bool) : (zero negative).absValue = 0 := by
  have none : (zero negative).units = 0 := unitsOf_small (twoTo_pos 52)
  rw [absValue, none, Nat.cast_zero, zero_div]

section

variable {x y : Double} {negative : Bool} {v : ℚ}

theorem absValue_lt_iff : x.absValue < y.absValue ↔ x.magnitude < y.magnitude := by
  rw [absValue, absValue, div_lt_div_iff_of_pos_right (twoTo_pos_rat _), Nat.cast_lt]
  exact unitsOf_strictMono.lt_iff_lt

/-- On the side of zero where `v` is, distances are those of the magnitudes. -/
theorem dist_eq (same : x.negative = negative) :
    |x.value - signedValue negative v| = |x.absValue - v| := by
  rw [value, same, signedValue, signedValue]
  cases negative with
  | false => rfl
  | true =>
    rw [if_pos rfl, if_pos rfl, ← abs_neg]
    congr 1
    ring

theorem dist_across (differ : x.negative ≠ negative) (pos : 0 ≤ v) :
    |x.value - signedValue negative v| = x.absValue + v := by
  have some := x.absValue_nonneg
  rw [value, signedValue, signedValue]
  cases negative with
  | false =>
    rw [ne_eq, Bool.not_eq_false] at differ
    rw [differ, if_pos rfl, if_neg (by decide), abs_sub_comm, abs_of_nonneg (by linarith)]
    ring
  | true =>
    rw [ne_eq, Bool.not_eq_true] at differ
    rw [differ, if_pos rfl, if_neg (by decide), abs_of_nonneg (by linarith)]
    ring

theorem dist_ge (x : Double) (negative : Bool) (pos : 0 ≤ v) :
    |x.absValue - v| ≤ |x.value - signedValue negative v| := by
  by_cases same : x.negative = negative
  · exact (dist_eq same).ge
  · have some := x.absValue_nonneg
    rw [dist_across same pos, abs_le]
    constructor <;> linarith

/-- A double between two even ones that are equally far from `v` is nearer to it than they are. -/
theorem exists_nearer (order : x.magnitude < y.magnitude) (even : x.magnitude % 2 = 0)
    (even' : y.magnitude % 2 = 0) (same : |x.absValue - v| = |y.absValue - v|) (negative : Bool) :
    ∃ z : Double, z.negative = negative ∧ |z.absValue - v| < |x.absValue - v| := by
  have room : x.magnitude + 1 < y.magnitude := by omega
  let z : Double := ⟨negative, x.magnitude + 1, room.trans y.magnitude_lt⟩
  have above : x.absValue < z.absValue := absValue_lt_iff.mpr (Nat.lt_add_one _)
  have below : z.absValue < y.absValue := absValue_lt_iff.mpr room
  have middle := middle_of_abs_sub_eq (above.trans below) same
  have left : |x.absValue - v| = v - x.absValue := by
    rw [abs_sub_comm, abs_of_nonneg (by linarith)]
  refine ⟨z, rfl, ?_⟩
  rw [left, abs_lt]
  constructor <;> linarith

end

section

variable {num den m : Nat}

/-- A lower magnitude is no nearer to a quotient than the one it is rounded to. -/
theorem middle_le_of_lt (pos : 0 < den) (h : m < magnitudeNear num den) :
    (unitsOf m + unitsOf (magnitudeNear num den)) * den ≤ 2 * (num * twoTo 1074) := by
  obtain ⟨before, same⟩ := Nat.exists_eq_add_one.mpr (Nat.zero_lt_of_lt h)
  have below := midpoint_le_of_lt_magnitudeNear pos (same ▸ Nat.lt_add_one before)
  have order : unitsOf m ≤ unitsOf before := unitsOf_strictMono.monotone (by omega)
  rw [same]
  exact (Nat.mul_le_mul_right den (Nat.add_le_add_right order _)).trans below

theorem le_middle_of_lt (pos : 0 < den) (h : magnitudeNear num den < m) :
    2 * (num * twoTo 1074) ≤ (unitsOf (magnitudeNear num den) + unitsOf m) * den := by
  have above := le_midpoint_of_magnitudeNear_le pos (Nat.le_refl (magnitudeNear num den))
  have order : unitsOf (magnitudeNear num den + 1) ≤ unitsOf m :=
    unitsOf_strictMono.monotone h
  exact above.trans (Nat.mul_le_mul_right den (Nat.add_le_add_left order _))

/-- A magnitude that is as near is a neighbour, and it is the odd one of the two. -/
theorem magnitudeNear_even_of_middle (pos : 0 < den) (ne : m ≠ magnitudeNear num den)
    (middle : 2 * (num * twoTo 1074) = (unitsOf m + unitsOf (magnitudeNear num den)) * den) :
    magnitudeNear num den % 2 = 0 := by
  rcases Nat.lt_or_gt_of_ne ne with below | above
  · obtain ⟨before, same⟩ := Nat.exists_eq_add_one.mpr (Nat.zero_lt_of_lt below)
    have least := midpoint_le_of_lt_magnitudeNear pos (same ▸ Nat.lt_add_one before)
    have order : unitsOf m ≤ unitsOf before := unitsOf_strictMono.monotone (by omega)
    have most := Nat.mul_le_mul_right den (Nat.add_le_add_right order (unitsOf (before + 1)))
    rw [same] at middle
    exact magnitudeNear_even pos (.inr same) (Nat.le_antisymm (middle.trans_le most) least)
  · have most := le_midpoint_of_magnitudeNear_le pos (Nat.le_refl (magnitudeNear num den))
    have order : unitsOf (magnitudeNear num den + 1) ≤ unitsOf m :=
      unitsOf_strictMono.monotone above
    have least := Nat.mul_le_mul_right den
      (Nat.add_le_add_left order (unitsOf (magnitudeNear num den)))
    rw [Nat.add_comm] at middle
    exact magnitudeNear_even pos (.inl rfl) (Nat.le_antisymm most (least.trans_eq middle.symm))

variable {x y : Double} {negative : Bool}

theorem units_add_le_iff (pos : 0 < den) :
    x.absValue + y.absValue ≤ 2 * (num / den : ℚ) ↔
      (x.units + y.units) * den ≤ 2 * (num * twoTo 1074) := by
  have denPos : (0 : ℚ) < den := Nat.cast_pos.mpr pos
  rw [absValue, absValue, ← add_div, ← mul_div_assoc,
    div_le_div_iff₀ (twoTo_pos_rat _) denPos, ← Nat.mul_assoc]
  norm_cast

theorem le_units_add_iff (pos : 0 < den) :
    2 * (num / den : ℚ) ≤ x.absValue + y.absValue ↔
      2 * (num * twoTo 1074) ≤ (x.units + y.units) * den := by
  have denPos : (0 : ℚ) < den := Nat.cast_pos.mpr pos
  rw [absValue, absValue, ← add_div, ← mul_div_assoc,
    div_le_div_iff₀ denPos (twoTo_pos_rat _), ← Nat.mul_assoc]
  norm_cast

theorem dist_le_of_magnitudeNear (pos : 0 < den) (rounded : x.magnitude = magnitudeNear num den)
    (y : Double) : |x.absValue - num / den| ≤ |y.absValue - num / den| := by
  rcases Nat.lt_trichotomy y.magnitude x.magnitude with below | same | above
  · refine abs_sub_le_of_middle_le (absValue_lt_iff.mpr below).le ?_
    rw [units_add_le_iff pos, units, units, rounded]
    exact middle_le_of_lt pos (rounded ▸ below)
  · have equal : x.absValue = y.absValue := by rw [absValue, absValue, units, units, same]
    rw [equal]
  · refine abs_sub_le_of_le_middle (absValue_lt_iff.mpr above).le ?_
    rw [le_units_add_iff pos, units, units, rounded]
    exact le_middle_of_lt pos (rounded ▸ above)

theorem even_of_dist_eq (pos : 0 < den) (rounded : x.magnitude = magnitudeNear num den)
    (ne : y.magnitude ≠ x.magnitude)
    (same : |y.absValue - num / den| = |x.absValue - num / den|) : x.magnitude % 2 = 0 := by
  have middle : y.absValue + x.absValue = 2 * (num / den : ℚ) := by
    rcases Nat.lt_or_gt_of_ne ne with below | above
    · exact middle_of_abs_sub_eq (absValue_lt_iff.mpr below) same
    · rw [add_comm]
      exact middle_of_abs_sub_eq (absValue_lt_iff.mpr above) same.symm
  have least := (units_add_le_iff pos).mp middle.le
  have most := (le_units_add_iff pos).mp middle.ge
  rw [rounded] at ne ⊢
  refine magnitudeNear_even_of_middle pos ne ?_
  rw [← rounded]
  exact Nat.le_antisymm most least

theorem quotient_nonneg (num den : Nat) : (0 : ℚ) ≤ num / den :=
  div_nonneg (Nat.cast_nonneg _) (Nat.cast_nonneg _)

/-- A double of the magnitude that a quotient is rounded to is nearest to it, whatever the sign
of both. -/
theorem isNearest_of_magnitudeNear (pos : 0 < den) (sign : x.negative = negative)
    (rounded : x.magnitude = magnitudeNear num den) :
    x.IsNearest (signedValue negative (num / den)) := by
  have some := quotient_nonneg num den
  constructor
  · intro y
    rw [dist_eq sign]
    exact (dist_le_of_magnitudeNear pos rounded y).trans (dist_ge y negative some)
  intro y same other
  rw [dist_eq sign] at same
  have least := dist_le_of_magnitudeNear pos rounded y
  rw [bits_mod_two]
  by_cases beside : y.magnitude = x.magnitude
  · -- the same magnitude under the other sign is as near only when both are zero
    exfalso
    have equal : y.absValue = x.absValue := by rw [absValue, absValue, units, units, beside]
    have differ : y.negative ≠ negative := by
      intro together
      exact other (by rw [value, value, together, sign, equal])
    have nothing := dist_le_of_magnitudeNear pos rounded (zero false)
    rw [dist_across differ some, equal] at same
    rw [← same, absValue_zero, zero_sub, abs_neg, abs_of_nonneg some] at nothing
    have null : x.absValue = 0 := le_antisymm (by linarith) x.absValue_nonneg
    exact other (by rw [value, value, equal, null, signedValue_zero, signedValue_zero])
  · exact even_of_dist_eq pos rounded beside
      (le_antisymm ((dist_ge y negative some).trans_eq same) least)

theorem IsNearest.magnitude_eq (pos : 0 < den) (finite : magnitudeNear num den < 2047 * twoTo 52)
    (sign : x.negative = negative) (nearest : x.IsNearest (signedValue negative (num / den))) :
    x.magnitude = magnitudeNear num den := by
  let rounded : Double := ⟨negative, magnitudeNear num den, finite⟩
  by_contra ne
  have near (y : Double) (sign' : y.negative = negative) :
      |x.absValue - num / den| ≤ |y.absValue - num / den| := by
    have least := nearest.near y
    rwa [dist_eq sign, dist_eq sign'] at least
  have same := le_antisymm (near rounded rfl) (dist_le_of_magnitudeNear (x := rounded) pos rfl x)
  have other : rounded.value ≠ x.value := by
    rw [value, value, sign, ne_eq, signedValue_inj]
    rcases Nat.lt_or_gt_of_ne ne with below | above
    · exact (absValue_lt_iff.mpr below).ne'
    · exact (absValue_lt_iff.mpr above).ne
  -- both are even, so there is a double between them, and that one is nearer
  have even := even_of_dist_eq (x := rounded) pos rfl ne same
  have even' := nearest.even rounded (by rw [dist_eq sign, dist_eq rfl, same]) other
  rw [bits_mod_two] at even'
  rcases Nat.lt_or_gt_of_ne ne with below | above
  · obtain ⟨z, sign', nearer⟩ := exists_nearer (y := rounded) below even' even same negative
    exact absurd (near z sign') nearer.not_ge
  · obtain ⟨z, sign', nearer⟩ := exists_nearer (x := rounded) above even even' same.symm negative
    exact absurd (near z sign') (nearer.trans_eq same.symm).not_ge

/-- From here on a number is beyond the greatest double, even when it is rounded. -/
def overflow : ℚ :=
  twoTo 1024 - twoTo 970

theorem quotient_lt_iff (pos : 0 < den) (bound : Nat) :
    (num / den : ℚ) < bound ↔ num < bound * den := by
  have denPos : (0 : ℚ) < den := Nat.cast_pos.mpr pos
  rw [div_lt_iff₀ denPos]
  norm_cast

theorem magnitudeNear_lt_iff_quotient (pos : 0 < den) :
    magnitudeNear num den < 2047 * twoTo 52 ↔ (num / den : ℚ) < overflow := by
  have whole : twoTo 2098 - twoTo 2044 = (twoTo 1024 - twoTo 970) * twoTo 1074 := by
    decide +kernel
  have order : twoTo 970 ≤ twoTo 1024 := by decide +kernel
  rw [magnitudeNear_lt_iff pos, whole, Nat.mul_right_comm, Nat.mul_lt_mul_right (twoTo_pos _),
    overflow, ← Nat.cast_sub order, quotient_lt_iff pos]

/-- A quotient under a sign becomes a double exactly below the bound, and then the nearest one of
that sign. -/
theorem ofRatio?_eq_some_iff (pos : 0 < den) :
    ofRatio? negative num den = some x ↔ (num / den : ℚ) < overflow ∧ x.negative = negative ∧
      x.IsNearest (signedValue negative (num / den)) := by
  rw [← magnitudeNear_lt_iff_quotient pos, ofRatio?]
  constructor
  · intro h
    have finite : magnitudeNear num den < 2047 * twoTo 52 := by
      by_contra infinite
      rw [ofMagnitude?, dif_neg infinite] at h
      cases h
    rw [ofMagnitude?_of_lt negative finite, Option.some.injEq] at h
    subst h
    exact ⟨finite, rfl, isNearest_of_magnitudeNear pos rfl rfl⟩
  · rintro ⟨finite, sign, nearest⟩
    rw [ofMagnitude?_of_lt negative finite, Option.some.injEq]
    obtain ⟨own, magnitude, bound⟩ := x
    obtain rfl : magnitude = magnitudeNear num den := nearest.magnitude_eq pos finite sign
    obtain rfl : own = negative := sign
    rfl

end

end Double

namespace Decimal

open Double

def value (d : Decimal) : ℚ :=
  signedValue d.negative (d.digits * 10 ^ d.exponent)

/-- A numeral becomes this double when it is rounded: the nearest one of its sign. From a bound on
there is none. -/
structure RoundsTo (d : Decimal) (x : Double) : Prop where
  finite : |d.value| < overflow
  sign : x.negative = d.negative
  nearest : x.IsNearest d.value

theorem cast_tenTo (n : Nat) : (tenTo n : ℚ) = 10 ^ (n : Int) := by
  rw [zpow_natCast]
  exact Nat.cast_pow 10 n

theorem quotient_eq (d : Decimal) :
    (d.numerator / d.denominator : ℚ) = d.digits * 10 ^ d.exponent := by
  have ten : (10 : ℚ) ≠ 0 := by norm_num
  have split : d.exponent = d.exponent.toNat - (-d.exponent).toNat := by omega
  rw [numerator, denominator, Nat.cast_mul, cast_tenTo, cast_tenTo, mul_div_assoc, ← zpow_sub₀ ten,
    ← split]

theorem abs_value (d : Decimal) : |d.value| = d.numerator / d.denominator := by
  rw [value, ← quotient_eq, abs_signedValue _ (quotient_nonneg _ _)]

theorem toDouble?_eq_some_iff (d : Decimal) (x : Double) :
    d.toDouble? = some x ↔ d.RoundsTo x := by
  have value : d.value = signedValue d.negative (d.numerator / d.denominator) := by
    rw [quotient_eq, Decimal.value]
  rw [toDouble?_eq, ofRatio?_eq_some_iff d.denominator_pos, ← value, ← abs_value]
  exact ⟨fun ⟨finite, sign, nearest⟩ => ⟨finite, sign, nearest⟩,
    fun h => ⟨h.finite, h.sign, h.nearest⟩⟩

theorem toDouble?_eq_none_iff (d : Decimal) : d.toDouble? = none ↔ overflow ≤ |d.value| := by
  rw [toDouble?_eq, abs_value, ← not_lt, ← magnitudeNear_lt_iff_quotient d.denominator_pos,
    ofRatio?, ofMagnitude?]
  split <;> simp_all

end Decimal

end CompilerDriver

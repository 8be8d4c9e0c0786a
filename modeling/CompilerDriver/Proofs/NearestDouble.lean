import CompilerDriver.Decimal
import Mathlib.Order.Monotone.Basic
import Mathlib.Tactic.Ring
import Mathlib.Tactic.Linarith

namespace CompilerDriver

theorem twoTo_pos (n : Nat) : 0 < twoTo n :=
  Nat.pow_pos (by decide)

theorem tenTo_pos (n : Nat) : 0 < tenTo n :=
  Nat.pow_pos (by decide)

theorem twoTo_add (m n : Nat) : twoTo (m + n) = twoTo m * twoTo n :=
  Nat.pow_add 2 m n

theorem tenTo_add (m n : Nat) : tenTo (m + n) = tenTo m * tenTo n :=
  Nat.pow_add 10 m n

theorem tenTo_toNat {e : Int} (h : e ≤ 0) : tenTo e.toNat = 1 := by
  rw [Int.toNat_eq_zero.mpr h]
  rfl

namespace Double

theorem unitsOf_small {f : Nat} (h : f < twoTo 52) : unitsOf f = f := by
  rw [unitsOf, Nat.div_eq_of_lt h, if_pos rfl, Nat.mod_eq_of_lt h]

theorem unitsOf_large {f : Nat} (h : f < twoTo 52) (k : Nat) :
    unitsOf (f + (k + 1) * twoTo 52) = (f + twoTo 52) * twoTo k := by
  have e : (f + (k + 1) * twoTo 52) / twoTo 52 = k + 1 := by
    rw [Nat.add_mul_div_right _ _ (twoTo_pos 52), Nat.div_eq_of_lt h, Nat.zero_add]
  rw [unitsOf, e, if_neg (Nat.succ_ne_zero k), Nat.add_mul_mod_self_right, Nat.mod_eq_of_lt h]
  rfl

/-- A number of units by its significand and exponent. The significand may also be the first one
that 53 bits do not hold, which is the least one of the next exponent. -/
theorem unitsOf_parts {r k : Nat} (low : k = 0 ∨ twoTo 52 ≤ r) (high : r ≤ twoTo 53) :
    unitsOf (r + k * twoTo 52) = r * twoTo k := by
  have double : twoTo 53 = twoTo 52 + twoTo 52 := rfl
  rcases Nat.lt_or_ge r (twoTo 52) with small | large
  · obtain rfl : k = 0 := low.resolve_right (Nat.not_le.mpr small)
    rw [Nat.zero_mul, Nat.add_zero, unitsOf_small small]
    exact (Nat.mul_one r).symm
  obtain ⟨f, rfl⟩ := Nat.exists_eq_add_of_le' large
  rcases Nat.lt_or_ge f (twoTo 52) with below | top
  · rw [← unitsOf_large below k]
    congr 1
    ring
  · obtain rfl : f = twoTo 52 := by omega
    have whole : twoTo 52 + twoTo 52 + k * twoTo 52 = 0 + (k + 1 + 1) * twoTo 52 := by ring
    rw [whole, unitsOf_large (twoTo_pos 52), Nat.zero_add, twoTo_add k 1]
    show twoTo 52 * (twoTo k * 2) = _
    ring

theorem exists_parts (m : Nat) :
    ∃ r k, m = r + k * twoTo 52 ∧ (k = 0 ∨ twoTo 52 ≤ r) ∧ r < twoTo 53 := by
  have double : twoTo 53 = twoTo 52 + twoTo 52 := rfl
  have split := Nat.div_add_mod' m (twoTo 52)
  have below := Nat.mod_lt m (twoTo_pos 52)
  cases e : m / twoTo 52 with
  | zero =>
    rw [e] at split
    exact ⟨m, 0, by omega, .inl rfl, by omega⟩
  | succ k =>
    rw [e, Nat.succ_mul] at split
    exact ⟨m % twoTo 52 + twoTo 52, k, by omega, .inr (by omega), by omega⟩

/-- From one magnitude to the next there are as many units as the place of the last bit counts. -/
theorem unitsOf_succ {r k : Nat} (low : k = 0 ∨ twoTo 52 ≤ r) (high : r < twoTo 53) :
    unitsOf (r + k * twoTo 52 + 1) = unitsOf (r + k * twoTo 52) + twoTo k := by
  have next := unitsOf_parts (r := r + 1) (k := k) (low.imp_right Nat.le_succ_of_le) high
  rw [unitsOf_parts low high.le, show r + k * twoTo 52 + 1 = r + 1 + k * twoTo 52 by ring, next]
  ring

theorem unitsOf_strictMono : StrictMono unitsOf := by
  refine strictMono_nat_of_lt_succ fun m => ?_
  obtain ⟨r, k, rfl, low, high⟩ := exists_parts m
  rw [unitsOf_succ low high]
  exact Nat.lt_add_of_pos_right (twoTo_pos k)

/-- The step between neighbours is at least a 53-bit fraction of the larger one. -/
theorem unitsOf_gap (m : Nat) :
    unitsOf (m + 1) + twoTo 53 * unitsOf m ≤ twoTo 53 * unitsOf (m + 1) := by
  obtain ⟨r, k, rfl, low, high⟩ := exists_parts m
  have whole : unitsOf (r + k * twoTo 52 + 1) ≤ twoTo 53 * twoTo k := by
    rw [unitsOf_succ low high, unitsOf_parts low high.le, ← Nat.succ_mul]
    exact Nat.mul_le_mul_right _ high
  rw [unitsOf_succ low high] at whole ⊢
  rw [Nat.mul_add]
  omega

/-- A whole number of at most 53 bits is a double. -/
theorem exists_unitsOf {n : Nat} (h : n ≤ twoTo 53) : ∃ m, unitsOf m = n * twoTo 1074 := by
  rcases Nat.eq_zero_or_pos n with rfl | pos
  · exact ⟨0, by rw [unitsOf_small (twoTo_pos 52), Nat.zero_mul]⟩
  obtain ⟨l, short, low, high⟩ : ∃ l ≤ 52, twoTo l ≤ n ∧ n ≤ twoTo (l + 1) := by
    by_cases large : twoTo 52 ≤ n
    · exact ⟨52, Nat.le_refl _, large, h⟩
    · refine ⟨n.log2, ?_, Nat.log2_self_le pos.ne', Nat.lt_log2_self.le⟩
      exact ((Nat.log2_lt pos.ne').mpr (Nat.not_le.mp large)).le
  have whole : twoTo 52 = twoTo l * twoTo (52 - l) := by
    rw [← twoTo_add, Nat.add_sub_cancel' short]
  have double : twoTo 53 = twoTo (l + 1) * twoTo (52 - l) := by
    rw [← twoTo_add, show l + 1 + (52 - l) = 53 by omega]
  refine ⟨_, (unitsOf_parts (r := n * twoTo (52 - l)) (k := 1022 + l) (.inr ?_) ?_).trans ?_⟩
  · rw [whole]
    exact Nat.mul_le_mul_right _ low
  · rw [double]
    exact Nat.mul_le_mul_right _ high
  · rw [Nat.mul_assoc, ← twoTo_add, show 52 - l + (1022 + l) = 1074 by omega]

/-- Rounding is off by at most a half. -/
theorem roundHalfEven_spec (num : Nat) {den : Nat} (pos : 0 < den) :
    2 * (roundHalfEven num den * den) ≤ 2 * num + den ∧
      2 * num ≤ 2 * (roundHalfEven num den * den) + den := by
  have split := Nat.div_add_mod' num den
  have below := Nat.mod_lt num pos
  have next : (num / den + 1) * den = num / den * den + den := Nat.succ_mul _ _
  unfold roundHalfEven
  simp only
  split
  · omega
  · split
    · omega
    · split <;> omega

theorem roundHalfEven_bounds (num den : Nat) :
    num / den ≤ roundHalfEven num den ∧ roundHalfEven num den ≤ num / den + 1 := by
  unfold roundHalfEven
  simp only
  split
  · omega
  · split
    · omega
    · split <;> omega

/-- A half goes to the even neighbour. -/
theorem roundHalfEven_even {num den q : Nat} (pos : 0 < den) (half : 2 * num = (2 * q + 1) * den) :
    roundHalfEven num den % 2 = 0 := by
  have twice : (2 * q + 1) * den = 2 * (q * den) + den := by ring
  have next : (q + 1) * den = q * den + den := Nat.succ_mul _ _
  have quotient : num / den = q := Nat.div_eq_of_lt_le (by omega) (by omega)
  have split := Nat.div_add_mod' num den
  rw [quotient] at split
  unfold roundHalfEven
  simp only [quotient]
  split
  · omega
  · split
    · omega
    · split <;> omega

/-- A quotient of units and its rounding: a significand, and the power of two that it counts. -/
structure Rounded (units den r k : Nat) : Prop where
  low : k = 0 ∨ twoTo 52 ≤ r
  high : r ≤ twoTo 53
  lower : k = 0 ∨ twoTo 52 * twoTo k * den ≤ units
  upper : units < twoTo 53 * twoTo k * den
  above : 2 * (r * twoTo k * den) ≤ 2 * units + twoTo k * den
  below : 2 * units ≤ 2 * (r * twoTo k * den) + twoTo k * den
  half : ∀ q, 2 * units = (2 * q + 1) * twoTo k * den → r % 2 = 0

/-- The power of two that is counted leaves a quotient at most 53 bits. -/
theorem lt_of_log2 (units : Nat) {den : Nat} (pos : 0 < den) :
    units < twoTo 53 * twoTo (Nat.log2 (units / den) - 52) * den := by
  rw [← twoTo_add]
  refine (Nat.div_lt_iff_lt_mul pos).mp ?_
  by_cases zero : units / den = 0
  · rw [zero]
    exact twoTo_pos _
  · exact (Nat.log2_lt zero).mp (by omega)

/-- It leaves just 53 bits when it is not one. -/
theorem le_of_log2 (units : Nat) {den : Nat} (pos : 0 < den) :
    Nat.log2 (units / den) - 52 = 0 ∨
      twoTo 52 * twoTo (Nat.log2 (units / den) - 52) * den ≤ units := by
  by_cases few : Nat.log2 (units / den) - 52 = 0
  · exact .inl few
  · right
    have many : units / den ≠ 0 := by
      intro none
      rw [none] at few
      exact few rfl
    rw [← twoTo_add, show 52 + (Nat.log2 (units / den) - 52) = Nat.log2 (units / den) by omega]
    exact (Nat.le_div_iff_mul_le pos).mp (Nat.log2_self_le many)

theorem magnitudeNear_rounded (num : Nat) {den : Nat} (pos : 0 < den) :
    ∃ r k, magnitudeNear num den = r + k * twoTo 52 ∧ Rounded (num * twoTo 1074) den r k := by
  have upper := lt_of_log2 (num * twoTo 1074) pos
  have lower := le_of_log2 (num * twoTo 1074) pos
  rw [magnitudeNear]
  generalize num * twoTo 1074 = units at *
  generalize Nat.log2 (units / den) - 52 = k at *
  have stepPos : 0 < den * twoTo k := Nat.mul_pos pos (twoTo_pos k)
  have swap (n : Nat) : n * (den * twoTo k) = n * twoTo k * den := by ring
  have few : units / (den * twoTo k) < twoTo 53 :=
    (Nat.div_lt_iff_lt_mul stepPos).mpr (swap _ ▸ upper)
  obtain ⟨floor, ceiling⟩ := roundHalfEven_bounds units (den * twoTo k)
  obtain ⟨above, below⟩ := roundHalfEven_spec units stepPos
  have half : ∀ q, 2 * units = (2 * q + 1) * twoTo k * den →
      roundHalfEven units (den * twoTo k) % 2 = 0 := fun q tie =>
    roundHalfEven_even stepPos (tie.trans (swap _).symm)
  refine ⟨roundHalfEven units (den * twoTo k), k, rfl, ?_⟩
  generalize roundHalfEven units (den * twoTo k) = r at *
  rw [swap, Nat.mul_comm den] at above below
  refine ⟨lower.imp_right fun enough => ?_, by omega, lower, upper, above, below, half⟩
  exact ((Nat.le_div_iff_mul_le stepPos).mpr (swap _ ▸ enough)).trans floor

/-- A quotient is rounded down to a magnitude, or further, only if it is not beyond the middle
between that one and the next. -/
theorem le_midpoint_of_magnitudeNear_le {num den m : Nat} (pos : 0 < den)
    (h : magnitudeNear num den ≤ m) :
    2 * (num * twoTo 1074) ≤ (unitsOf m + unitsOf (m + 1)) * den := by
  obtain ⟨r, k, parts, low, high, -, upper, -, below, -⟩ := magnitudeNear_rounded num pos
  rw [parts] at h
  have here : r * twoTo k ≤ unitsOf m := by
    rw [← unitsOf_parts low high]
    exact unitsOf_strictMono.monotone h
  have next : unitsOf (r + k * twoTo 52 + 1) ≤ unitsOf (m + 1) :=
    unitsOf_strictMono.monotone (Nat.succ_le_succ h)
  have middle : 2 * (num * twoTo 1074) ≤ (r * twoTo k + unitsOf (r + k * twoTo 52 + 1)) * den := by
    rcases high.lt_or_eq with less | rfl
    · rw [unitsOf_succ low less, unitsOf_parts low high]
      calc 2 * (num * twoTo 1074) ≤ 2 * (r * twoTo k * den) + twoTo k * den := below
        _ = (r * twoTo k + (r * twoTo k + twoTo k)) * den := by ring
    · have beyond : twoTo 53 * twoTo k ≤ unitsOf (twoTo 53 + k * twoTo 52 + 1) := by
        rw [← unitsOf_parts low high]
        exact unitsOf_strictMono.monotone (Nat.le_succ _)
      have twice := Nat.mul_le_mul_right den beyond
      rw [Nat.add_mul]
      omega
  exact middle.trans (Nat.mul_le_mul_right den (Nat.add_le_add here next))

/-- A quotient is rounded to more than a magnitude only from the middle between that one and the
next on. -/
theorem midpoint_le_of_lt_magnitudeNear {num den m : Nat} (pos : 0 < den)
    (h : m < magnitudeNear num den) :
    (unitsOf m + unitsOf (m + 1)) * den ≤ 2 * (num * twoTo 1074) := by
  obtain ⟨r, k, parts, low, high, lower, -, above, -, -⟩ := magnitudeNear_rounded num pos
  rw [parts] at h
  have here : unitsOf (m + 1) ≤ r * twoTo k := by
    rw [← unitsOf_parts low high]
    exact unitsOf_strictMono.monotone h
  obtain ⟨before, same⟩ := Nat.exists_eq_add_one.mpr (Nat.zero_lt_of_lt h)
  have last : unitsOf m ≤ unitsOf before :=
    unitsOf_strictMono.monotone (by omega)
  have middle : (unitsOf before + r * twoTo k) * den ≤ 2 * (num * twoTo 1074) := by
    by_cases least : k ≠ 0 ∧ r = twoTo 52
    · obtain ⟨positive, rfl⟩ := least
      have enough := lower.resolve_left positive
      have less : unitsOf before ≤ twoTo 52 * twoTo k := by
        rw [← unitsOf_parts low high, same]
        exact unitsOf_strictMono.monotone (Nat.le_succ _)
      have twice := Nat.mul_le_mul_right den less
      rw [Nat.add_mul]
      omega
    · have some : r ≠ 0 := by
        rintro rfl
        have := twoTo_pos 52
        obtain rfl : k = 0 := low.resolve_right (by omega)
        omega
      obtain ⟨r, rfl⟩ := Nat.exists_eq_succ_of_ne_zero some
      have lowBefore : k = 0 ∨ twoTo 52 ≤ r := by omega
      have value : unitsOf before = r * twoTo k := by
        rw [← unitsOf_parts lowBefore (by omega)]
        congr 1
        omega
      rw [value]
      have whole : 2 * ((r + 1) * twoTo k * den) =
          (r * twoTo k + (r + 1) * twoTo k) * den + twoTo k * den := by ring
      rw [Nat.succ_eq_add_one] at above ⊢
      omega
  exact (Nat.mul_le_mul_right den (Nat.add_le_add last here)).trans middle

/-- A quotient in the middle between two neighbours is rounded to the even one. -/
theorem magnitudeNear_even {num den m : Nat} (pos : 0 < den)
    (beside : magnitudeNear num den = m ∨ magnitudeNear num den = m + 1)
    (middle : 2 * (num * twoTo 1074) = (unitsOf m + unitsOf (m + 1)) * den) :
    magnitudeNear num den % 2 = 0 := by
  obtain ⟨r, k, parts, low, high, -, -, -, -, half⟩ := magnitudeNear_rounded num pos
  have whole : k * twoTo 52 = 2 * (k * twoTo 51) := by
    rw [show twoTo 52 = 2 * twoTo 51 from rfl]
    ring
  rw [parts] at beside ⊢
  suffices even : r % 2 = 0 by omega
  rcases beside with rfl | above
  · rcases high.lt_or_eq with less | rfl
    · refine half r (middle.trans ?_)
      rw [unitsOf_succ low less, unitsOf_parts low high]
      ring
    · rfl
  · by_cases least : r = twoTo 52
    · rw [least]
      rfl
    · have some : 0 < r := by
        rcases low with rfl | large
        · omega
        · exact (twoTo_pos 52).trans_le large
      have lowBefore : k = 0 ∨ twoTo 52 ≤ r - 1 := by omega
      obtain rfl : m = r - 1 + k * twoTo 52 := by omega
      refine half (r - 1) (middle.trans ?_)
      rw [unitsOf_succ lowBefore (by omega), unitsOf_parts lowBefore (by omega)]
      ring

/-- The magnitude that a quotient is nearest to is the one it is rounded to. -/
theorem magnitudeNear_eq {num den m : Nat} (pos : 0 < den)
    (above : (unitsOf m + unitsOf (m + 1)) * den < 2 * (num * twoTo 1074))
    (below : 2 * (num * twoTo 1074) < (unitsOf (m + 1) + unitsOf (m + 2)) * den) :
    magnitudeNear num den = m + 1 := by
  refine Nat.le_antisymm ?_ ?_
  · by_contra more
    exact absurd (midpoint_le_of_lt_magnitudeNear pos (Nat.not_le.mp more)) (Nat.not_le.mpr below)
  · by_contra less
    exact absurd (le_midpoint_of_magnitudeNear_le pos (Nat.lt_succ_iff.mp (Nat.not_le.mp less)))
      (Nat.not_le.mpr above)

theorem magnitudeNear_le {num den m : Nat} (pos : 0 < den)
    (h : num * twoTo 1074 ≤ unitsOf m * den) : magnitudeNear num den ≤ m := by
  by_contra more
  have middle := midpoint_le_of_lt_magnitudeNear pos (Nat.not_le.mp more)
  have next := Nat.mul_lt_mul_of_pos_right (unitsOf_strictMono (Nat.lt_add_one m)) pos
  rw [Nat.add_mul] at middle
  omega

theorem le_magnitudeNear {num den m : Nat} (pos : 0 < den)
    (h : unitsOf m * den ≤ num * twoTo 1074) : m ≤ magnitudeNear num den := by
  by_contra less
  obtain ⟨before, rfl⟩ : ∃ before, m = before + 1 := ⟨m - 1, by omega⟩
  have middle := le_midpoint_of_magnitudeNear_le pos (Nat.lt_succ_iff.mp (Nat.not_le.mp less))
  have next := Nat.mul_lt_mul_of_pos_right (unitsOf_strictMono (Nat.lt_add_one before)) pos
  rw [Nat.add_mul] at middle
  omega

/-- The magnitudes of all finite numbers are below this one. -/
theorem unitsOf_infinite : unitsOf (2047 * twoTo 52) = twoTo 2098 := by
  have large := unitsOf_large (twoTo_pos 52) 2046
  rw [Nat.zero_add, Nat.zero_add] at large
  rw [show 2047 = 2046 + 1 from rfl, large, ← twoTo_add]

/-- Twice the middle between the greatest finite magnitude and the next one. -/
theorem unitsOf_greatest :
    unitsOf (2047 * twoTo 52 - 1) + unitsOf (2047 * twoTo 52 - 1 + 1) =
      2 * (twoTo 2098 - twoTo 2044) := by
  decide +kernel

/-- A quotient is rounded to a finite number exactly below the middle between the greatest one and
the next magnitude, which is the even one of the two. -/
theorem magnitudeNear_lt_iff {num den : Nat} (pos : 0 < den) :
    magnitudeNear num den < 2047 * twoTo 52 ↔
      num * twoTo 1074 < (twoTo 2098 - twoTo 2044) * den := by
  have greatest := unitsOf_greatest
  have odd : (2047 * twoTo 52 - 1) % 2 = 1 := by decide
  have next : 2047 * twoTo 52 = 2047 * twoTo 52 - 1 + 1 := by decide
  rw [next]
  generalize 2047 * twoTo 52 - 1 = m at *
  generalize twoTo 2098 - twoTo 2044 = middle at *
  have twice : (unitsOf m + unitsOf (m + 1)) * den = 2 * (middle * den) := by
    rw [greatest, Nat.mul_assoc]
  constructor
  · intro finite
    have below := le_midpoint_of_magnitudeNear_le pos (Nat.lt_succ_iff.mp finite)
    by_contra beyond
    have tie : 2 * (num * twoTo 1074) = (unitsOf m + unitsOf (m + 1)) * den := by omega
    have here : magnitudeNear num den = m := by
      refine Nat.le_antisymm (Nat.lt_succ_iff.mp finite) (le_magnitudeNear pos ?_)
      have order := Nat.mul_le_mul_right den (unitsOf_strictMono (Nat.lt_add_one m)).le
      rw [Nat.add_mul] at tie
      omega
    have even := magnitudeNear_even pos (.inl here) tie
    omega
  · intro small
    by_contra infinite
    have above := midpoint_le_of_lt_magnitudeNear pos (Nat.not_lt.mp infinite)
    omega

end Double

namespace Decimal

open Double

theorem digitCount_pos (n : Nat) : 0 < digitCount n :=
  Nat.length_toDigits_pos

theorem lt_tenTo_digitCount (n : Nat) : n < tenTo (digitCount n) :=
  (Nat.length_toDigits_le_iff (by decide) (digitCount_pos n)).mp (Nat.le_refl _)

theorem tenTo_le_of_digitCount {n k : Nat} (some : n ≠ 0) (h : k < digitCount n) :
    tenTo k ≤ n := by
  rcases Nat.eq_zero_or_pos k with rfl | pos
  · exact Nat.pos_of_ne_zero some
  · by_contra less
    exact absurd ((Nat.length_toDigits_le_iff (by decide) pos).mpr (Nat.not_le.mp less))
      (Nat.not_le.mpr h)

/-- The numerator of a numeral as a quotient. -/
def numerator (d : Decimal) : Nat :=
  d.digits * tenTo d.exponent.toNat

def denominator (d : Decimal) : Nat :=
  tenTo (-d.exponent).toNat

theorem tenTo_le {m n : Nat} (h : m ≤ n) : tenTo m ≤ tenTo n :=
  Nat.pow_le_pow_right (by decide) h

theorem denominator_pos (d : Decimal) : 0 < d.denominator :=
  tenTo_pos _

/-- A numeral with so many places before the point is beyond all doubles. -/
theorem ofRatio?_of_large {d : Decimal} (some : d.digits ≠ 0)
    (large : greatestPower < digitCount d.digits + d.exponent) :
    ofRatio? d.negative d.numerator d.denominator = none := by
  have leading : tenTo (digitCount d.digits - 1) ≤ d.digits :=
    tenTo_le_of_digitCount some (Nat.sub_lt (digitCount_pos _) Nat.one_pos)
  have places : 310 + (-d.exponent).toNat ≤ digitCount d.digits - 1 + d.exponent.toNat := by
    unfold greatestPower at large
    omega
  have beyond : tenTo 310 * d.denominator ≤ d.numerator := by
    calc tenTo 310 * d.denominator = tenTo (310 + (-d.exponent).toNat) := (tenTo_add _ _).symm
      _ ≤ tenTo (digitCount d.digits - 1 + d.exponent.toNat) := tenTo_le places
      _ = tenTo (digitCount d.digits - 1) * tenTo d.exponent.toNat := tenTo_add _ _
      _ ≤ d.numerator := Nat.mul_le_mul_right _ leading
  have infinite : 2047 * twoTo 52 ≤ magnitudeNear d.numerator d.denominator := by
    refine le_magnitudeNear d.denominator_pos ?_
    have range : twoTo 2098 ≤ tenTo 310 * twoTo 1074 := by decide +kernel
    calc unitsOf (2047 * twoTo 52) * d.denominator = twoTo 2098 * d.denominator := by
          rw [unitsOf_infinite]
      _ ≤ tenTo 310 * twoTo 1074 * d.denominator := Nat.mul_le_mul_right _ range
      _ = tenTo 310 * d.denominator * twoTo 1074 := by ring
      _ ≤ d.numerator * twoTo 1074 := Nat.mul_le_mul_right _ beyond
  rw [ofRatio?, ofMagnitude?, dif_neg (Nat.not_lt.mpr infinite)]

/-- A numeral with so many zeros behind the point is nearest to zero. -/
theorem ofRatio?_of_small {d : Decimal}
    (small : digitCount d.digits + d.exponent < leastPower) :
    ofRatio? d.negative d.numerator d.denominator = some (zero d.negative) := by
  have places : digitCount d.digits + 330 ≤ (-d.exponent).toNat ∧ d.exponent.toNat = 0 := by
    unfold leastPower at small
    omega
  have near : magnitudeNear d.numerator d.denominator ≤ 0 := by
    by_contra more
    have middle := midpoint_le_of_lt_magnitudeNear d.denominator_pos (Nat.not_le.mp more)
    have range : 2 * twoTo 1074 ≤ tenTo 330 := by decide +kernel
    have tiny : 2 * (d.numerator * twoTo 1074) < d.denominator := by
      rw [numerator, places.2]
      calc 2 * (d.digits * tenTo 0 * twoTo 1074) = d.digits * (2 * twoTo 1074) := by
            rw [show tenTo 0 = 1 from rfl]
            ring
        _ < tenTo (digitCount d.digits) * (2 * twoTo 1074) :=
            Nat.mul_lt_mul_of_pos_right (lt_tenTo_digitCount _)
              (Nat.mul_pos (by decide) (twoTo_pos _))
        _ ≤ tenTo (digitCount d.digits) * tenTo 330 := Nat.mul_le_mul_left _ range
        _ = tenTo (digitCount d.digits + 330) := (tenTo_add _ _).symm
        _ ≤ d.denominator := tenTo_le places.1
    have least : unitsOf 0 + unitsOf (0 + 1) = 1 := by decide +kernel
    rw [least, Nat.one_mul] at middle
    omega
  rw [ofRatio?, Nat.le_zero.mp near]
  rfl

/-- A numeral with too many places, or too few, is rounded no differently from any other one. -/
theorem toDouble?_eq (d : Decimal) :
    d.toDouble? = ofRatio? d.negative d.numerator d.denominator := by
  obtain ⟨negative, digits, exponent⟩ := d
  unfold toDouble?
  simp only
  have pos := denominator_pos ⟨negative, digits, exponent⟩
  split
  next zero =>
    subst zero
    have none : magnitudeNear 0 (denominator ⟨negative, 0, exponent⟩) ≤ 0 :=
      magnitudeNear_le pos (by simp)
    rw [ofRatio?, numerator, Nat.zero_mul, Nat.le_zero.mp none]
    rfl
  next some =>
  split
  next large => exact (ofRatio?_of_large (d := ⟨negative, digits, exponent⟩) some large).symm
  split
  next small => exact (ofRatio?_of_small (d := ⟨negative, digits, exponent⟩) small).symm
  split
  next whole =>
    have one : denominator ⟨negative, digits, exponent⟩ = 1 :=
      tenTo_toNat (by simpa using whole)
    rw [one]
    rfl
  next part =>
    rw [numerator, tenTo_toNat (show exponent ≤ 0 by omega), Nat.mul_one]
    rfl

end Decimal

end CompilerDriver

import CompilerDriver.ShortestDecimal
import CompilerDriver.Proofs.NearestDouble

namespace CompilerDriver

namespace Double

variable {magnitude digits : Nat} {exponent : Int}

theorem onGrid_eq (units : Nat) (exponent : Int) :
    onGrid units exponent =
      (units * tenTo (-exponent).toNat, twoTo 1074 * tenTo exponent.toNat) := by
  unfold onGrid
  split
  next whole =>
    rw [tenTo_toNat (show -exponent ≤ 0 by omega), Nat.mul_one]
  next part =>
    rw [tenTo_toNat (show exponent ≤ 0 by omega), Nat.mul_one]

theorem ofMagnitude?_of_lt (negative : Bool) (finite : magnitude < 2047 * twoTo 52) :
    ofMagnitude? negative magnitude = some ⟨negative, magnitude, finite⟩ :=
  dif_pos finite

/-- A numeral is read as the finite magnitude that it is nearest to, under its sign. -/
theorem toDouble?_of_near (negative : Bool) (finite : magnitude < 2047 * twoTo 52)
    (near : magnitudeNear (digits * tenTo exponent.toNat) (tenTo (-exponent).toNat) = magnitude) :
    Decimal.toDouble? ⟨negative, digits, exponent⟩ = some ⟨negative, magnitude, finite⟩ := by
  rw [Decimal.toDouble?_eq, ofRatio?, Decimal.numerator, Decimal.denominator, near]
  exact ofMagnitude?_of_lt negative finite

theorem magnitude_of_ofMagnitude? {negative : Bool} {x : Double}
    (h : ofMagnitude? negative magnitude = some x) : x.magnitude = magnitude := by
  unfold ofMagnitude? at h
  split at h
  · exact congrArg Double.magnitude (Option.some.inj h).symm
  · cases h

theorem magnitude_of_toDouble? {negative : Bool} {x : Double}
    (h : Decimal.toDouble? ⟨negative, digits, exponent⟩ = some x) :
    magnitudeNear (digits * tenTo exponent.toNat) (tenTo (-exponent).toNat) = x.magnitude := by
  rw [Decimal.toDouble?_eq, ofRatio?] at h
  exact (magnitude_of_ofMagnitude? h).symm

theorem readsBack_iff (finite : magnitude < 2047 * twoTo 52) :
    readsBack magnitude digits exponent = true ↔
      magnitudeNear (digits * tenTo exponent.toNat) (tenTo (-exponent).toNat) = magnitude := by
  unfold readsBack
  constructor
  · intro h
    split at h
    next y read => rw [magnitude_of_toDouble? read, beq_iff_eq.mp h]
    · cases h
  · intro near
    rw [toDouble?_of_near false finite near]
    exact beq_iff_eq.mpr rfl

/-- A numeral that reads back as the magnitude of a number is that number under its sign. -/
theorem toDouble?_of_readsBack {x : Double} (h : readsBack x.magnitude digits exponent = true) :
    Decimal.toDouble? ⟨x.negative, digits, exponent⟩ = some x :=
  toDouble?_of_near x.negative x.magnitude_lt ((readsBack_iff x.magnitude_lt).mp h)

/-- On a grid whose step is a small part of a number, the grid points next to the number read back
as it. -/
theorem readsBack_of_fine {before : Nat} (finite : before + 1 < 2047 * twoTo 52)
    (fine : tenTo 16 * (twoTo 1074 * tenTo exponent.toNat) ≤
      unitsOf (before + 1) * tenTo (-exponent).toNat)
    (above : 2 * (digits * (twoTo 1074 * tenTo exponent.toNat)) ≤
      2 * (unitsOf (before + 1) * tenTo (-exponent).toNat) + twoTo 1074 * tenTo exponent.toNat)
    (below : 2 * (unitsOf (before + 1) * tenTo (-exponent).toNat) ≤
      2 * (digits * (twoTo 1074 * tenTo exponent.toNat)) + twoTo 1074 * tenTo exponent.toNat) :
    readsBack (before + 1) digits exponent = true := by
  have stepPos : 0 < twoTo 1074 * tenTo exponent.toNat := Nat.mul_pos (twoTo_pos _) (tenTo_pos _)
  have same : digits * tenTo exponent.toNat * twoTo 1074 =
      digits * (twoTo 1074 * tenTo exponent.toNat) := by ring
  have gap (n : Nat) := Nat.mul_le_mul_right (tenTo (-exponent).toNat) (unitsOf_gap n)
  have denPos := tenTo_pos (-exponent).toNat
  have precise : twoTo 53 < tenTo 16 := by decide
  have small : twoTo 53 * (twoTo 1074 * tenTo exponent.toNat) <
      unitsOf (before + 1) * tenTo (-exponent).toNat :=
    (Nat.mul_lt_mul_of_pos_right precise stepPos).trans_le fine
  have wider := unitsOf_strictMono (Nat.lt_add_one (before + 1))
  have grown := Nat.mul_lt_mul_of_pos_right wider denPos
  have lower := gap before
  have upper := gap (before + 1)
  rw [Nat.add_mul, Nat.mul_assoc, Nat.mul_assoc] at lower upper
  apply (readsBack_iff finite).mpr
  generalize tenTo (-exponent).toNat = den at *
  generalize twoTo 1074 * tenTo exponent.toNat = step at *
  apply magnitudeNear_eq denPos
  · rw [same, Nat.add_mul]
    have less : twoTo 53 * (step + unitsOf before * den) <
        twoTo 53 * (unitsOf (before + 1) * den) := by
      rw [Nat.mul_add]
      omega
    have := Nat.lt_of_mul_lt_mul_left less
    omega
  · rw [same, Nat.add_mul]
    have less : twoTo 53 * (unitsOf (before + 1) * den + step) <
        twoTo 53 * (unitsOf (before + 1 + 1) * den) := by
      rw [Nat.mul_add]
      omega
    have := Nat.lt_of_mul_lt_mul_left less
    show _ < unitsOf (before + 1) * den + unitsOf (before + 1 + 1) * den
    omega

/-- One of the grid points around a number is within half a step of it. -/
theorem gridDigits?_of_fine {before : Nat} (finite : before + 1 < 2047 * twoTo 52)
    (fine : tenTo 16 * (twoTo 1074 * tenTo exponent.toNat) ≤
      unitsOf (before + 1) * tenTo (-exponent).toNat) (tie : Tie) :
    gridDigits? tie (before + 1) exponent ≠ none := by
  have stepPos : 0 < twoTo 1074 * tenTo exponent.toNat := Nat.mul_pos (twoTo_pos _) (tenTo_pos _)
  have reads (digits : Nat) : _ → _ → readsBack (before + 1) digits exponent = true :=
    readsBack_of_fine finite fine
  unfold gridDigits?
  rw [onGrid_eq]
  simp only
  generalize unitsOf (before + 1) * tenTo (-exponent).toNat = place at *
  generalize twoTo 1074 * tenTo exponent.toNat = step at *
  have split := Nat.div_add_mod' place step
  have below := Nat.mod_lt place stepPos
  have next : (place / step + 1) * step = place / step * step + step := Nat.succ_mul _ _
  have one : readsBack (before + 1) (place / step) exponent = true ∨
      readsBack (before + 1) (place / step + 1) exponent = true := by
    by_cases near : 2 * (place % step) ≤ step
    · exact .inl (reads _ (by omega) (by omega))
    · exact .inr (reads _ (by omega) (by omega))
  cases low : readsBack (before + 1) (place / step) exponent <;>
    cases high : readsBack (before + 1) (place / step + 1) exponent
  · rw [low, high] at one
    simp at one
  · simp
  · simp
  · simp only
    split
    · simp
    · split
      · simp
      · cases tie <;> simp

theorem gridDigits?_eq_some {tie : Tie} (h : gridDigits? tie magnitude exponent = some digits) :
    readsBack magnitude digits exponent = true ∧
      digits ≤ unitsOf magnitude * tenTo (-exponent).toNat /
        (twoTo 1074 * tenTo exponent.toNat) + 1 := by
  unfold gridDigits? at h
  rw [onGrid_eq] at h
  simp only at h
  generalize unitsOf magnitude * tenTo (-exponent).toNat /
    (twoTo 1074 * tenTo exponent.toNat) = low at *
  cases below : readsBack magnitude low exponent <;>
    cases above : readsBack magnitude (low + 1) exponent <;> rw [below, above] at h
  · cases h
  · obtain rfl := Option.some.inj h
    exact ⟨above, by omega⟩
  · obtain rfl := Option.some.inj h
    exact ⟨below, by omega⟩
  · have either : digits = low ∨ digits = low + 1 := by
      simp only at h
      split at h
      · exact .inl (Option.some.inj h).symm
      split at h
      · exact .inr (Option.some.inj h).symm
      cases tie
      · exact .inr (Option.some.inj h).symm
      · simp only [Option.some.injEq] at h
        split at h
        · exact .inl h.symm
        · exact .inr h.symm
    rcases either with rfl | rfl
    · exact ⟨below, by omega⟩
    · exact ⟨above, by omega⟩

theorem tenTo_place (a : Nat) (exponent : Int) :
    tenTo a * (twoTo 1074 * tenTo exponent.toNat) =
      tenTo (a + exponent.toNat) * twoTo 1074 := by
  rw [tenTo_add]
  ring

/-- A number is at least one tenth of the power of ten that its point position names. -/
theorem le_place_of_pointPosition {units : Nat} (pos : 0 < units) {a : Nat}
    (h : exponent + a < pointPosition units) :
    tenTo a * (twoTo 1074 * tenTo exponent.toNat) ≤ units * tenTo (-exponent).toNat := by
  rw [tenTo_place]
  unfold pointPosition at h
  simp only at h
  split at h
  next whole =>
    have leading : tenTo (Decimal.digitCount (units / twoTo 1074) - 1) ≤ units / twoTo 1074 :=
      Decimal.tenTo_le_of_digitCount whole (Nat.sub_lt (Decimal.digitCount_pos _) Nat.one_pos)
    generalize Decimal.digitCount (units / twoTo 1074) = count at *
    have bound := (Nat.le_div_iff_mul_le (twoTo_pos _)).mp leading
    calc tenTo (a + exponent.toNat) * twoTo 1074
        ≤ tenTo (count - 1 + (-exponent).toNat) * twoTo 1074 :=
          Nat.mul_le_mul_right _ (Decimal.tenTo_le (by omega))
      _ = tenTo (count - 1) * twoTo 1074 * tenTo (-exponent).toNat := by
          rw [tenTo_add]
          ring
      _ ≤ units * tenTo (-exponent).toNat := Nat.mul_le_mul_right _ bound
  next part =>
    have bound := (Nat.div_lt_iff_lt_mul pos).mp (Decimal.lt_tenTo_digitCount (twoTo 1074 / units))
    generalize Decimal.digitCount (twoTo 1074 / units) = count at *
    calc tenTo (a + exponent.toNat) * twoTo 1074
        ≤ tenTo (a + exponent.toNat) * (tenTo count * units) := Nat.mul_le_mul_left _ bound.le
      _ = tenTo (a + exponent.toNat + count) * units := by
          rw [tenTo_add _ count]
          ring
      _ ≤ tenTo (-exponent).toNat * units :=
          Nat.mul_le_mul_right _ (Decimal.tenTo_le (by omega))
      _ = units * tenTo (-exponent).toNat := Nat.mul_comm _ _

/-- A number is at most the power of ten that its point position names. -/
theorem place_le_of_pointPosition {units : Nat} (pos : 0 < units) {a : Nat}
    (h : pointPosition units ≤ exponent + a) :
    units * tenTo (-exponent).toNat ≤ tenTo a * (twoTo 1074 * tenTo exponent.toNat) := by
  rw [tenTo_place]
  unfold pointPosition at h
  simp only at h
  split at h
  next whole =>
    have bound :=
      (Nat.div_lt_iff_lt_mul (twoTo_pos _)).mp (Decimal.lt_tenTo_digitCount (units / twoTo 1074))
    generalize Decimal.digitCount (units / twoTo 1074) = count at *
    calc units * tenTo (-exponent).toNat
        ≤ tenTo count * twoTo 1074 * tenTo (-exponent).toNat := Nat.mul_le_mul_right _ bound.le
      _ = tenTo (count + (-exponent).toNat) * twoTo 1074 := by
          rw [tenTo_add]
          ring
      _ ≤ tenTo (a + exponent.toNat) * twoTo 1074 :=
          Nat.mul_le_mul_right _ (Decimal.tenTo_le (by omega))
  next part =>
    have few : units ≤ twoTo 1074 := by
      by_contra more
      exact part (Nat.div_ne_zero_iff.mpr ⟨(twoTo_pos _).ne', (Nat.not_le.mp more).le⟩)
    have leading : tenTo (Decimal.digitCount (twoTo 1074 / units) - 1) ≤ twoTo 1074 / units :=
      Decimal.tenTo_le_of_digitCount (Nat.div_ne_zero_iff.mpr ⟨pos.ne', few⟩)
        (Nat.sub_lt (Decimal.digitCount_pos _) Nat.one_pos)
    have some := Decimal.digitCount_pos (twoTo 1074 / units)
    generalize Decimal.digitCount (twoTo 1074 / units) = count at *
    have bound := (Nat.le_div_iff_mul_le pos).mp leading
    calc units * tenTo (-exponent).toNat
        ≤ units * tenTo (a + exponent.toNat + (count - 1)) :=
          Nat.mul_le_mul_left _ (Decimal.tenTo_le (by omega))
      _ = tenTo (a + exponent.toNat) * (tenTo (count - 1) * units) := by
          rw [tenTo_add]
          ring
      _ ≤ tenTo (a + exponent.toNat) * twoTo 1074 := Nat.mul_le_mul_left _ bound

/-- The search stops at the first grid on which a point reads back. -/
theorem searchGrids_of_found {tie : Tie} {tries n : Nat} (enough : n < tries)
    (found : gridDigits? tie magnitude (exponent - n) ≠ none) :
    ∃ j digits, j ≤ n ∧ gridDigits? tie magnitude (exponent - j) = some digits ∧
      searchGrids tie magnitude exponent tries = (digits, exponent - j) := by
  induction tries generalizing exponent n with
  | zero => cases enough
  | succ tries ih =>
    rw [searchGrids]
    cases here : gridDigits? tie magnitude exponent with
    | some digits => exact ⟨0, digits, Nat.zero_le n, by simpa using here, by simp⟩
    | none =>
      cases n with
      | zero => exact absurd (by simpa using here) found
      | succ n =>
        have place (j : Nat) : exponent - 1 - (j : Int) = exponent - (j + 1 : Nat) := by omega
        have later : gridDigits? tie magnitude (exponent - 1 - (n : Int)) ≠ none := by
          rwa [place]
        obtain ⟨j, digits, le, grid, search⟩ := ih (by omega) later
        rw [place] at grid search
        exact ⟨j + 1, digits, by omega, grid, search⟩

/-- Seventeen digits, or a power of ten, are enough for every number. -/
theorem shortest_found (tie : Tie) {x : Double} (h : x.magnitude ≠ 0) :
    ∃ digits exponent, x.shortest tie = ⟨x.negative, digits, exponent⟩ ∧
      readsBack x.magnitude digits exponent = true ∧
      digits ≤ x.units * tenTo (-exponent).toNat / (twoTo 1074 * tenTo exponent.toNat) + 1 ∧
      digits ≤ tenTo 17 + 1 := by
  obtain ⟨before, same⟩ := Nat.exists_eq_succ_of_ne_zero h
  have pos : 0 < x.units := by
    rw [units, same]
    exact Nat.zero_lt_of_lt (unitsOf_strictMono (Nat.lt_add_one before))
  have fine := le_place_of_pointPosition pos
    (show pointPosition x.units - 17 + (16 : Nat) < pointPosition x.units by omega)
  have finite := x.magnitude_lt
  rw [same] at finite
  have found : gridDigits? tie x.magnitude (pointPosition x.units - (17 : Nat)) ≠ none := by
    rw [same]
    rw [units, same] at fine
    exact gridDigits?_of_fine finite (by rw [units, same]; exact fine) tie
  obtain ⟨j, digits, few, grid, search⟩ := searchGrids_of_found (show 17 < 18 by decide) found
  obtain ⟨reads, bound⟩ := gridDigits?_eq_some grid
  refine ⟨digits, pointPosition x.units - j, ?_, reads, bound, bound.trans ?_⟩
  · rw [shortest, if_neg h]
    simp only [search]
  · have coarse := place_le_of_pointPosition pos
      (show pointPosition x.units ≤ pointPosition x.units - j + (17 : Nat) by omega)
    exact Nat.add_le_add_right
      (Nat.div_le_of_le_mul (coarse.trans_eq (Nat.mul_comm _ _))) 1

/-- The shortest numeral of a number is read as that number. -/
theorem toDouble?_shortest (tie : Tie) (x : Double) : (x.shortest tie).toDouble? = some x := by
  by_cases zero : x.magnitude = 0
  · rw [shortest, if_pos zero]
    obtain ⟨negative, magnitude, finite⟩ := x
    obtain rfl : magnitude = 0 := zero
    rfl
  · obtain ⟨digits, exponent, short, reads, _⟩ := shortest_found tie zero
    rw [short]
    exact toDouble?_of_readsBack reads

end Double

end CompilerDriver

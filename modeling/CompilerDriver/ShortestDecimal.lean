import CompilerDriver.Decimal

namespace CompilerDriver

/-- Which of two equally near numerals is taken. -/
inductive Tie where
  | up
  | even
deriving DecidableEq

namespace Double

/-- How many digits the number has before the point; for a number below one, zero or less, by
the zeros that follow the point. -/
def pointPosition (units : Nat) : Int :=
  let whole := units / twoTo 1074
  if whole ≠ 0 then Decimal.digitCount whole
  else 1 - (Decimal.digitCount (twoTo 1074 / units) : Int)

/-- The numeral `digits · 10 ^ exponent` reads back as the magnitude. -/
def readsBack (magnitude digits : Nat) (exponent : Int) : Bool :=
  match Decimal.toDouble? ⟨false, digits, exponent⟩ with
  | some y => y.magnitude == magnitude
  | none => false

/-- A number of units against the grid of `10 ^ exponent`: the multiples of the grid's step are
those of `step`, and the number is `at`. -/
def onGrid (units : Nat) (exponent : Int) : Nat × Nat :=
  if 0 ≤ exponent then (units, twoTo 1074 * tenTo exponent.toNat)
  else (units * tenTo (-exponent).toNat, twoTo 1074)

/-- Of the two grid points around the number those that read back, and of two the nearer. -/
def gridDigits? (tie : Tie) (magnitude : Nat) (exponent : Int) : Option Nat :=
  let (place, step) := onGrid (unitsOf magnitude) exponent
  let low := place / step
  let excess := 2 * (place % step)
  match readsBack magnitude low exponent, readsBack magnitude (low + 1) exponent with
  | true, false => some low
  | false, true => some (low + 1)
  | false, false => none
  | true, true =>
    if excess < step then some low
    else if step < excess then some (low + 1)
    else match tie with
      | .up => some (low + 1)
      | .even => some (if low % 2 = 0 then low else low + 1)

/-- Tries grids of finer and finer step; the last resort writes the number out in full. -/
def searchGrids (tie : Tie) (magnitude : Nat) (exponent : Int) : Nat → Nat × Int
  | 0 => (unitsOf magnitude * Nat.pow 5 1074, -1074)
  | tries + 1 =>
    match gridDigits? tie magnitude exponent with
    | some digits => (digits, exponent)
    | none => searchGrids tie magnitude (exponent - 1) tries

/-- The numeral with the fewest digits that reads back as the number, the nearest of those.
Seventeen digits always do. -/
def shortest (tie : Tie) (x : Double) : Decimal :=
  if x.magnitude = 0 then ⟨x.negative, 0, 0⟩
  else
    let (digits, exponent) :=
      searchGrids tie x.magnitude (pointPosition x.units) 18
    ⟨x.negative, digits, exponent⟩

end Double

end CompilerDriver

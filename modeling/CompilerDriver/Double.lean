import CompilerDriver.Power

namespace CompilerDriver

/-- A finite binary64 number. Its magnitude counts the doubles between it and zero, so it is the
63 bits below the sign. -/
structure Double where
  negative : Bool
  magnitude : Nat
  magnitude_lt : magnitude < 2047 * twoTo 52
deriving DecidableEq

namespace Double

/-- The bit pattern of the number, read as an integer. -/
def bits (x : Double) : Nat :=
  (if x.negative then twoTo 63 else 0) + x.magnitude

/-- A magnitude as a multiple of `2 ^ -1074`, the least positive double. -/
def unitsOf (magnitude : Nat) : Nat :=
  let e := magnitude / twoTo 52
  let f := magnitude % twoTo 52
  if e = 0 then f else (f + twoTo 52) * twoTo (e - 1)

def units (x : Double) : Nat :=
  unitsOf x.magnitude

/-- A quotient rounded to the nearest natural number, a half to the even neighbour. -/
def roundHalfEven (num den : Nat) : Nat :=
  let q := num / den
  let r := num % den
  if 2 * r < den then q
  else if den < 2 * r then q + 1
  else if q % 2 = 0 then q else q + 1

/-- The magnitude nearest to `num / den`, as if the exponents had no upper end. -/
def magnitudeNear (num den : Nat) : Nat :=
  let scaled := num * twoTo 1074
  let k := Nat.log2 (scaled / den) - 52
  roundHalfEven scaled (den * twoTo k) + k * twoTo 52

/-- The double with this sign and magnitude, unless it is not finite. -/
def ofMagnitude? (negative : Bool) (magnitude : Nat) : Option Double :=
  if h : magnitude < 2047 * twoTo 52 then some ⟨negative, magnitude, h⟩ else none

/-- The double nearest to a quotient, a half going to the even significand; absent beyond the
largest double. -/
def ofRatio? (negative : Bool) (num den : Nat) : Option Double :=
  ofMagnitude? negative (magnitudeNear num den)

def zero (negative : Bool) : Double :=
  ⟨negative, 0, by decide⟩

def ofNat? (n : Nat) : Option Double :=
  ofRatio? false n 1

/-- The sum of the magnitudes, rounded. -/
def add? (x y : Double) : Option Double :=
  ofRatio? false (x.units + y.units) (twoTo 1074)

/-- The product without its sign, rounded. -/
def mul? (x y : Double) : Option Double :=
  ofRatio? false (x.units * y.units) (twoTo 2148)

/-- The quotient without its sign, rounded. -/
def div? (x y : Double) : Option Double :=
  ofRatio? false x.units y.units

def withSign (x : Double) (negative : Bool) : Double :=
  { x with negative }

end Double

end CompilerDriver

import CompilerDriver.Double

namespace CompilerDriver

namespace StepwiseDecimal

/-- The greatest power of ten that is a double. -/
def greatestPower : Nat := 308

/-- The double nearest to a power of ten. -/
def powerOfTen? (n : Nat) : Option Double :=
  Double.ofNat? (tenTo n)

def divideByPower (x : Double) (power : Nat) : Option Double :=
  (powerOfTen? power).bind x.div?

/-- Divides by the greatest power so many times, then by the last one, rounding after each step
and stopping at zero. -/
def shrink (last : Nat) : Nat → Double → Option Double
  | 0, x => divideByPower x last
  | full + 1, x =>
    if x.magnitude = 0 then some x
    else (divideByPower x greatestPower).bind (shrink last full)

/-- Multiplies or divides the rounded significand by rounded powers of ten. The result may be
off the nearest double in its last places; it is absent when a product is too large. -/
def toDouble? (significand : Nat) (exponent : Int) : Option Double :=
  (Double.ofNat? significand).bind fun x =>
    if exponent < 0 then
      let power := exponent.natAbs - 1
      shrink (power % greatestPower + 1) (power / greatestPower) x
    else if exponent ≤ greatestPower then (powerOfTen? exponent.toNat).bind x.mul?
    else if x.magnitude = 0 then some x
    else none

end StepwiseDecimal

end CompilerDriver

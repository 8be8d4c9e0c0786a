import CompilerDriver.Double

namespace CompilerDriver

/-- A decimal numeral `± digits · 10 ^ exponent`. -/
structure Decimal where
  negative : Bool
  digits : Nat
  exponent : Int
deriving DecidableEq

namespace Decimal

def digitValue (c : Char) : Nat :=
  c.toNat - 48

/-- The number that a row of digits writes. -/
def digitsValue (digits : List Char) : Nat :=
  digits.foldl (fun n c => n * 10 + digitValue c) 0

/-- The count of digits of a number, one for zero. -/
def digitCount (n : Nat) : Nat :=
  (Nat.toDigits 10 n).length

/-- Beyond these powers of ten every numeral is too large, or nearer to zero than to the least
positive double. -/
def greatestPower : Int := 310

def leastPower : Int := -330

/-- The nearest double, a half going to the even significand. -/
def toDouble? (d : Decimal) : Option Double :=
  let top := (digitCount d.digits : Int) + d.exponent
  if d.digits = 0 then some (Double.zero d.negative)
  else if greatestPower < top then none
  else if top < leastPower then some (Double.zero d.negative)
  else if 0 ≤ d.exponent then
    Double.ofRatio? d.negative (d.digits * tenTo d.exponent.toNat) 1
  else
    Double.ofRatio? d.negative d.digits (tenTo (-d.exponent).toNat)

/-- Takes a leading sign off. -/
def takeSign : List Char → Bool × List Char
  | '-' :: rest => (true, rest)
  | '+' :: rest => (false, rest)
  | rest => (false, rest)

def takeDigits (cs : List Char) : List Char × List Char :=
  (cs.takeWhile Char.isDigit, cs.dropWhile Char.isDigit)

/-- The digits behind a point, if there is one. -/
def takeFraction : List Char → List Char × List Char
  | '.' :: rest => takeDigits rest
  | rest => ([], rest)

/-- Digits of an exponent count as long as the number before them is below this one; from there on
they are passed over. -/
def exponentLimit : Nat := 65536

def exponentValue (digits : List Char) : Nat :=
  digits.foldl (fun n c => if n < exponentLimit then n * 10 + digitValue c else n) 0

/-- What follows the digits: nothing, or a complete exponent. -/
def readExponent : List Char → Option Int
  | [] => some 0
  | c :: rest =>
    if c = 'e' ∨ c = 'E' then
      let (negative, rest) := takeSign rest
      if rest.isEmpty || !rest.all Char.isDigit then none
      else
        let n : Int := exponentValue rest
        some (if negative then -n else n)
    else none

/-- Reads an optional sign, digits with an optional point (at least one digit in all) and an
optional exponent, and nothing else. -/
def ofChars? (cs : List Char) : Option Decimal :=
  let (negative, rest) := takeSign cs
  let (whole, rest) := takeDigits rest
  let (fraction, rest) := takeFraction rest
  if whole.isEmpty && fraction.isEmpty then none
  else (readExponent rest).map fun exponent =>
    ⟨negative, digitsValue (whole ++ fraction), exponent - fraction.length⟩

def ofString? (text : String) : Option Decimal :=
  ofChars? text.toList

end Decimal

/-- The finite double that a text writes. -/
def Double.ofString? (text : String) : Option Double :=
  (Decimal.ofString? text).bind Decimal.toDouble?

end CompilerDriver

import CompilerDriver.ShortestDecimal

namespace CompilerDriver

namespace NumberText

def zeros (n : Nat) : List Char :=
  List.replicate n '0'

def digitsOf (n : Nat) : List Char :=
  Nat.toDigits 10 n

/-- Digits with the point behind the first `k` of them. -/
def pointAfter (k : Nat) (digits : List Char) : List Char :=
  digits.take k ++ '.' :: digits.drop k

/-- The shortest digits in positional notation, whatever the exponent. -/
def positional (digits : List Char) (exponent : Int) : List Char :=
  let k := (digits.length : Int) + exponent
  if 0 ≤ exponent then digits ++ zeros exponent.toNat
  else if 0 < k then pointAfter k.toNat digits
  else '0' :: '.' :: (zeros (-k).toNat ++ digits)

/-- The shortest digits with an exponent part that always has a sign. -/
def scientific (digits : List Char) (exponent : Int) : List Char :=
  let e := (digits.length : Int) + exponent - 1
  let mantissa := match digits with
    | [] => []
    | [d] => [d]
    | d :: rest => d :: '.' :: rest
  mantissa ++ 'e' :: (if e < 0 then '-' else '+') :: digitsOf e.natAbs

def signed (negative : Bool) (text : List Char) : String :=
  String.ofList (if negative then '-' :: text else text)

/-- Documents write a number positionally, with at least one decimal, from `10 ^ -5` up to
`10 ^ 16`, and scientifically outside. -/
def documentForm (digits : List Char) (exponent : Int) : List Char :=
  let k := (digits.length : Int) + exponent
  if -5 < k ∧ k ≤ 16 then
    if 0 ≤ exponent then positional digits exponent ++ ['.', '0'] else positional digits exponent
  else scientific digits exponent

end NumberText

open NumberText in
/-- The number as the compiler's command line takes it: never an exponent. -/
def Double.text (x : Double) : String :=
  let d := x.shortest .up
  signed d.negative (if d.digits = 0 then ['0'] else positional (digitsOf d.digits) d.exponent)

open NumberText in
/-- The number as a document holds it: always recognisable as a fraction. -/
def Double.documentText (x : Double) : String :=
  let d := x.shortest .even
  signed d.negative
    (if d.digits = 0 then ['0', '.', '0'] else documentForm (digitsOf d.digits) d.exponent)

end CompilerDriver

import CompilerDriver.Utf8

namespace CompilerDriver

namespace Base64

/-- The digit of a number below 64. -/
def digit (n : Nat) : Char :=
  if n < 26 then Char.ofNat (65 + n)
  else if n < 52 then Char.ofNat (97 + (n - 26))
  else if n < 62 then Char.ofNat (48 + (n - 52))
  else if n = 62 then '+'
  else '/'

/-- Three octets as four digits. -/
def group (a b c : UInt8) : List Char :=
  let n := a.toNat * 65536 + b.toNat * 256 + c.toNat
  [digit (n / 262144), digit (n / 4096 % 64), digit (n / 64 % 64), digit (n % 64)]

def encodeOnto (found : List Char) : Bytes → List Char
  | [] => found.reverse
  | [a] => found.reverse ++ (group a 0 0).take 2 ++ ['=', '=']
  | [a, b] => found.reverse ++ (group a b 0).take 3 ++ ['=']
  | a :: b :: c :: rest => encodeOnto ((group a b c).reverse ++ found) rest

/-- The digits of a sequence of octets, filled up with `=` to a multiple of four. -/
def encode (bytes : Bytes) : List Char :=
  encodeOnto [] bytes

end Base64

end CompilerDriver

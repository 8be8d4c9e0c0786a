import CompilerDriver.Hidden
import CompilerDriver.Utf8

namespace CompilerDriver

namespace Quoted

/-- The number of a character in place of the character. -/
def codePoint (c : Char) : String :=
  "\\u\x7b" ++ String.ofList (Nat.toDigits 16 c.toNat) ++ "\x7d"

/-- A character inside double quotes. -/
def char (c : Char) : String :=
  if c = '\x00' then "\\0"
  else if c = '\t' then "\\t"
  else if c = '\r' then "\\r"
  else if c = '\n' then "\\n"
  else if c = '\x22' then "\\\x22"
  else if c = '\x5c' then "\\\\"
  else if isHidden c then codePoint c
  else c.toString

/-- Text between double quotes, with escapes for all that could be misread on a log line. -/
def text (s : String) : String :=
  "\x22" ++ String.join (s.toList.map char) ++ "\x22"

def octet (b : UInt8) : String :=
  "\\x" ++ String.ofList
    [(Nat.digitChar (b.toNat / 16)).toUpper, (Nat.digitChar (b.toNat % 16)).toUpper]

/-- In a path octets that are no text are shown one by one. -/
def pathPiece : Utf8.Piece → String
  | .char c => char c
  | .broken octets _ => String.join (octets.map octet)

def path (p : Bytes) : String :=
  "\x22" ++ String.join ((Utf8.pieces p).map pathPiece) ++ "\x22"

end Quoted

end CompilerDriver

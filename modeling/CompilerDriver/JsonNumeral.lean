import CompilerDriver.JsonReader
import CompilerDriver.StepwiseDecimal

namespace CompilerDriver

namespace JsonNumeral

/-- The greatest significand that is kept while the digits are read. -/
def greatestSignificand : Nat := twoTo 64 - 1

def greatestExponent : Nat := twoTo 31 - 1

def digitOf (b : UInt8) : Nat :=
  b.toNat - 48

/-- Appends digits to a number while it stays within the limit, and counts them. -/
def absorb (limit : Nat) (n count : Nat) : Bytes → Nat × Nat × Bytes
  | [] => (n, count, [])
  | b :: rest =>
    if isDigit b && n * 10 + digitOf b ≤ limit then
      absorb limit (n * 10 + digitOf b) (count + 1) rest
    else (n, count, b :: rest)

/-- Passes over digits and counts them. -/
def skipDigits (count : Nat) : Bytes → Nat × Bytes
  | [] => (count, [])
  | b :: rest => if isDigit b then skipDigits (count + 1) rest else (count, b :: rest)

def startsWithDigit (bytes : Bytes) : Bool :=
  bytes.head?.any isDigit

/-- The number with all its parts known. -/
def finish (negative : Bool) (significand : Nat) (exponent : Int) : JsonReader JsonNumber :=
  fun rest =>
    match StepwiseDecimal.toDouble? significand exponent with
    | none => .error (.fixed .numberOutOfRange rest)
    | some x => .ok (.fraction (x.withSign negative), rest)

/-- The digits of an exponent, the first of which is given. An exponent that is too long makes
zero, or a number out of range. -/
def exponentDigits (negative : Bool) (significand : Nat) (start : Int) (down : Bool)
    (first : Nat) : JsonReader JsonNumber := fun bytes =>
  let (e, _, rest) := absorb greatestExponent first 0 bytes
  if startsWithDigit rest then
    if significand ≠ 0 && !down then .error (.fixed .numberOutOfRange rest.tail)
    else .ok (.fraction (Double.zero negative), (skipDigits 0 rest).2)
  else finish negative significand (if down then start - e else start + e) rest

def exponentSign : Bytes → Bool × Bytes
  | [] => (false, [])
  | b :: rest =>
    if b = ascii '-' then (true, rest)
    else if b = ascii '+' then (false, rest)
    else (false, b :: rest)

/-- An exponent behind its letter. -/
def exponent (negative : Bool) (significand : Nat) (start : Int) : JsonReader JsonNumber :=
  fun bytes =>
    let (down, rest) := exponentSign bytes
    match rest with
    | [] => .error (.fixed .endOfValue [])
    | b :: rest =>
      if isDigit b then exponentDigits negative significand start down (digitOf b) rest
      else .error (.fixed .invalidNumber rest)

/-- What may follow the digits of a number that is no integer. -/
def afterDigits (negative : Bool) (significand : Nat) (power : Int) : JsonReader JsonNumber
  | [] => finish negative significand power []
  | b :: rest =>
    if b = ascii 'e' || b = ascii 'E' then exponent negative significand power rest
    else finish negative significand power (b :: rest)

/-- The digits behind a point. Those that no longer fit the significand are dropped. -/
def decimals (negative : Bool) (significand : Nat) (power : Int) : JsonReader JsonNumber :=
  fun bytes =>
    let (n, count, rest) := absorb greatestSignificand significand 0 bytes
    if startsWithDigit rest then afterDigits negative n (power - count) (skipDigits 0 rest).2
    else if count = 0 then
      .error (.fixed (if rest.isEmpty then .endOfValue else .invalidNumber) rest.tail)
    else afterDigits negative n (power - count) rest

/-- A number without point and exponent. Minus zero, and what 64 bits do not hold, are doubles. -/
def whole (negative : Bool) (n : Nat) : JsonReader JsonNumber := fun rest =>
  if !negative then .ok (.integer n, rest)
  else if n ≠ 0 ∧ n ≤ twoTo 63 then .ok (.integer (-n), rest)
  else finish negative n 0 rest

/-- What follows the integer digits of a number. -/
def afterWhole (negative : Bool) (n : Nat) : JsonReader JsonNumber
  | [] => whole negative n []
  | b :: rest =>
    if b = ascii '.' then decimals negative n 0 rest
    else if b = ascii 'e' || b = ascii 'E' then exponent negative n 0 rest
    else whole negative n (b :: rest)

/-- What follows integer digits that are too many for the significand. -/
def afterLongWhole (negative : Bool) (n : Nat) (power : Int) : JsonReader JsonNumber
  | [] => finish negative n power []
  | b :: rest =>
    if b = ascii '.' then decimals negative n power rest
    else afterDigits negative n power (b :: rest)

/-- A number behind its sign. -/
def unsigned (negative : Bool) : JsonReader JsonNumber
  | [] => .error (.fixed .endOfValue [])
  | b :: rest =>
    if b = ascii '0' then
      if startsWithDigit rest then .error (.fixed .invalidNumber rest.tail)
      else afterWhole negative 0 rest
    else if isDigit b then
      let (n, _, rest) := absorb greatestSignificand (digitOf b) 0 rest
      if startsWithDigit rest then
        let (dropped, rest) := skipDigits 0 rest
        afterLongWhole negative n dropped rest
      else afterWhole negative n rest
    else .error (.fixed .invalidNumber rest)

/-- Whether a number begins with this octet. -/
def starts (b : UInt8) : Bool :=
  b == ascii '-' || isDigit b

/-- A number that begins with the next octet. -/
def signed : JsonReader JsonNumber
  | [] => .error (.fixed .endOfValue [])
  | b :: rest => if b = ascii '-' then unsigned true rest else unsigned false (b :: rest)

/-- Passes over an exponent behind its letter. -/
def skipExponent : JsonReader Unit := fun bytes =>
  match (exponentSign bytes).2 with
  | [] => .error (.fixed .invalidNumber [])
  | b :: rest =>
    if isDigit b then .ok ((), (skipDigits 0 rest).2) else .error (.fixed .invalidNumber rest)

def skipAfterDecimals : JsonReader Unit
  | [] => .ok ((), [])
  | b :: rest =>
    if b = ascii 'e' || b = ascii 'E' then skipExponent rest else .ok ((), b :: rest)

def skipAfterWhole : JsonReader Unit
  | [] => .ok ((), [])
  | b :: rest =>
    if b = ascii '.' then
      let (count, rest) := skipDigits 0 rest
      if count = 0 then .error (.fixed .invalidNumber rest.tail) else skipAfterDecimals rest
    else skipAfterDecimals (b :: rest)

def skipUnsigned : JsonReader Unit
  | [] => .error (.fixed .invalidNumber [])
  | b :: rest =>
    if b = ascii '0' then
      if startsWithDigit rest then .error (.fixed .invalidNumber rest.tail)
      else skipAfterWhole rest
    else if isDigit b then skipAfterWhole (skipDigits 0 rest).2
    else .error (.fixed .invalidNumber rest)

/-- Passes over a number of any size. -/
def skip : JsonReader Unit
  | [] => .error (.fixed .invalidNumber [])
  | b :: rest => if b = ascii '-' then skipUnsigned rest else skipUnsigned (b :: rest)

end JsonNumeral

end CompilerDriver

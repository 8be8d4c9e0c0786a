import CompilerDriver.JsonSkip

namespace CompilerDriver

namespace JsonGrammar

open JsonSkip (Frame)

variable {α : Type}

/-- White space between the parts of a value. -/
def Gap (text : List Char) : Prop :=
  ∀ c ∈ text, c = ' ' ∨ c = '\t' ∨ c = '\n' ∨ c = '\r'

/-- A hexadecimal digit of either case. -/
inductive HexDigit : Nat → Char → Prop
  | lower {n : Nat} (h : n < 16) : HexDigit n (Nat.digitChar n)
  | upper {n : Nat} (h : n < 16) : HexDigit n (Nat.digitChar n).toUpper

/-- Four hexadecimal digits. -/
inductive CodeUnit : Nat → List Char → Prop
  | digits {w x y z : Nat} {a b c d : Char} (ha : HexDigit w a) (hb : HexDigit x b)
      (hc : HexDigit y c) (hd : HexDigit z d) :
      CodeUnit (w * 4096 + x * 256 + y * 16 + z) [a, b, c, d]

/-- The characters that a backslash and one more character may stand for. -/
def shortEscapes : List (Char × Char) :=
  [('\x22', '\x22'), ('\\', '\\'), ('/', '/'), ('b', '\x08'), ('f', '\x0c'), ('n', '\n'),
    ('r', '\r'), ('t', '\t')]

/-- The ways to write one character of a string. -/
inductive Letter : Char → List Char → Prop
  | plain {c : Char} (control : 0x20 ≤ c.toNat) (quote : c ≠ '\x22') (backslash : c ≠ '\\') :
      Letter c [c]
  | short {c name : Char} (h : (name, c) ∈ shortEscapes) : Letter c ['\\', name]
  | unit {c : Char} {digits : List Char} (h : CodeUnit c.toNat digits) :
      Letter c ('\\' :: 'u' :: digits)
  | pair {c : Char} {high low : Nat} {first second : List Char} (hf : CodeUnit high first)
      (hs : CodeUnit low second) (hh : 0xD800 ≤ high ∧ high ≤ 0xDBFF)
      (hl : 0xDC00 ≤ low ∧ low ≤ 0xDFFF)
      (value : c.toNat = (high - 0xD800) * 0x400 + (low - 0xDC00) + 0x10000) :
      Letter c ('\\' :: 'u' :: (first ++ '\\' :: 'u' :: second))

/-- The inside of a string. -/
inductive Letters : List Char → List Char → Prop
  | nil : Letters [] []
  | cons {c : Char} {cs text more : List Char} (head : Letter c text) (tail : Letters cs more) :
      Letters (c :: cs) (text ++ more)

inductive Quoted : String → List Char → Prop
  | quoted {s : String} {inside : List Char} (h : Letters s.toList inside) :
      Quoted s ('\x22' :: (inside ++ ['\x22']))

/-- What may stand between the quotes of a string. The code units of its escapes need not make up
characters, as they must where the string is to be read. -/
inductive Inside : List Char → Prop
  | nil : Inside []
  | plain {c : Char} {more : List Char} (control : 0x20 ≤ c.toNat) (quote : c ≠ '\x22')
      (backslash : c ≠ '\\') (tail : Inside more) : Inside (c :: more)
  | short {name c : Char} {more : List Char} (h : (name, c) ∈ shortEscapes)
      (tail : Inside more) : Inside ('\\' :: name :: more)
  | unit {n : Nat} {digits more : List Char} (h : CodeUnit n digits) (tail : Inside more) :
      Inside ('\\' :: 'u' :: (digits ++ more))

/-- Decimal digits; only zero begins with one. -/
inductive Digits : Nat → List Char → Prop
  | zero : Digits 0 ['0']
  | positive {c : Char} {more : List Char} (lead : c.isDigit = true) (nonzero : c ≠ '0')
      (h : ∀ d ∈ more, d.isDigit = true) :
      Digits (Nat.ofDigitChars 10 (c :: more) 0) (c :: more)

/-- An integer. Zero has no sign: with one it is a double to the reader, see
`JsonReader.integer_refuses_minus_zero`. -/
inductive Integer : Int → List Char → Prop
  | natural {n : Nat} {text : List Char} (h : Digits n text) : Integer n text
  | negative {n : Nat} {text : List Char} (h : Digits n text) (nonzero : n ≠ 0) :
      Integer (-n) ('-' :: text)

/-- A value of a type, or the word that says that there is none. -/
inductive Nullable (spells : α → List Char → Prop) : Option α → List Char → Prop
  | null : Nullable spells none ['n', 'u', 'l', 'l']
  | value {a : α} {text : List Char} (h : spells a text) : Nullable spells (some a) text

/-- What separates an item or a member from those before it. -/
def separator (first : Bool) : List Char :=
  if first then [] else [',']

/-- The inside of a container from some item on, up to the bracket that closes it. -/
inductive Items (spells : α → List Char → Prop) : Bool → List α → List Char → Prop
  | nil {first : Bool} {gap : List Char} (h : Gap gap) : Items spells first [] gap
  | cons {first : Bool} {a : α} {as : List α} {before after text more : List Char}
      (hb : Gap before) (ha : Gap after) (head : spells a text)
      (tail : Items spells false as more) :
      Items spells first (a :: as) (before ++ separator first ++ after ++ text ++ more)

/-- A list. -/
inductive Listed (spells : α → List Char → Prop) : List α → List Char → Prop
  | list {as : List α} {inside : List Char} (h : Items spells true as inside) :
      Listed spells as ('[' :: (inside ++ [']']))

/-- A key with its colon. -/
inductive Label : String → List Char → Prop
  | label {key : String} {quoted before : List Char} (hk : Quoted key quoted) (hb : Gap before) :
      Label key (quoted ++ before ++ [':'])

/-- The decimals of a number, if it has any. -/
inductive Fraction : List Char → Prop
  | none : Fraction []
  | some {digits : List Char} (nonempty : digits ≠ []) (h : ∀ d ∈ digits, d.isDigit = true) :
      Fraction ('.' :: digits)

inductive Exponent : List Char → Prop
  | none : Exponent []
  | some {letter : Char} {sign digits : List Char} (hl : letter = 'e' ∨ letter = 'E')
      (hs : sign = [] ∨ sign = ['-'] ∨ sign = ['+']) (nonempty : digits ≠ [])
      (h : ∀ d ∈ digits, d.isDigit = true) : Exponent (letter :: (sign ++ digits))

/-- A number, an integer or not. -/
inductive Numeral : List Char → Prop
  | positive {n : Nat} {whole fraction exponent : List Char} (hw : Digits n whole)
      (hf : Fraction fraction) (he : Exponent exponent) : Numeral (whole ++ fraction ++ exponent)
  | negative {n : Nat} {whole fraction exponent : List Char} (hw : Digits n whole)
      (hf : Fraction fraction) (he : Exponent exponent) :
      Numeral ('-' :: (whole ++ fraction ++ exponent))

inductive Scalar : List Char → Prop
  | null : Scalar ['n', 'u', 'l', 'l']
  | true : Scalar ['t', 'r', 'u', 'e']
  | false : Scalar ['f', 'a', 'l', 's', 'e']
  | string {s : String} {text : List Char} (h : Quoted s text) : Scalar text
  | number {text : List Char} (h : Numeral text) : Scalar text

/-- A value, or the inside of a container from some item or member on. -/
inductive Part where
  | value
  | inside (frame : Frame) (first : Bool)

def opening : Frame → Char
  | .list => '['
  | .object => '\x7b'

def closing : Frame → Char
  | .list => ']'
  | .object => '\x7d'

/-- What precedes a value in a container. -/
inductive Prelude : Frame → List Char → Prop
  | list : Prelude .list []
  | object {key : String} {label after : List Char} (hl : Label key label) (ha : Gap after) :
      Prelude .object (label ++ after)

/-- The texts of values of any shape and depth. -/
inductive WellFormed : Part → List Char → Prop
  | scalar {text : List Char} (h : Scalar text) : WellFormed .value text
  | container {frame : Frame} {inside : List Char} (h : WellFormed (.inside frame true) inside) :
      WellFormed .value (opening frame :: (inside ++ [closing frame]))
  | nil {frame : Frame} {first : Bool} {gap : List Char} (h : Gap gap) :
      WellFormed (.inside frame first) gap
  | cons {frame : Frame} {first : Bool} {before after lead text more : List Char}
      (hb : Gap before) (ha : Gap after) (hl : Prelude frame lead) (head : WellFormed .value text)
      (tail : WellFormed (.inside frame false) more) :
      WellFormed (.inside frame first) (before ++ separator first ++ after ++ lead ++ text ++ more)

/-- A member of an object, of which only the key and the text of the value are known. -/
inductive Member : String × List Char → List Char → Prop
  | member {key : String} {label after text : List Char} (hl : Label key label) (ha : Gap after)
      (value : WellFormed .value text) : Member (key, text) (label ++ after ++ text)

inductive Object : List (String × List Char) → List Char → Prop
  | object {members : List (String × List Char)} {inside : List Char}
      (h : Items Member true members inside) : Object members ('\x7b' :: (inside ++ ['\x7d']))

end JsonGrammar

end CompilerDriver

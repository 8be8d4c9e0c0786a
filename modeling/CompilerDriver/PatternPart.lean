import CompilerDriver.Hexadecimal
import CompilerDriver.PatternMode

namespace CompilerDriver

/-- The smallest parts of a pattern. An octet is a character that two hexadecimal digits write; a
family is one of digits, blanks or letters of words, or what is outside of it. -/
inductive PatternPart where
  | any
  | literal (c : Char)
  | octet (c : Char)
  | family (negated : Bool)
  | wordEdge
  | edge
deriving DecidableEq

namespace PatternPart

/-- No tables of characters are at hand, so characters have neither cases nor families, and words
have no edges. Octets have all of these, but no part may match one that is no character. -/
def standsAlone (mode : PatternMode) : PatternPart → Bool
  | any => mode.characters
  | literal _ => !(mode.characters && mode.anyCase)
  | octet c => if mode.characters then !mode.anyCase else c.toNat < 0x80
  | family negated => !mode.characters && !negated
  | wordEdge => !mode.characters
  | edge => true

/-- Whether the part may stand between brackets, where octets are meant one by one. -/
def standsInBracket (mode : PatternMode) : PatternPart → Bool
  | literal c => if mode.characters then !mode.anyCase else c.toNat < 0x80
  | octet c => if mode.characters then !mode.anyCase else c.toNat < 0x80
  | family negated => !mode.characters && !negated
  | _ => false

/-- The character that the part stands for. -/
def char? : PatternPart → Option Char
  | literal c => some c
  | octet c => some c
  | _ => none

/-- The number that so many more digits write behind another number. -/
def hexNumber? (mode : PatternMode) : Nat → Nat → List Char → Option (Nat × List Char)
  | 0, n, cs => some (n, cs)
  | _, _, [] => none
  | count + 1, n, c :: rest =>
    (hexValue? c.toNat).bind fun digit => hexNumber? mode count (n * 16 + digit) (mode.skip rest)

/-- The character whose number so many digits write. -/
def hexChar? (mode : PatternMode) (count : Nat) (cs : List Char) : Option (Char × List Char) :=
  (hexNumber? mode count 0 (mode.skip cs)).bind fun (n, rest) =>
    if n.isValidChar then some (Char.ofNat n, rest) else none

/-- The characters that a letter behind a backslash writes. -/
def letterNames : List (Char × Char) :=
  [('a', '\x07'), ('f', '\x0c'), ('t', '\t'), ('n', '\n'), ('r', '\x0d'), ('v', '\x0b')]

/-- The part that stands behind a backslash. Properties of characters are not offered. -/
def escaped? (mode : PatternMode) : List Char → Option (PatternPart × List Char)
  | [] => none
  | c :: rest =>
    if c = 'x' then (hexChar? mode 2 rest).map fun (c, rest) => (octet c, rest)
    else if c = 'u' then (hexChar? mode 4 rest).map fun (c, rest) => (literal c, rest)
    else if c = 'U' then (hexChar? mode 8 rest).map fun (c, rest) => (literal c, rest)
    else if ['d', 's', 'w'].contains c then some (family false, rest)
    else if ['D', 'S', 'W'].contains c then some (family true, rest)
    else if ['b', 'B', '<', '>'].contains c then some (wordEdge, rest)
    else if c = 'A' ∨ c = 'z' then some (edge, rest)
    else
      match letterNames.lookup c with
      | some meant => some (literal meant, rest)
      | none => if c.toNat < 0x80 ∧ !c.isAlphanum then some (literal c, rest) else none

end PatternPart

end CompilerDriver

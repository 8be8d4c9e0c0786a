import CompilerDriver.PatternPart

namespace CompilerDriver

/-- How deeply a row of parts is nested, from how deeply each of them is. A part that is alone is
no row. -/
def rowDepth : List Nat → Nat
  | [] => 0
  | [depth] => depth
  | depths => depths.foldl max 0 + 1

/-- A bracket that is being read: how deeply the items behind its last operator are nested, and
what stands before that operator. -/
structure PatternBracket where
  items : List Nat
  left : Option Nat
deriving DecidableEq

namespace PatternBracket

def blank : PatternBracket :=
  ⟨[], none⟩

def add (bracket : PatternBracket) (depth : Nat) : PatternBracket :=
  { bracket with items := depth :: bracket.items }

/-- How deeply the content of the bracket is nested. -/
def contentDepth (bracket : PatternBracket) : Nat :=
  match bracket.left with
  | none => rowDepth bracket.items
  | some left => max left (rowDepth bracket.items) + 1

/-- How deeply the bracket itself is nested. -/
def depth (bracket : PatternBracket) : Nat :=
  bracket.contentDepth + 1

def familyNames : List (List Char) :=
  ["alnum", "alpha", "ascii", "blank", "cntrl", "digit", "graph", "lower", "print", "punct",
    "space", "upper", "word", "xdigit"].map String.toList

/-- Whether a family that is given by its name is negated, and the rest behind it. -/
def namedFamily? : List Char → Option (Bool × List Char)
  | ':' :: rest =>
    let negated := rest.head? = some '^'
    let rest := if negated then rest.tail else rest
    let name := rest.takeWhile (· ≠ ':')
    match rest.drop name.length with
    | ':' :: ']' :: rest => if familyNames.contains name then some (negated, rest) else none
    | _ => none
  | _ => none

/-- Whether such a family may be meant. -/
def offersNamed (mode : PatternMode) (negated : Bool) : Bool :=
  if mode.characters then !mode.anyCase else !negated

/-- The rest behind the start of a bracket. All but some octets would be no characters. -/
def start? (mode : PatternMode) (cs : List Char) : Option (List Char) :=
  match mode.skip cs with
  | '^' :: rest => if mode.characters then some rest else none
  | rest => some rest

def part? (mode : PatternMode) : List Char → Option (PatternPart × List Char)
  | [] => none
  | c :: rest => if c = '\\' then PatternPart.escaped? mode rest else some (.literal c, rest)

/-- The rest behind a part that stands for itself, or behind a range. A dash before a dash or
before the end of the bracket makes no range. -/
def item? (mode : PatternMode) (cs : List Char) : Option (List Char) := do
  let (low, rest) ← part? mode cs
  if low.standsInBracket mode then
    match mode.skip rest with
    | '-' :: behind =>
      if mode.peek? behind = some ']' ∨ mode.peek? behind = some '-' then some ('-' :: behind)
      else
        let (high, rest) ← part? mode (mode.skip behind)
        if high.standsInBracket mode ∧ (← low.char?) ≤ (← high.char?) then some rest else none
    | rest => some rest
  else none

/-- Reads a bracket to its end, inside other brackets: how deeply it is nested, and the rest behind
it. The flag tells whether dashes and a first closing bracket still stand for themselves; the
number bounds the items. -/
def read? (mode : PatternMode) :
    Nat → Bool → PatternBracket → List PatternBracket → List Char → Option (Nat × List Char)
  | 0, _, _, _, _ => none
  | fuel + 1, leads, bracket, outer, cs =>
    match mode.skip cs with
    | [] => none
    | c :: rest =>
      if leads && (c == '-' || (c == ']' && bracket.items.isEmpty)) then
        if (PatternPart.literal c).standsInBracket mode then
          read? mode fuel (c == '-') (bracket.add 0) outer rest
        else none
      else if c = '[' then
        match namedFamily? rest with
        | some (negated, rest) =>
          if offersNamed mode negated then read? mode fuel false (bracket.add 0) outer rest
          else none
        | none =>
          (start? mode rest).bind fun rest => read? mode fuel true blank (bracket :: outer) rest
      else if c = ']' then
        match outer with
        | [] => some (bracket.depth, rest)
        | next :: outer => read? mode fuel false (next.add bracket.depth) outer rest
      else if ['&', '-', '~'].contains c && rest.head? = some c then
        read? mode fuel false ⟨[], some bracket.contentDepth⟩ outer rest.tail
      else
        (item? mode (c :: rest)).bind fun rest =>
          read? mode fuel false (bracket.add 0) outer rest

/-- How deeply a bracket that has been opened is nested, and the rest behind it. -/
def ofChars? (mode : PatternMode) (cs : List Char) : Option (Nat × List Char) :=
  (start? mode cs).bind (read? mode (cs.length + 1) true blank [])

end PatternBracket

end CompilerDriver

import CompilerDriver.Blank

namespace CompilerDriver

/-- How a pattern is read from some place on: whether letters stand for both cases, whether it is
about characters and not about octets, and whether blanks and comments in it are passed over. -/
structure PatternMode where
  anyCase : Bool
  characters : Bool
  spaced : Bool
deriving DecidableEq

namespace PatternMode

/-- The mode at the beginning of a pattern. -/
def usual : PatternMode :=
  ⟨false, true, false⟩

/-- The rest behind blanks and comments; the flag tells whether a comment is being passed over. A
comment goes from a number sign to the end of its line. -/
def afterSpace (inComment : Bool) : List Char → List Char
  | [] => []
  | c :: rest =>
    if inComment then afterSpace (c != '\n') rest
    else if isBlank c then afterSpace false rest
    else if c = '#' then afterSpace true rest
    else c :: rest

/-- The rest behind what the mode passes over. -/
def skip (mode : PatternMode) (cs : List Char) : List Char :=
  if mode.spaced then afterSpace false cs else cs

/-- The next character behind blanks and a number sign, if the mode passes over these. What the
comment says is not passed over. -/
def peek? (mode : PatternMode) (cs : List Char) : Option Char :=
  if mode.spaced then
    match cs.dropWhile isBlank with
    | '#' :: rest => (rest.dropWhile isBlank).head?
    | rest => rest.head?
  else cs.head?

/-- Flags are distinct letters with at most one dash, which is not the last of them. -/
def areFlags (flags : List Char) : Bool :=
  flags.all (fun c => ['i', 'm', 's', 'U', 'u', 'x', 'R', '-'].contains c) && flags.Nodup &&
    flags.getLast? != some '-'

/-- What flags say about one of them: those before the dash are on, those behind it off. -/
def flag? (flags : List Char) (letter : Char) : Option Bool :=
  if (flags.takeWhile (· ≠ '-')).contains letter then some true
  else if flags.contains letter then some false
  else none

/-- The mode with flags put over it. -/
def withFlags (mode : PatternMode) (flags : List Char) : PatternMode where
  anyCase := (flag? flags 'i').getD mode.anyCase
  characters := (flag? flags 'u').getD mode.characters
  spaced := (flag? flags 'x').getD mode.spaced

end PatternMode

end CompilerDriver

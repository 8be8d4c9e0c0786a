import CompilerDriver.Alphanumeric
import CompilerDriver.Decimal
import CompilerDriver.PatternBracket

namespace CompilerDriver

/-- A group of a pattern that is being read, or what is outside of all groups: how deeply the parts
of its last branch are nested, the last part first, and how deeply its other branches are. A change
of the mode is a part that nothing is known of. -/
structure PatternGroup where
  mode : PatternMode
  parts : List (Option Nat)
  branches : List Nat

namespace PatternGroup

def opening (mode : PatternMode) : PatternGroup :=
  ⟨mode, [], []⟩

def add (group : PatternGroup) (depth : Nat) : PatternGroup :=
  { group with parts := some depth :: group.parts }

/-- The group with its mode changed from here on. -/
def change (group : PatternGroup) (flags : List Char) : PatternGroup :=
  { group with mode := group.mode.withFlags flags, parts := none :: group.parts }

def branchDepth (group : PatternGroup) : Nat :=
  rowDepth (group.parts.map (·.getD 0))

/-- The group with a new branch begun. -/
def branch (group : PatternGroup) : PatternGroup :=
  { group with parts := [], branches := group.branchDepth :: group.branches }

/-- The group with its last part repeated. -/
def repeatLast? (group : PatternGroup) : Option PatternGroup :=
  match group.parts with
  | some depth :: parts => some { group with parts := some (depth + 1) :: parts }
  | _ => none

/-- How deeply the content of the group is nested. -/
def contentDepth (group : PatternGroup) : Nat :=
  rowDepth (group.branchDepth :: group.branches)

def isNameStart (c : Char) : Bool :=
  c == '_' || isAlphabetic c

def isNamePart (c : Char) : Bool :=
  c == '_' || c == '.' || c == '[' || c == ']' || isAlphanumeric c

/-- A name, and the rest behind its closing sign. -/
def name? (cs : List Char) : Option (List Char × List Char) :=
  let name := cs.takeWhile (· ≠ '>')
  match name, cs.drop name.length with
  | c :: more, _ :: rest =>
    if isNameStart c && more.all isNamePart then some (name, rest) else none
  | _, _ => none

end PatternGroup

/-- A pattern that is being read: the group it is in, the groups around that, and the names that
groups have. -/
structure PatternDraft where
  group : PatternGroup
  outer : List PatternGroup
  names : List (List Char)

namespace PatternDraft

def blank : PatternDraft :=
  ⟨.opening .usual, [], []⟩

def add (draft : PatternDraft) (depth : Nat) : PatternDraft :=
  { draft with group := draft.group.add depth }

/-- The draft with a group begun. -/
def enter (draft : PatternDraft) (mode : PatternMode) : PatternDraft :=
  { draft with group := .opening mode, outer := draft.group :: draft.outer }

/-- The draft with its group ended. -/
def leave? (draft : PatternDraft) : Option PatternDraft :=
  match draft.outer with
  | [] => none
  | next :: outer => some { draft with group := next.add (draft.group.contentDepth + 1), outer }

/-- The draft with a group begun that has a name of its own. -/
def enterNamed? (draft : PatternDraft) (cs : List Char) : Option (PatternDraft × List Char) :=
  (PatternGroup.name? cs).bind fun (name, rest) =>
    if draft.names.contains name then none
    else some ({ draft with names := name :: draft.names }.enter draft.group.mode, rest)

/-- Reads what stands behind the opening of a group: a name, or flags, which are for the group or,
if they close it, for what follows. -/
def enter? (draft : PatternDraft) : List Char → Option (PatternDraft × List Char)
  | '?' :: 'P' :: '<' :: rest => draft.enterNamed? rest
  | '?' :: '<' :: rest => draft.enterNamed? rest
  | '?' :: rest =>
    let flags := rest.takeWhile fun c => c ≠ ':' ∧ c ≠ ')'
    if PatternMode.areFlags flags then
      match rest.drop flags.length with
      | ':' :: rest => some (draft.enter (draft.group.mode.withFlags flags), rest)
      | ')' :: rest =>
        if flags.isEmpty then none
        else some ({ draft with group := draft.group.change flags }, rest)
      | _ => none
    else none
  | rest => some (draft.enter draft.group.mode, rest)

/-- Reads what a character begins. A count of repetitions cannot be written: its brace would end
the field. -/
def step? (draft : PatternDraft) (c : Char) (rest : List Char) :
    Option (PatternDraft × List Char) :=
  let mode := draft.group.mode
  let part (read : PatternPart × List Char) : Option (PatternDraft × List Char) :=
    if read.1.standsAlone mode then some (draft.add 0, read.2) else none
  if c = '(' then draft.enter? (mode.skip rest)
  else if c = ')' then draft.leave?.map (·, rest)
  else if c = '|' then some ({ draft with group := draft.group.branch }, rest)
  else if c = '[' then
    (PatternBracket.ofChars? mode rest).map fun (depth, rest) => (draft.add depth, rest)
  else if c = '*' ∨ c = '+' ∨ c = '?' then
    draft.group.repeatLast?.map fun group =>
      ({ draft with group }, if rest.head? = some '?' then rest.tail else rest)
  else if c = '\x7b' then none
  else if c = '\\' then (PatternPart.escaped? mode rest).bind part
  else if c = '.' then part (.any, rest)
  else if c = '^' ∨ c = '$' then part (.edge, rest)
  else part (.literal c, rest)

/-- How deeply a pattern is nested when its rest has been read; the number bounds the parts. -/
def depth? : Nat → PatternDraft → List Char → Option Nat
  | 0, _, _ => none
  | fuel + 1, draft, cs =>
    match draft.group.mode.skip cs with
    | [] => if draft.outer.isEmpty then some draft.group.contentDepth else none
    | c :: rest => (draft.step? c rest).bind fun (draft, rest) => depth? fuel draft rest

end PatternDraft

namespace FieldPattern

/-- A pattern may not be nested more deeply. -/
def depthLimit : Nat := 250

/-- Whether a text is a pattern. -/
def isPattern (cs : List Char) : Bool :=
  match PatternDraft.blank.depth? (cs.length + 1) cs with
  | some depth => depth ≤ depthLimit
  | none => false

def numberNames : List (List Char) :=
  ["inf", "infinity", "nan"].map String.toList

/-- Whether the characters write a number with a plus. All other numbers are patterns too. -/
def isPlusNumber : List Char → Bool
  | '+' :: rest =>
    numberNames.contains (rest.map Char.toLower) || (Decimal.ofChars? ('+' :: rest)).isSome
  | _ => false

/-- Whether a field may be asked to match a text: a number, or a pattern. -/
def isValid (text : String) : Bool :=
  isPlusNumber text.toList || isPattern text.toList

end FieldPattern

end CompilerDriver

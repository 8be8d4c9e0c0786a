import CompilerDriver.Blank
import CompilerDriver.FieldPattern
import CompilerDriver.LogEvent

namespace CompilerDriver

namespace LogLevel

/-- Weightier events have a smaller number. -/
def weight : LogLevel → Nat
  | error => 1
  | warn => 2
  | info => 3
  | debug => 4
  | trace => 5

def lower (text : String) : List Char :=
  text.toList.map Char.toLower

def weightNames : List (String × Nat) :=
  [("off", 0), ("error", 1), ("warn", 2), ("info", 3), ("debug", 4), ("trace", 5)]

/-- A level by its name, in any case, or by its number. -/
def weight? (text : String) : Option Nat :=
  match weightNames.find? fun entry => entry.1.toList = lower text with
  | some (_, weight) => some weight
  | none =>
    let digits := match text.toList with
      | '+' :: rest => rest
      | all => all
    if digits.isEmpty || !digits.all Char.isDigit then none
    else
      let n := digits.foldl (fun n c => n * 10 + (c.toNat - 48)) 0
      if n ≤ 5 then some n else none

end LogLevel

/-- What a rule asks of a field: that it is there, and that its value matches a pattern if there
is one. -/
structure FieldRule where
  name : String
  pattern : Option String
deriving DecidableEq

/-- A name, or a name and a pattern behind an equals sign. -/
def FieldRule.ofString? (text : String) : Option FieldRule :=
  match text.splitOn "=" with
  | [] => none
  | [name] => some ⟨name, none⟩
  | name :: pattern :: _ => if FieldPattern.isValid pattern then some ⟨name, pattern⟩ else none

/-- One rule of a filter. It is for targets that start like its own and for events inside a span,
if it names these, and for events with certain fields; of them, events up to this weight pass. -/
structure LogRule where
  target : Option String
  span : Option String
  fields : List FieldRule
  weight : Nat
deriving DecidableEq

namespace LogRule

/-- The part of a rule that is being read, with the place where it began. -/
inductive Part where
  | start
  | word (first : Nat)
  | span (first : Nat)
  | field (first : Nat)
  | fields
  | scope
  | level (first : Nat)

/-- A rule with the part that is being read. -/
structure Draft where
  rule : LogRule
  part : Part

def Draft.blank : Draft :=
  ⟨⟨none, none, [], LogLevel.trace.weight⟩, .start⟩

/-- The octets between two places. -/
def slice (source : Bytes) (first last : Nat) : String :=
  Utf8.decodeLossy ((source.take last).drop first)

def startsWord (c : Char) : Bool :=
  c == '-' || c == ':' || c == '_' || isAlphanumeric c

/-- Reads the character at a place. -/
def step (source : Bytes) (draft : Draft) (place : Nat) (c : Char) : Option Draft :=
  let rule := draft.rule
  match draft.part with
  | .start =>
    if c = '[' then some ⟨rule, .span (place + 1)⟩
    else if startsWord c then some ⟨rule, .word place⟩
    else none
  | .word first =>
    if c = '=' then some ⟨{ rule with target := slice source first place }, .level (place + 1)⟩
    else if c = '[' then
      some ⟨{ rule with target := slice source first place }, .span (place + 1)⟩
    else some draft
  | .span first =>
    if c = ']' then some ⟨{ rule with span := slice source first place }, .scope⟩
    else if c = '\x7b' then
      let name := slice source first place
      some ⟨{ rule with span := if name = "" then none else some name }, .field (place + 1)⟩
    else some draft
  | .field first =>
    if c = '\x7d' then
      let text := slice source first place
      if text = "" then none
      else (FieldRule.ofString? text).map fun field =>
        ⟨{ rule with fields := rule.fields ++ [field] }, .fields⟩
    else some draft
  | .fields => if c = ']' then some ⟨rule, .scope⟩ else none
  | .scope => if c = '=' then some ⟨rule, .level (place + 1)⟩ else none
  | .level _ => some draft

/-- Reads characters, the first of which is at a place. -/
def steps (source : Bytes) (draft : Draft) (place : Nat) : List Char → Option Draft
  | [] => some draft
  | c :: rest =>
    (step source draft place c).bind fun draft => steps source draft (place + c.utf8Size) rest

/-- The rule of a draft that nothing is added to. A word alone is a level if it can be one, and a
target without a level lets everything pass. -/
def finish (source : Bytes) (draft : Draft) : Option LogRule :=
  let rest (first : Nat) : String := slice source first source.length
  match draft.part with
  | .word first =>
    match LogLevel.weight? (rest first) with
    | some weight => some { draft.rule with weight }
    | none => some { draft.rule with target := rest first }
  | .level first =>
    if rest first = "" then some draft.rule
    else (LogLevel.weight? (rest first)).map fun weight => { draft.rule with weight }
  | .scope => some draft.rule
  | _ => none

/-- Reads a rule. Blanks around it are passed over, but places still count from its beginning. -/
def ofString? (text : String) : Option LogRule :=
  let source := Utf8.encode text
  (steps source .blank 0 (Blank.trim text).toList).bind (finish source)

/-- The only field of an event. -/
def messageField : String := "message"

/-- Whether the rule is for events of a target. There are no spans around them, and values are
looked for in spans only. -/
def applies (rule : LogRule) (target : String) : Bool :=
  rule.span.isNone &&
    rule.fields.all (fun field => field.name == messageField && field.pattern.isNone) &&
    match rule.target with
    | none => true
    | some start => start.toList.isPrefixOf target.toList

/-- A rule for a longer target goes before one for a shorter target. -/
def length (rule : LogRule) : Nat :=
  match rule.target with
  | none => 0
  | some target => target.length + 1

/-- Whether another rule goes before this one: by its target, then by its fields, then because it
comes later. -/
def yieldsTo (rule later : LogRule) : Bool :=
  rule.length < later.length ||
    (rule.length == later.length && rule.fields.length ≤ later.fields.length)

end LogRule

/-- The rules of a log. -/
abbrev LogFilter := List LogRule

namespace LogFilter

/-- The filter that lets events of a level and weightier ones pass. -/
def upTo (level : LogLevel) : LogFilter :=
  [⟨none, none, [], level.weight⟩]

/-- The filter when none is asked for. -/
def usual : LogFilter :=
  upTo .debug

/-- The filter of a list with commas. An empty list lets errors pass; a list that cannot be read
counts as none. -/
def ofString (text : String) : LogFilter :=
  let words := (text.splitOn ",").filter (· ≠ "")
  if words.isEmpty then upTo .error else (words.mapM LogRule.ofString?).getD usual

def ofEnvironment : Option Bytes → LogFilter
  | none => usual
  | some value =>
    match Utf8.decode value with
    | .ok text => ofString text
    | .error _ => usual

/-- Whether an event passes: of the rules that are for it, the one before which no other goes
decides. -/
def passes (filter : LogFilter) (event : LogEvent) : Bool :=
  let chosen := filter.foldl (fun (best : Option LogRule) rule =>
    if rule.applies event.component.target then
      match best with
      | none => some rule
      | some other => if other.yieldsTo rule then some rule else some other
    else best) none
  match chosen with
  | some rule => event.level.weight ≤ rule.weight
  | none => false

end LogFilter

end CompilerDriver

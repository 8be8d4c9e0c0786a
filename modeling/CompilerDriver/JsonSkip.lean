import CompilerDriver.JsonNumeral
import CompilerDriver.JsonString

namespace CompilerDriver

namespace JsonSkip

/-- A container that has been entered and not left. -/
inductive Frame where
  | list
  | object
deriving DecidableEq

def Frame.opening : Frame → UInt8
  | list => ascii '['
  | object => ascii '\x7b'

def Frame.closing : Frame → UInt8
  | list => ascii ']'
  | object => ascii '\x7d'

def Frame.cut : Frame → JsonCause
  | list => .endOfList
  | object => .endOfObject

def Frame.expectedComma : Frame → JsonCause
  | list => .expectedCommaInList
  | object => .expectedCommaInObject

def Frame.ofOpening? (b : UInt8) : Option Frame :=
  if b = Frame.list.opening then some .list
  else if b = Frame.object.opening then some .object
  else none

open JsonReader

def scalar : JsonReader Unit := do
  match ← peek with
  | none => failNext .endOfValue
  | some b =>
    if b = ascii 'n' then nullWord
    else if b = ascii 't' then trueWord
    else if b = ascii 'f' then falseWord
    else if b = ascii '\x22' then
      take
      JsonString.skip
    else if JsonNumeral.starts b then JsonNumeral.skip
    else failNext .expectedValue

/-- Leaves the containers that end behind a value, up to one that goes on with a comma. -/
def leave : List Frame → JsonReader (List Frame)
  | [] => pure []
  | frame :: outer => do
    match ← peek with
    | none => failNext frame.cut
    | some b =>
      if b = ascii ',' then
        take
        return frame :: outer
      else if b = frame.closing then
        take
        leave outer
      else failNext frame.expectedComma

/-- Enters a container, or leaves it at once when it is empty. -/
def enter (frame : Frame) (outer : List Frame) : JsonReader (List Frame) := do
  take
  match ← peek with
  | none => failNext frame.cut
  | some b =>
    if b = frame.closing then
      take
      leave outer
    else return frame :: outer

/-- The key that precedes a value in an object. -/
def key : JsonReader Unit := do
  match ← peek with
  | none => failNext .endOfObject
  | some b =>
    if b = ascii '\x22' then
      take
      JsonString.skip
      colon
    else failNext .keyMustBeString

/-- One value or one container's opening, with all the ends that follow it. -/
def step (frames : List Frame) : JsonReader (List Frame) := do
  match ← peek with
  | none => failNext .endOfValue
  | some b =>
    match Frame.ofOpening? b with
    | some frame => enter frame frames
    | none =>
      scalar
      leave frames

/-- Steps until no container is open; the count of octets left bounds their number. -/
def run : Nat → List Frame → JsonReader Unit
  | 0, _ => pure ()
  | fuel + 1, frames => do
    match ← step frames with
    | [] => return ()
    | .list :: outer => run fuel (.list :: outer)
    | .object :: outer =>
      key
      run fuel (.object :: outer)

/-- Passes over a value of any depth and checks only its form. -/
def value : JsonReader Unit := do
  run ((← get).length + 1) []

end JsonSkip

end CompilerDriver

import CompilerDriver.Utf8

namespace CompilerDriver

/-- Which part of a terminal's control sequence an octet stands in. -/
inductive ControlState where
  | text
  | escape
  | escapeRest
  | control
  | device
  | deviceNumbers
  | deviceRest
  | string
  | command
deriving DecidableEq

namespace ControlState

/-- The part behind an octet that is not shown. An escape character begins a sequence anywhere,
and two controls end one anywhere. -/
def next (state : ControlState) (b : UInt8) : ControlState :=
  if b = 0x1B then escape
  else if b = 0x18 || b = 0x1A then text
  else
    match state with
    | text => text
    | escape =>
      if b < 0x20 || 0x7F ≤ b then escape
      else if b < 0x30 then escapeRest
      else if b = 0x5B then control
      else if b = 0x5D then command
      else if b = 0x50 then device
      else if b = 0x58 || b = 0x5E || b = 0x5F then string
      else text
    | escapeRest => if 0x30 ≤ b && b < 0x7F then text else escapeRest
    | control => if 0x40 ≤ b && b < 0x7F then text else control
    | device =>
      if b < 0x20 || 0x7F ≤ b then device
      else if b < 0x30 then deviceRest
      else if b < 0x40 then deviceNumbers
      else string
    | deviceNumbers =>
      if b < 0x20 || 0x7F ≤ b then deviceNumbers
      else if b < 0x30 then deviceRest
      else if b < 0x3C then deviceNumbers
      else string
    | deviceRest =>
      if b < 0x20 || 0x7F ≤ b then deviceRest
      else if b < 0x30 then deviceRest
      else string
    | string => if b = 0x9C then text else string
    | command => if b = 0x07 then text else command

end ControlState

namespace TerminalText

/-- The controls that move on to another place and are kept. -/
def isSpacing (b : UInt8) : Bool :=
  b == 0x09 || b == 0x0A || b == 0x0C || b == 0x0D

/-- Whether an octet begins a character of several octets. -/
def isLead (b : UInt8) : Bool :=
  0xC2 ≤ b && b < 0xF5

/-- Whether an octet is shown. In the short sequences spacing takes effect at once. -/
def shows (state : ControlState) (b : UInt8) : Bool :=
  match state with
  | .text => (0x20 ≤ b && b < 0x7F) || isSpacing b || isLead b
  | .escape => isSpacing b
  | .escapeRest => isSpacing b
  | .control => isSpacing b
  | _ => false

/-- The octets that are shown. What follows a shown octet is shown for as long as it is text. With
`resumes` a sequence that spacing has interrupted goes on behind that text, else it is given up. -/
def shownOnto (resumes : Bool) (found : Bytes) (state : ControlState) (showing : Bool) :
    Bytes → Bytes
  | [] => found.reverse
  | b :: rest =>
    if showing && (Utf8.isTail b || shows .text b) then
      shownOnto resumes (b :: found) (if isLead b then .text else state) true rest
    else if shows state b then
      shownOnto resumes (b :: found) (if resumes then state else .text) true rest
    else shownOnto resumes found (state.next b) false rest

def shown (resumes : Bool) (text : String) : String :=
  Utf8.decodeLossy (shownOnto resumes [] .text false (Utf8.encode text))

/-- Text without control characters and control sequences, as it goes to a stream. -/
def onStream : String → String :=
  shown true

/-- Text without control characters and control sequences, as a message holds it. -/
def inMessage : String → String :=
  shown false

end TerminalText

end CompilerDriver

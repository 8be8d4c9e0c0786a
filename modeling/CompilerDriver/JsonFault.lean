import CompilerDriver.NumberText
import CompilerDriver.Quoted

namespace CompilerDriver

/-- A number as a document writes it: an integer of at most 64 bits, or a double. -/
inductive JsonNumber where
  | integer (n : Int)
  | fraction (x : Double)
deriving DecidableEq

/-- What stood in a document where something else was expected. -/
inductive JsonFound where
  | null
  | bool (b : Bool)
  | number (n : JsonNumber)
  | string (s : String)
  | list
  | object
deriving DecidableEq

/-- Why a document cannot be read. -/
inductive JsonCause where
  | endOfList
  | endOfObject
  | endOfString
  | endOfValue
  | expectedColon
  | expectedCommaInList
  | expectedCommaInObject
  | expectedIdent
  | expectedValue
  | invalidEscape
  | invalidNumber
  | numberOutOfRange
  | invalidCodePoint
  | controlCharacter
  | keyMustBeString
  | loneSurrogate
  | unexpectedEndOfHexEscape
  | trailingComma
  | trailingCharacters
  | tooDeep
  | invalidType (found : JsonFound) (expected : String)
  | invalidValue (found : JsonFound) (expected : String)
  | invalidLength (length : Nat) (expected : String)
  | unknownVariant (name : String) (known : List String)
  | missingField (name : String)
  | duplicateField (name : String)
  | noVariant (type : String)
deriving DecidableEq

def JsonNumber.described : JsonNumber → String
  | .integer n => "integer \x60" ++ toString n ++ "\x60"
  | .fraction x => "floating point \x60" ++ x.documentText ++ "\x60"

def JsonFound.described : JsonFound → String
  | .null => "null"
  | .bool b => "boolean \x60" ++ (if b then "true" else "false") ++ "\x60"
  | .number n => n.described
  | .string s => "string " ++ Quoted.text s
  | .list => "sequence"
  | .object => "map"

namespace JsonCause

def named (name : String) : String :=
  "\x60" ++ name ++ "\x60"

/-- The known names of a choice, as a phrase. -/
def oneOf : List String → String
  | [] => "there are no variants"
  | [a] => "expected " ++ named a
  | [a, b] => "expected " ++ named a ++ " or " ++ named b
  | names => "expected one of " ++ ", ".intercalate (names.map named)

def message : JsonCause → String
  | endOfList => "EOF while parsing a list"
  | endOfObject => "EOF while parsing an object"
  | endOfString => "EOF while parsing a string"
  | endOfValue => "EOF while parsing a value"
  | expectedColon => "expected \x60:\x60"
  | expectedCommaInList => "expected \x60,\x60 or \x60]\x60"
  | expectedCommaInObject => "expected \x60,\x60 or \x60\x7d\x60"
  | expectedIdent => "expected ident"
  | expectedValue => "expected value"
  | invalidEscape => "invalid escape"
  | invalidNumber => "invalid number"
  | numberOutOfRange => "number out of range"
  | invalidCodePoint => "invalid unicode code point"
  | controlCharacter => "control character (\\u0000-\\u001F) found while parsing a string"
  | keyMustBeString => "key must be a string"
  | loneSurrogate => "lone leading surrogate in hex escape"
  | unexpectedEndOfHexEscape => "unexpected end of hex escape"
  | trailingComma => "trailing comma"
  | trailingCharacters => "trailing characters"
  | tooDeep => "recursion limit exceeded"
  | invalidType found expected => "invalid type: " ++ found.described ++ ", expected " ++ expected
  | invalidValue found expected =>
    "invalid value: " ++ found.described ++ ", expected " ++ expected
  | invalidLength n expected => "invalid length " ++ toString n ++ ", expected " ++ expected
  | unknownVariant name known => "unknown variant " ++ named name ++ ", " ++ oneOf known
  | missingField name => "missing field " ++ named name
  | duplicateField name => "duplicate field " ++ named name
  | noVariant type => "data did not match any variant of untagged enum " ++ type

end JsonCause

/-- A cause with the part of the document that was left when it arose. A fault about a whole
value is not `anchored` until the container around the value has tried to close. -/
structure JsonFault where
  cause : JsonCause
  rest : Bytes
  anchored : Bool

namespace JsonFault

def fixed (cause : JsonCause) (rest : Bytes) : JsonFault :=
  ⟨cause, rest, true⟩

def loose (cause : JsonCause) (rest : Bytes) : JsonFault :=
  ⟨cause, rest, false⟩

def newline : UInt8 := 0x0A

/-- The line, from one, and the column in octets, of the end of what has been consumed. -/
def position (consumed : Bytes) : Nat × Nat :=
  (1 + consumed.count newline, (consumed.reverse.takeWhile (· != newline)).length)

end JsonFault

/-- Why a document was refused, and at which line and column if the cause has a place. -/
structure JsonError where
  cause : JsonCause
  position : Option (Nat × Nat)
deriving DecidableEq

namespace JsonError

def message (error : JsonError) : String :=
  match error.position with
  | some (line, column) =>
    error.cause.message ++ " at line " ++ toString line ++ " column " ++ toString column
  | none => error.cause.message

end JsonError

/-- The place of a fault in the document that was being read. -/
def JsonFault.locate (document : Bytes) (fault : JsonFault) : JsonError where
  cause := fault.cause
  position :=
    if fault.anchored then
      some (JsonFault.position (document.take (document.length - fault.rest.length)))
    else none

end CompilerDriver

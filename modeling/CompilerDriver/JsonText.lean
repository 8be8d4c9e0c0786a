import CompilerDriver.JsonReader
import CompilerDriver.JsonValue

namespace CompilerDriver

namespace JsonText

def hexDigit (n : Nat) : UInt8 :=
  ascii (Nat.digitChar n)

/-- A character between quotes: only quotes, backslashes and controls are escaped. -/
def char (c : Char) : Bytes :=
  if c = '\x22' then [ascii '\x5c', ascii '\x22']
  else if c = '\x5c' then [ascii '\x5c', ascii '\x5c']
  else if c = '\x08' then [ascii '\x5c', ascii 'b']
  else if c = '\t' then [ascii '\x5c', ascii 't']
  else if c = '\n' then [ascii '\x5c', ascii 'n']
  else if c = '\x0c' then [ascii '\x5c', ascii 'f']
  else if c = '\r' then [ascii '\x5c', ascii 'r']
  else if c.toNat < 0x20 then
    [ascii '\x5c', ascii 'u', ascii '0', ascii '0', hexDigit (c.toNat / 16), hexDigit (c.toNat % 16)]
  else String.utf8EncodeChar c

def string (s : String) : Bytes :=
  ascii '\x22' :: (s.toList.flatMap char ++ [ascii '\x22'])

def number : JsonNumber → Bytes
  | .integer n => Utf8.encode (toString n)
  | .fraction x => Utf8.encode x.documentText

end JsonText

mutual

/-- The compact text of a value. -/
def JsonValue.write : JsonValue → Bytes
  | .null => Utf8.encode "null"
  | .bool true => Utf8.encode "true"
  | .bool false => Utf8.encode "false"
  | .number n => JsonText.number n
  | .string s => JsonText.string s
  | .list [] => [ascii '[', ascii ']']
  | .list (item :: more) => ascii '[' :: (item.write ++ JsonText.items more)
  | .object [] => [ascii '\x7b', ascii '\x7d']
  | .object ((name, member) :: more) =>
    ascii '\x7b' ::
      (JsonText.string name ++ ascii ':' :: (member.write ++ JsonText.members more))

/-- The items of a list behind the first one, and its end. -/
def JsonText.items : List JsonValue → Bytes
  | [] => [ascii ']']
  | item :: more => ascii ',' :: (item.write ++ JsonText.items more)

/-- The members of an object behind the first one, and its end. -/
def JsonText.members : List (String × JsonValue) → Bytes
  | [] => [ascii '\x7d']
  | (name, member) :: more =>
    ascii ',' ::
      (JsonText.string name ++ ascii ':' :: (member.write ++ JsonText.members more))

end

end CompilerDriver

import CompilerDriver.JsonNumeral
import CompilerDriver.JsonString

namespace CompilerDriver

/-- A document without a fixed shape. The members of an object keep their order and may repeat a
key. -/
inductive JsonValue where
  | null
  | bool (b : Bool)
  | number (n : JsonNumber)
  | string (s : String)
  | list (items : List JsonValue)
  | object (members : List (String × JsonValue))

namespace JsonValue

open JsonReader

/-- Members up to the end of the object; the count of octets left bounds their number. -/
def membersOnto (value : JsonReader JsonValue) :
    Nat → Bool → List (String × JsonValue) → JsonReader (List (String × JsonValue))
  | 0, _, found => pure found.reverse
  | fuel + 1, first, found => do
    if ← hasKey first then
      let name ← JsonString.body
      colon
      let member ← value
      membersOnto value fuel false ((name, member) :: found)
    else return found.reverse

def members (value : JsonReader JsonValue) : JsonReader (List (String × JsonValue)) := do
  membersOnto value ((← get).length + 1) true []

/-- Reads any value with fewer than so many containers inside each other. -/
def read : Nat → JsonReader JsonValue
  | 0 => failNext .tooDeep
  | depth + 1 => do
    match ← peek with
    | none => failNext .endOfValue
    | some b =>
      if b = ascii 'n' then
        nullWord
        return .null
      else if b = ascii 't' then
        trueWord
        return .bool true
      else if b = ascii 'f' then
        falseWord
        return .bool false
      else if b = ascii '\x22' then
        take
        return .string (← JsonString.body)
      else if JsonNumeral.starts b then
        return .number (← JsonNumeral.signed)
      else if b = ascii '[' then
        if depth = 0 then failNext .tooDeep
        else
          take
          return .list (← enclosed closeList (items (read depth)))
      else if b = ascii '\x7b' then
        if depth = 0 then failNext .tooDeep
        else
          take
          return .object (← enclosed closeObject (members (read depth)))
      else failNext .expectedValue

/-- Containers may be nested one less deep than this. -/
def depthLimit : Nat := 128

end JsonValue

end CompilerDriver

import CompilerDriver.JsonNumeral
import CompilerDriver.JsonString

namespace CompilerDriver

namespace JsonReader

variable {α : Type}

/-- Refuses a value of the wrong type. A scalar is read first, a container is not. -/
def wrongType (expected : String) : JsonReader α := do
  match ← peek with
  | none => failNext .endOfValue
  | some b =>
    if b = ascii 'n' then
      nullWord
      failHere (.invalidType .null expected)
    else if b = ascii 't' then
      trueWord
      failHere (.invalidType (.bool true) expected)
    else if b = ascii 'f' then
      falseWord
      failHere (.invalidType (.bool false) expected)
    else if b = ascii '\x22' then
      take
      let s ← JsonString.body
      failHere (.invalidType (.string s) expected)
    else if JsonNumeral.starts b then
      let n ← JsonNumeral.signed
      failHere (.invalidType (.number n) expected)
    else if b = ascii '[' then failHere (.invalidType .list expected)
    else if b = ascii '\x7b' then failHere (.invalidType .object expected)
    else failNext .expectedValue

def string : JsonReader String := do
  match ← peek with
  | none => failNext .endOfValue
  | some b =>
    if b = ascii '\x22' then
      take
      JsonString.body
    else wrongType "a string"

def boolean : JsonReader Bool := do
  match ← peek with
  | none => failNext .endOfValue
  | some b =>
    if b = ascii 't' then
      trueWord
      return true
    else if b = ascii 'f' then
      falseWord
      return false
    else wrongType "a boolean"

/-- A signed integer of 64 bits. -/
def integer : JsonReader Int := do
  match ← peek with
  | none => failNext .endOfValue
  | some b =>
    if JsonNumeral.starts b then
      match ← JsonNumeral.signed with
      | .integer n =>
        if n < twoTo 63 then return n
        else failHere (.invalidValue (.number (.integer n)) "i64")
      | .fraction x => failHere (.invalidType (.number (.fraction x)) "i64")
    else wrongType "i64"

def unit : JsonReader Unit := do
  match ← peek with
  | none => failNext .endOfValue
  | some b => if b = ascii 'n' then nullWord else wrongType "unit"

/-- A value or `null`. -/
def nullable (value : JsonReader α) : JsonReader (Option α) := do
  match ← peek with
  | none => some <$> value
  | some b =>
    if b = ascii 'n' then
      nullWord
      return none
    else some <$> value

def list (item : JsonReader α) : JsonReader (List α) := do
  match ← peek with
  | none => failNext .endOfValue
  | some b =>
    if b = ascii '[' then
      take
      enclosed closeList (items item)
    else wrongType "a sequence"

/-- One of the spellings of a choice, whose opening quote has been taken. -/
def spelling (known : List (String × α)) : JsonReader α := do
  let name ← JsonString.body
  match known.lookup name with
  | some a => return a
  | none => failHere (.unknownVariant name (known.map Prod.fst))

/-- The only key of an object that makes a choice. -/
def choiceKey (known : List (String × α)) : JsonReader α := do
  match ← peek with
  | none => failNext .endOfObject
  | some b =>
    if b = ascii '\x22' then
      take
      spelling known
    else if b = ascii '\x7d' then failNext .expectedValue
    else failNext .keyMustBeString

/-- A choice: one of its spellings, alone or as the key of an object that holds `null`. -/
def choice (known : List (String × α)) : JsonReader α := do
  match ← peek with
  | none => failNext .endOfValue
  | some b =>
    if b = ascii '\x22' then
      take
      spelling known
    else if b = ascii '\x7b' then
      take
      let a ← choiceKey known
      colon
      unit
      match ← peek with
      | none => failHere .endOfObject
      | some c =>
        if c = ascii '\x7d' then
          take
          return a
        else failHere .expectedValue
    else failNext .expectedValue

end JsonReader

end CompilerDriver

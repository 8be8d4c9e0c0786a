import CompilerDriver.JsonFault

namespace CompilerDriver

/-- Reads a value off the front of a document and leaves what follows it. -/
abbrev JsonReader (α : Type) := StateT Bytes (Except JsonFault) α

abbrev ascii (c : Char) : UInt8 :=
  UInt8.ofNat c.toNat

def isDigit (b : UInt8) : Bool :=
  0x30 ≤ b && b ≤ 0x39

namespace JsonReader

variable {α : Type}

/-- Fails where reading stands. -/
def failHere (cause : JsonCause) : JsonReader α :=
  fun bytes => .error (.fixed cause bytes)

/-- Fails at the octet that comes next. -/
def failNext (cause : JsonCause) : JsonReader α :=
  fun bytes => .error (.fixed cause bytes.tail)

/-- Fails about a whole value; the place is found later. -/
def failLoose (cause : JsonCause) : JsonReader α :=
  fun bytes => .error (.loose cause bytes)

def isSpace (b : UInt8) : Bool :=
  b == 0x20 || b == 0x09 || b == 0x0A || b == 0x0D

/-- The next octet behind white space, not taken. -/
def peek : JsonReader (Option UInt8) :=
  fun bytes =>
    let rest := bytes.dropWhile isSpace
    .ok (rest.head?, rest)

/-- Takes the octet that `peek` has shown. -/
def take : JsonReader Unit :=
  fun bytes => .ok ((), bytes.tail)

/-- Takes the rest of a literal. -/
def word : List UInt8 → JsonReader Unit
  | [] => pure ()
  | expected :: more => fun bytes =>
    match bytes with
    | [] => .error (.fixed .endOfValue [])
    | b :: rest => if b = expected then word more rest else .error (.fixed .expectedIdent rest)

def nullWord : JsonReader Unit := word (Utf8.encode "null")

def trueWord : JsonReader Unit := word (Utf8.encode "true")

def falseWord : JsonReader Unit := word (Utf8.encode "false")

/-- Where reading stands once a list has been asked to end, and whether it did. -/
def closeList (bytes : Bytes) : Except JsonFault Unit × Bytes :=
  match bytes.dropWhile isSpace with
  | [] => (.error (.fixed .endOfList []), [])
  | b :: rest =>
    if b = ascii ']' then (.ok (), rest)
    else if b = ascii ',' then
      let next := rest.dropWhile isSpace
      let cause :=
        if next.head? = some (ascii ']') then JsonCause.trailingComma else .trailingCharacters
      (.error (.fixed cause next.tail), next)
    else (.error (.fixed .trailingCharacters rest), b :: rest)

/-- Where reading stands once an object has been asked to end, and whether it did. -/
def closeObject (bytes : Bytes) : Except JsonFault Unit × Bytes :=
  match bytes.dropWhile isSpace with
  | [] => (.error (.fixed .endOfObject []), [])
  | b :: rest =>
    if b = ascii '\x7d' then (.ok (), rest)
    else if b = ascii ',' then (.error (.fixed .trailingComma rest), b :: rest)
    else (.error (.fixed .trailingCharacters rest), b :: rest)

/-- Reads the inside of a container and closes it. A loose fault of the inside is placed where
the attempt to close stands. -/
def enclosed (close : Bytes → Except JsonFault Unit × Bytes) (inside : JsonReader α) :
    JsonReader α := fun bytes =>
  match inside bytes with
  | .ok (a, rest) =>
    match close rest with
    | (.ok _, rest) => .ok (a, rest)
    | (.error fault, _) => .error fault
  | .error fault =>
    if fault.anchored then .error fault else .error (.fixed fault.cause (close fault.rest).2)

/-- Whether another item follows in a list, with the comma before it taken. -/
def hasItem (first : Bool) : JsonReader Bool := do
  match ← peek with
  | none => failNext .endOfList
  | some b =>
    if b = ascii ']' then return false
    else if first then return true
    else if b = ascii ',' then
      take
      match ← peek with
      | none => failNext .endOfValue
      | some c => if c = ascii ']' then failNext .trailingComma else return true
    else failNext .expectedCommaInList

/-- Whether another member follows in an object, with the comma before it and the quote that
opens its key taken. -/
def hasKey (first : Bool) : JsonReader Bool := do
  match ← peek with
  | none => failNext .endOfObject
  | some b =>
    if b = ascii '\x7d' then return false
    else if first then
      if b = ascii '\x22' then
        take
        return true
      else failNext .keyMustBeString
    else if b = ascii ',' then
      take
      match ← peek with
      | none => failNext .endOfValue
      | some c =>
        if c = ascii '\x22' then
          take
          return true
        else if c = ascii '\x7d' then failNext .trailingComma
        else failNext .keyMustBeString
    else failNext .expectedCommaInObject

def colon : JsonReader Unit := do
  match ← peek with
  | none => failNext .endOfObject
  | some b => if b = ascii ':' then take else failNext .expectedColon

/-- Items up to the end of the list; the count of octets left bounds their number. -/
def itemsOnto (item : JsonReader α) : Nat → Bool → List α → JsonReader (List α)
  | 0, _, found => pure found.reverse
  | fuel + 1, first, found => do
    if ← hasItem first then
      let a ← item
      itemsOnto item fuel false (a :: found)
    else return found.reverse

def items (item : JsonReader α) : JsonReader (List α) := do
  itemsOnto item ((← get).length + 1) true []

/-- Reads one value, and nothing but white space after it. -/
def whole (value : JsonReader α) : JsonReader α := fun bytes =>
  match value bytes with
  | .error fault => .error fault
  | .ok (a, rest) =>
    match rest.dropWhile isSpace with
    | [] => .ok (a, [])
    | _ :: rest => .error (.fixed .trailingCharacters rest)

/-- Reads a value off the front of a document and forgets what follows it. -/
def front (value : JsonReader α) (document : Bytes) : Except JsonError α :=
  match value document with
  | .ok (a, _) => .ok a
  | .error fault => .error (fault.locate document)

/-- Reads a document that holds one value. -/
def document (value : JsonReader α) (document : Bytes) : Except JsonError α :=
  front (whole value) document

end JsonReader

end CompilerDriver

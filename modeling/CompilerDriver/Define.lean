import CompilerDriver.Decimal
import CompilerDriver.JsonReader
import CompilerDriver.JsonValue
import CompilerDriver.NumberText

namespace CompilerDriver

/-- The value of a compile-time constant. Text keeps the quotes it was given. -/
inductive DefineValue where
  | bool (b : Bool)
  | number (x : Double)
  | text (s : String)
  | undefined
deriving DecidableEq

namespace DefineValue

/-- A boolean or a finite number where the text writes one, else the text as it is. -/
def classify (raw : String) : DefineValue :=
  if raw = "true" then .bool true
  else if raw = "false" then .bool false
  else
    match Double.ofString? raw with
    | some x => .number x
    | none => .text raw

/-- The value as the compiler's command line takes it. -/
def shown : DefineValue → String
  | bool true => "true"
  | bool false => "false"
  | number x => x.text
  | text s => s
  | undefined => "undefined"

def ofJson? : JsonValue → Option DefineValue
  | .null => some .undefined
  | .bool b => some (.bool b)
  | .number (.integer n) => (Double.ofRatio? (n < 0) n.natAbs 1).map .number
  | .number (.fraction x) => some (.number x)
  | .string s => some (.text s)
  | .list _ => none
  | .object _ => none

def toJson : DefineValue → JsonValue
  | bool b => .bool b
  | number x => .number (.fraction x)
  | text s => .string s
  | undefined => .null

/-- A value at a place where so many containers may still be entered. -/
def read (depth : Nat) : JsonReader DefineValue := do
  match ofJson? (← JsonValue.read depth) with
  | some value => return value
  | none => JsonReader.failLoose (.noVariant "DefineValue")

end DefineValue

/-- Splits an entry at its first `=`; an entry without one has no value. -/
def parseDefine (entry : String) : String × DefineValue :=
  let (name, rest) := entry.toList.span (· != '=')
  match rest with
  | [] => (entry, .undefined)
  | _ :: raw => (String.ofList name, .classify (String.ofList raw))

/-- Compile-time constants by name, in increasing order of the names. -/
structure Defines where
  entries : List (String × DefineValue)
  sorted : entries.Pairwise fun a b => a.1 < b.1
deriving DecidableEq

namespace Defines

/-- Puts a value under a name, in the place of the value it had. -/
def insertEntry (name : String) (value : DefineValue) :
    List (String × DefineValue) → List (String × DefineValue)
  | [] => [(name, value)]
  | (other, old) :: rest =>
    if name < other then (name, value) :: (other, old) :: rest
    else if name = other then (name, value) :: rest
    else (other, old) :: insertEntry name value rest

theorem mem_insertEntry {name : String} {value : DefineValue}
    {entries : List (String × DefineValue)} {entry : String × DefineValue}
    (h : entry ∈ insertEntry name value entries) : entry = (name, value) ∨ entry ∈ entries := by
  induction entries with
  | nil => simpa [insertEntry] using h
  | cons head rest ih =>
    obtain ⟨other, old⟩ := head
    simp only [insertEntry] at h
    split at h
    · simpa using h
    · split at h
      · rcases List.mem_cons.1 h with h | h
        · exact .inl h
        · exact .inr (List.mem_cons_of_mem _ h)
      · rcases List.mem_cons.1 h with h | h
        · exact .inr (h ▸ List.mem_cons_self)
        · exact (ih h).imp_right (List.mem_cons_of_mem _)

theorem sorted_insertEntry {name : String} {value : DefineValue}
    {entries : List (String × DefineValue)} (h : entries.Pairwise fun a b => a.1 < b.1) :
    (insertEntry name value entries).Pairwise fun a b => a.1 < b.1 := by
  induction entries with
  | nil => simp [insertEntry]
  | cons head rest ih =>
    obtain ⟨other, old⟩ := head
    obtain ⟨above, sorted⟩ := List.pairwise_cons.1 h
    simp only [insertEntry]
    split
    next lt =>
      refine List.pairwise_cons.2 ⟨fun entry mem => ?_, h⟩
      rcases List.mem_cons.1 mem with rfl | mem
      · exact lt
      · exact String.lt_trans lt (above entry mem)
    next notLt =>
      split
      next eq => exact List.pairwise_cons.2 ⟨fun entry mem => eq ▸ above entry mem, sorted⟩
      next ne =>
        refine List.pairwise_cons.2 ⟨fun entry mem => ?_, ih sorted⟩
        rcases mem_insertEntry mem with rfl | mem
        · exact Decidable.byContradiction fun notGt =>
            ne (String.le_antisymm (String.not_lt.1 notGt) (String.not_lt.1 notLt))
        · exact above entry mem

def empty : Defines :=
  ⟨[], .nil⟩

def insert (defines : Defines) (name : String) (value : DefineValue) : Defines :=
  ⟨insertEntry name value defines.entries, sorted_insertEntry defines.sorted⟩

def insertAll (defines : Defines) (entries : List (String × DefineValue)) : Defines :=
  entries.foldl (fun defines entry => defines.insert entry.1 entry.2) defines

/-- Of several values for a name the last one counts. -/
def ofList (entries : List (String × DefineValue)) : Defines :=
  empty.insertAll entries

def get? (defines : Defines) (name : String) : Option DefineValue :=
  defines.entries.lookup name

def size (defines : Defines) : Nat :=
  defines.entries.length

/-- The constants of a list of entries. -/
def parse (entries : List String) : Defines :=
  ofList (entries.map parseDefine)

def toJson (defines : Defines) : JsonValue :=
  .object (defines.entries.map fun entry => (entry.1, entry.2.toJson))

def ofMember? (member : String × JsonValue) : Option (String × DefineValue) :=
  (DefineValue.ofJson? member.2).map fun value => (member.1, value)

def ofMembers? (members : List (String × JsonValue)) : Option Defines :=
  (members.mapM ofMember?).map ofList

end Defines

/-- The forms in which constants may be given. -/
inductive LooseDefines where
  | one (entry : String)
  | many (entries : List String)
  | typed (defines : Defines)
deriving DecidableEq

namespace LooseDefines

def normalize : LooseDefines → Defines
  | one entry => .parse [entry]
  | many entries => .parse entries
  | typed defines => defines

def string? : JsonValue → Option String
  | .string s => some s
  | _ => none

def ofJson? : JsonValue → Option LooseDefines
  | .string s => some (.one s)
  | .list items => (items.mapM string?).map .many
  | .object members => (Defines.ofMembers? members).map .typed
  | _ => none

def toJson : LooseDefines → JsonValue
  | one entry => .string entry
  | many entries => .list (entries.map .string)
  | typed defines => defines.toJson

/-- A value at a place where so many containers may still be entered. -/
def read (depth : Nat) : JsonReader LooseDefines := do
  match ofJson? (← JsonValue.read depth) with
  | some defines => return defines
  | none => JsonReader.failLoose (.noVariant "RawDefines")

end LooseDefines

/-- Constants that are not given are none. -/
def normalizeDefines (given : Option LooseDefines) : Defines :=
  (given.map LooseDefines.normalize).getD .empty

end CompilerDriver

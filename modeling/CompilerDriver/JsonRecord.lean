import CompilerDriver.JsonScalar
import CompilerDriver.JsonSkip

namespace CompilerDriver

/-- A member of a record. Reading it gives the change that it makes to the record. A record in
the form of a list may be stricter about members that are left out. -/
structure JsonField (α : Type) where
  name : String
  aliases : List String
  read : JsonReader (α → α)
  neededInObject : Bool
  neededInList : Bool

namespace JsonField

variable {α β : Type}

/-- A member that must be there in both forms. -/
def required (name : String) (value : JsonReader β) (set : β → α → α) : JsonField α where
  name := name
  aliases := []
  read := set <$> value
  neededInObject := true
  neededInList := true

/-- A member that may be left out in both forms. -/
def optional (name : String) (value : JsonReader β) (set : β → α → α) : JsonField α :=
  { required name value set with neededInObject := false, neededInList := false }

end JsonField

/-- The shape of a record: its members in order and the record that has none of them. -/
structure JsonRecord (α : Type) where
  noun : String
  blank : α
  fields : List (JsonField α)

namespace JsonRecord

open JsonReader

variable {α : Type}

def field? (form : JsonRecord α) (key : String) : Option (JsonField α) :=
  form.fields.find? fun field => field.name == key || field.aliases.contains key

/-- The first member that an object must have and `seen` lacks. -/
def missing? (form : JsonRecord α) (seen : List String) : Option (JsonField α) :=
  form.fields.find? fun field => field.neededInObject && !seen.contains field.name

/-- Members in any order; those that are unknown are passed over, none may repeat. -/
def membersOnto (form : JsonRecord α) : Nat → Bool → List String → α → JsonReader α
  | 0, _, _, record => pure record
  | fuel + 1, first, seen, record => do
    if ← hasKey first then
      let key ← JsonString.body
      match form.field? key with
      | none =>
        colon
        JsonSkip.value
        membersOnto form fuel false seen record
      | some field =>
        if seen.contains field.name then failLoose (.duplicateField field.name)
        else
          colon
          let change ← field.read
          membersOnto form fuel false (field.name :: seen) (change record)
    else
      match form.missing? seen with
      | some field => failLoose (.missingField field.name)
      | none => return record

def ofMembers (form : JsonRecord α) : JsonReader α := do
  membersOnto form ((← get).length + 1) true [] form.blank

def expectedLength (form : JsonRecord α) : String :=
  form.noun ++ " with " ++ toString form.fields.length ++ " elements"

/-- The members by position. -/
def itemsOnto (form : JsonRecord α) : Nat → α → List (JsonField α) → JsonReader α
  | _, record, [] => pure record
  | index, record, field :: more => do
    if ← hasItem (index == 0) then
      let change ← field.read
      itemsOnto form (index + 1) (change record) more
    else if field.neededInList then failLoose (.invalidLength index form.expectedLength)
    else itemsOnto form (index + 1) record more

def ofItems (form : JsonRecord α) : JsonReader α :=
  itemsOnto form 0 form.blank form.fields

/-- A record, as an object or as a list of its members. -/
def read (form : JsonRecord α) : JsonReader α := do
  match ← peek with
  | none => failNext .endOfValue
  | some b =>
    if b = ascii '[' then
      take
      enclosed closeList form.ofItems
    else if b = ascii '\x7b' then
      take
      enclosed closeObject form.ofMembers
    else wrongType form.noun

end JsonRecord

end CompilerDriver

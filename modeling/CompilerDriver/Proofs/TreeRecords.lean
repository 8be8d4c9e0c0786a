import CompilerDriver.Proofs.TreeReading
import Mathlib.Data.Finset.Dedup
import Mathlib.Data.Finset.Insert

namespace CompilerDriver

open JsonGrammar Utf8 JsonReader

variable {α : Type}

/-- What the members of a record mean. Members of two fields may come in either order. -/
structure RecordMeaning (form : JsonRecord α) where
  change? : String → JsonTree → Option (α → α)
  reads : ∀ field ∈ form.fields, ∀ tree, ReadsAs field.read tree (change? field.name tree)
  commute : ∀ {a b : String} {s t : JsonTree} {f g : α → α}, a ≠ b → change? a s = some f →
    change? b t = some g → ∀ record, f (g record) = g (f record)

namespace JsonRecord

/-- A record in whose object no member was missing. -/
def complete? (form : JsonRecord α) (found : Finset String × α) : Option α :=
  if ∀ field ∈ form.fields, field.neededInObject = true → field.name ∈ found.1 then
    some found.2
  else none

theorem complete?_toFinset (form : JsonRecord α) (seen : List String) (record : α) :
    form.complete? (seen.toFinset, record) =
      if (form.missing? seen).isNone then some record else none := by
  have same : (∀ field ∈ form.fields, field.neededInObject = true →
      field.name ∈ seen.toFinset) ↔ (form.missing? seen).isNone = true := by
    simp [missing?]
  rw [complete?]
  simp only [same]

end JsonRecord

namespace RecordMeaning

open JsonTree (Spells SpellsMember text?)

variable {form : JsonRecord α} (meaning : RecordMeaning form)

/-- A member more, for the fields that have one so far and the record that they make. -/
def absorb? (found : Finset String × α) (member : List Char × JsonTree) :
    Option (Finset String × α) :=
  (text? member.1).bind fun name =>
    match form.field? name with
    | none => some found
    | some field =>
      if field.name ∈ found.1 then none
      else (meaning.change? field.name member.2).map fun change =>
        (insert field.name found.1, change found.2)

def ofMembers? (members : List (List Char × JsonTree)) : Option α :=
  (members.foldlM meaning.absorb? (∅, form.blank)).bind form.complete?

/-- A record as a list of its members, of which the last ones may be left out. -/
def ofItems? : List (JsonField α) → List JsonTree → α → Option α
  | [], [], record => some record
  | [], _ :: _, _ => none
  | field :: fields, [], record => if field.neededInList then none else ofItems? fields [] record
  | field :: fields, item :: items, record =>
    (meaning.change? field.name item).bind fun change => ofItems? fields items (change record)

/-- The record that a value tells. -/
def ofTree? : JsonTree → Option α
  | .list items => meaning.ofItems? form.fields items form.blank
  | .object members => meaning.ofMembers? members
  | _ => none

theorem field_mem {key : String} {field : JsonField α} (h : form.field? key = some field) :
    field ∈ form.fields :=
  List.mem_of_find?_eq_some h

/-- The members of an object are read one after the other, by induction on how it is laid out. -/
theorem got_membersOnto {first : Bool} {members : List (List Char × JsonTree)} {text : List Char}
    (h : Items SpellsMember first members text) (seen : List String) (record : α) {fuel : Nat}
    (enough : members.length < fuel) (rest : Bytes) :
    got (form.membersOnto fuel first seen record) (octets text ++ ascii '\x7d' :: rest) =
      ((members.foldlM meaning.absorb? (seen.toFinset, record)).bind form.complete?).map
        fun a => (a, ascii '\x7d' :: rest) := by
  induction h generalizing seen record fuel with
  | @nil first gap hg =>
    obtain ⟨fuel, rfl⟩ := Nat.exists_eq_add_one.mpr enough
    rw [JsonRecord.membersOnto, got_bind, got_of_ok (hasKey_closed hg first rest)]
    simp only [Option.bind_some, Bool.false_eq_true, if_false, List.foldlM_nil]
    show _ = Option.map _ (form.complete? (seen.toFinset, record))
    rw [form.complete?_toFinset]
    cases form.missing? seen <;> rfl
  | @cons first member members before after text more hb ha head tail ih =>
    obtain ⟨fuel, rfl⟩ := Nat.exists_eq_add_one.mpr (Nat.zero_lt_of_lt enough)
    have ends : Ends (octets more ++ ascii '\x7d' :: rest) :=
      tail.ends (JsonSkip.ends_closing .object) rest
    have fewer : members.length < fuel := by
      rw [List.length_cons] at enough
      omega
    obtain ⟨space, gap, value, hs, hg, hv, opened⟩ := got_hasKey first hb ha head
    rw [octets_append, List.append_assoc, JsonRecord.membersOnto]
    refine (opened _ _ _).trans ?_
    rw [List.foldlM_cons, absorb?]
    cases text? member.1 with
    | none => rfl
    | some name =>
      simp only [Option.bind_some]
      cases known : form.field? name with
      | none =>
        simp only
        rw [got_colon hs, got_bind, got_of_ok (JsonSkip.value_passes hv gap _ hg ends)]
        exact ih seen record fewer
      | some field =>
        simp only [List.contains_iff_mem, List.mem_toFinset]
        by_cases again : field.name ∈ seen
        · rw [if_pos again, if_pos again]
          rfl
        · rw [if_neg again, if_neg again, got_colon hs, got_bind,
            meaning.reads field (field_mem known) member.2 value gap _ hv hg ends]
          cases meaning.change? field.name member.2 with
          | none => rfl
          | some change =>
            have others := ih (field.name :: seen) (change record) fewer
            rw [List.toFinset_cons] at others
            exact others

theorem got_ofMembers {members : List (List Char × JsonTree)} {inside : List Char}
    (h : Items SpellsMember true members inside) (rest : Bytes) :
    got (enclosed closeObject form.ofMembers) (octets inside ++ ascii '\x7d' :: rest) =
      (meaning.ofMembers? members).map fun a => (a, rest) := by
  have enough := length_lt_of_items h (fun _ _ _ spelled => spelled.begins.ne_nil)
    (ascii '\x7d' :: rest)
  have read := meaning.got_membersOnto h [] form.blank enough rest
  rw [List.toFinset_nil] at read
  exact got_enclosed_of_got read (closeObject_reads rest)

/-- A list does not end where an item stands. -/
theorem closedBy_items {first : Bool} {item : JsonTree} {items : List JsonTree} {text : List Char}
    (h : Items Spells first (item :: items) text) (record : α) (rest : Bytes) :
    closedBy closeList (record, octets text ++ ascii ']' :: rest) = none := by
  cases h with
  | @cons _ _ _ before after text more hb ha head tail =>
    cases first with
    | true =>
      obtain ⟨b, bytes, begins, visible, noEnd⟩ := head.begins
      rw [octets_append, octets_append, begins, List.append_assoc, List.append_assoc,
        List.cons_append, closedBy, closeList, dropWhile_gap (gap_first hb ha),
        List.dropWhile_cons_of_neg (by simp [visible])]
      simp only [if_neg noEnd]
      by_cases comma : b = ascii ','
      · rw [if_pos comma]
      · rw [if_neg comma]
    | false =>
      rw [octets_append, octets_append, List.append_assoc, List.append_assoc, octets_separated,
        closedBy, closeList, dropWhile_gap hb, List.dropWhile_cons_of_neg (by decide)]
      rfl

/-- The items of a list are read field by field, by induction on the fields. -/
theorem got_itemsOnto {fields : List (JsonField α)} (known : ∀ field ∈ fields, field ∈ form.fields)
    {index : Nat} {items : List JsonTree} {text : List Char}
    (h : Items Spells (index == 0) items text) (record : α) (rest : Bytes) :
    (got (form.itemsOnto index record fields) (octets text ++ ascii ']' :: rest)).bind
        (closedBy closeList) =
      (meaning.ofItems? fields items record).map fun a => (a, rest) := by
  induction fields generalizing index items text record with
  | nil =>
    cases items with
    | nil =>
      cases h with
      | nil hg =>
        show closedBy closeList (record, octets text ++ ascii ']' :: rest) = _
        rw [closedBy, closeList, dropWhile_gap hg]
        rfl
    | cons item items => exact closedBy_items h record rest
  | cons field fields ih =>
    have others : ∀ field ∈ fields, field ∈ form.fields := fun field hf =>
      known field (List.mem_cons_of_mem _ hf)
    cases h with
    | nil hg =>
      rw [JsonRecord.itemsOnto, got_bind, got_of_ok (hasItem_closed hg (index == 0) rest),
        ofItems?]
      simp only [Option.bind_some, Bool.false_eq_true, if_false]
      by_cases needed : field.neededInList = true
      · rw [if_pos needed, if_pos needed]
        rfl
      · rw [if_neg needed, if_neg needed]
        exact ih others (.nil gap_nil) record
    | @cons _ item items before after text more hb ha head tail =>
      obtain ⟨b, bytes, begins, visible, noEnd⟩ := head.begins
      have ends : Ends (octets more ++ ascii ']' :: rest) :=
        tail.ends (JsonSkip.ends_closing .list) rest
      have opened := hasItem_next hb ha visible noEnd (index == 0)
        (bytes ++ (octets more ++ ascii ']' :: rest))
      have read := (meaning.reads field (known field List.mem_cons_self) item).here head ends
      rw [begins, List.cons_append] at read
      rw [octets_append, octets_append, begins, List.append_assoc, List.append_assoc,
        List.cons_append, JsonRecord.itemsOnto, got_bind, got_of_ok opened, ofItems?]
      simp only [Option.bind_some, if_true]
      rw [got_bind, read]
      cases meaning.change? field.name item with
      | none => rfl
      | some change =>
        have later : (index + 1 == 0) = false := rfl
        exact ih others (later ▸ tail) (change record)

/-- A record is read as its members mean, in either form and in whatever layout. -/
theorem read_readsAs (tree : JsonTree) : ReadsAs form.read tree (meaning.ofTree? tree) := by
  refine readsAs_of_peeked fun text b bytes rest spelled opens begins hr => ?_
  cases opens with
  | number starts =>
    have noList : b ≠ ascii '[' := by
      rintro rfl
      cases starts
    have noObject : b ≠ ascii '\x7b' := by
      rintro rfl
      cases starts
    rw [if_neg noList, if_neg noObject]
    exact got_wrongType _ _
  | list =>
    cases spelled with
    | list items =>
      rw [octets_list] at begins
      cases begins
      rw [if_pos rfl, got_take, got_enclosed]
      have front : (0 == 0) = true := rfl
      exact meaning.got_itemsOnto (fun _ hf => hf) (front ▸ items) form.blank rest
  | object =>
    cases spelled with
    | object members =>
      rw [octets_object] at begins
      cases begins
      rw [if_neg (by decide), if_pos rfl, got_take]
      exact meaning.got_ofMembers members rest
  | _ =>
    rw [if_neg (by decide), if_neg (by decide)]
    exact got_wrongType _ _

end RecordMeaning

end CompilerDriver

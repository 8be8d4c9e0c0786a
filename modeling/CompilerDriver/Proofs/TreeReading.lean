import CompilerDriver.Flags
import CompilerDriver.Proofs.TokenReading

namespace CompilerDriver

open JsonGrammar Utf8 JsonReader

variable {α β : Type}

namespace JsonTree

def string? : JsonTree → Option String
  | .string inside => text? inside
  | _ => none

def boolean? : JsonTree → Option Bool
  | .bool b => some b
  | _ => none

def unit? : JsonTree → Option Unit
  | .null => some ()
  | _ => none

/-- A value or `null`. -/
def nullable? (value? : JsonTree → Option α) : JsonTree → Option (Option α)
  | .null => some none
  | tree => (value? tree).map some

def list? (item? : JsonTree → Option α) : JsonTree → Option (List α)
  | .list items => items.mapM item?
  | _ => none

/-- The choice that a spelling makes. -/
def spelling? (known : List (String × α)) (inside : List Char) : Option α :=
  (text? inside).bind fun name => known.lookup name

/-- A choice, alone or as the key of an object that holds `null`. -/
def choice? (known : List (String × α)) : JsonTree → Option α
  | .string inside => spelling? known inside
  | .object [(key, value)] => value.unit?.bind fun _ => spelling? known key
  | _ => none

/-- A member of an object without a fixed shape. -/
def member? (value? : JsonTree → Option JsonValue) (member : List Char × JsonTree) :
    Option (String × JsonValue) :=
  (text? member.1).bind fun name => (value? member.2).map fun value => (name, value)

/-- A value without a fixed shape, at a place where so many containers may still be entered. -/
def value? : Nat → JsonTree → Option JsonValue
  | 0, _ => none
  | _ + 1, .null => some .null
  | _ + 1, .bool b => some (.bool b)
  | _ + 1, .number token => (number? token).map .number
  | _ + 1, .string inside => (text? inside).map .string
  | depth + 1, .list items =>
    if depth = 0 then none else (items.mapM (value? depth)).map .list
  | depth + 1, .object members =>
    if depth = 0 then none else (members.mapM (member? (value? depth))).map .object

end JsonTree

namespace JsonReader

open JsonTree (Spells SpellsMember Opens text?)

/-- What a reader makes of a tree, in whatever way the tree is laid out and wherever it stands. -/
def ReadsAs (reader : JsonReader α) (tree : JsonTree) (o : Option α) : Prop :=
  ∀ text gap rest, tree.Spells text → Gap gap → Ends rest →
    got reader (octets gap ++ (octets text ++ rest)) = o.map fun a => (a, rest)

theorem got_peek {gap : List Char} (hg : Gap gap) {b : UInt8} (hb : isSpace b = false)
    (next : Option UInt8 → JsonReader β) (rest : Bytes) :
    got (peek >>= next) (octets gap ++ b :: rest) = got (next (some b)) (b :: rest) := by
  rw [got, peek_gap hg hb, got]

theorem got_take (next : Unit → JsonReader β) (b : UInt8) (rest : Bytes) :
    got (take >>= next) (b :: rest) = got (next ()) rest := rfl

theorem readsAs_of_peeked {tree : JsonTree} {o : Option α} {absent : JsonReader α}
    {next : UInt8 → JsonReader α}
    (h : ∀ text b bytes rest, tree.Spells text → Opens tree b →
      octets text ++ rest = b :: bytes → Ends rest →
        got (next b) (b :: bytes) = o.map fun a => (a, rest)) :
    ReadsAs (do
      match ← peek with
      | none => absent
      | some b => next b) tree o := by
  intro text gap rest spelled hg hr
  obtain ⟨b, bytes, begins, opens⟩ := spelled.opens
  rw [begins, List.cons_append, got_peek hg opens.visible]
  exact h text b _ rest spelled opens (by rw [begins, List.cons_append]) hr

theorem ReadsAs.map {reader : JsonReader α} {tree : JsonTree} {o : Option α}
    (h : ReadsAs reader tree o) (f : α → β) : ReadsAs (f <$> reader) tree (o.map f) := by
  intro text gap rest spelled hg hr
  rw [got_map, h text gap rest spelled hg hr]
  cases o <;> rfl

/-- A value is read where no white space stands before it. -/
theorem ReadsAs.here {reader : JsonReader α} {tree : JsonTree} {o : Option α}
    (h : ReadsAs reader tree o) {text : List Char} (spelled : tree.Spells text) {rest : Bytes}
    (hr : Ends rest) : got reader (octets text ++ rest) = o.map fun a => (a, rest) :=
  h text [] rest spelled gap_nil hr

/-- A document is read as the value that it holds. -/
theorem ReadsAs.document {reader : JsonReader α} {tree : JsonTree} {o : Option α}
    (h : ReadsAs reader tree o) {text : List Char} (written : tree.Document text) :
    (document reader (octets text)).toOption = o := by
  cases written with
  | @document before text after hb spelled ha =>
    have ends : Ends (octets after) := by
      rw [← List.append_nil (octets after)]
      exact ends_gap ha ends_nil
    have blank : (octets after).dropWhile isSpace = [] := by
      rw [← List.append_nil (octets after), dropWhile_gap ha]
      rfl
    have read := h text before (octets after) spelled hb ends
    rw [octets_append, octets_append, List.append_assoc, JsonReader.document, front, whole]
    rw [got] at read
    cases found : reader (octets before ++ (octets text ++ octets after)) with
    | error fault =>
      rw [found] at read
      cases o with
      | none => rfl
      | some a => cases read
    | ok result =>
      rw [found] at read
      cases o with
      | none => cases read
      | some a =>
        cases read
        simp only [blank]
        rfl

theorem string_readsAs (tree : JsonTree) : ReadsAs string tree tree.string? := by
  refine readsAs_of_peeked fun text b bytes rest spelled opens begins hr => ?_
  cases opens with
  | number starts =>
    rw [if_neg (JsonSkip.starts_spec starts).2.2.2.2.2.2]
    exact got_wrongType _ _
  | string =>
    cases spelled with
    | string hi =>
      rw [JsonTree.octets_string] at begins
      cases begins
      rw [if_pos rfl, got_take]
      exact JsonTree.got_body hi rest
  | _ =>
    rw [if_neg (by decide)]
    exact got_wrongType _ _

theorem boolean_readsAs (tree : JsonTree) : ReadsAs boolean tree tree.boolean? := by
  refine readsAs_of_peeked fun text b bytes rest spelled opens begins hr => ?_
  cases opens with
  | number starts =>
    obtain ⟨_, _, _, _, t, f, _⟩ := JsonSkip.starts_spec starts
    rw [if_neg t, if_neg f]
    exact got_wrongType _ _
  | yes =>
    cases spelled
    cases begins
    rfl
  | no =>
    cases spelled
    cases begins
    rfl
  | _ =>
    rw [if_neg (by decide), if_neg (by decide)]
    exact got_wrongType _ _

theorem unit_readsAs (tree : JsonTree) : ReadsAs unit tree tree.unit? := by
  refine readsAs_of_peeked fun text b bytes rest spelled opens begins hr => ?_
  cases opens with
  | number starts =>
    rw [if_neg (JsonSkip.starts_spec starts).2.2.2.1]
    exact got_wrongType _ _
  | null =>
    cases spelled
    cases begins
    rfl
  | _ =>
    rw [if_neg (by decide)]
    exact got_wrongType _ _

theorem Opens.null_iff {tree : JsonTree} {b : UInt8} (h : Opens tree b) :
    b = ascii 'n' ↔ tree = .null := by
  cases h with
  | number starts =>
    simp only [reduceCtorEq, iff_false]
    exact (JsonSkip.starts_spec starts).2.2.2.1
  | _ => simp

theorem nullable_readsAs {reader : JsonReader α} {value? : JsonTree → Option α} {tree : JsonTree}
    (h : ReadsAs reader tree (value? tree)) :
    ReadsAs (nullable reader) tree (tree.nullable? value?) := by
  refine readsAs_of_peeked fun text b bytes rest spelled opens begins hr => ?_
  by_cases null : tree = .null
  · subst null
    cases spelled
    cases opens
    cases begins
    rfl
  · have read := (h.map some).here spelled hr
    rw [if_neg fun same => null ((Opens.null_iff opens).mp same), ← begins, read]
    cases tree with
    | null => exact absurd rfl null
    | _ => rfl

/-- The items of a list are read one after the other, by induction on how the list is laid out. -/
theorem got_itemsOnto {reader : JsonReader α} {item? : JsonTree → Option α} {first : Bool}
    {items : List JsonTree} {text : List Char} (h : Items Spells first items text)
    (each : ∀ item ∈ items, ReadsAs reader item (item? item)) (found : List α) {fuel : Nat}
    (enough : items.length < fuel) (rest : Bytes) :
    got (itemsOnto reader fuel first found) (octets text ++ ascii ']' :: rest) =
      (items.mapM item?).map fun as => (found.reverse ++ as, ascii ']' :: rest) := by
  induction h generalizing found fuel with
  | @nil first gap hg =>
    obtain ⟨fuel, rfl⟩ := Nat.exists_eq_add_one.mpr enough
    show _ = some (found.reverse ++ [], _)
    rw [List.append_nil]
    refine got_of_ok ?_
    rw [itemsOnto, bind_of_ok (hasItem_closed hg first rest)]
    rfl
  | @cons first item items before after text more hb ha head tail ih =>
    obtain ⟨fuel, rfl⟩ := Nat.exists_eq_add_one.mpr (Nat.zero_lt_of_lt enough)
    have ends : Ends (octets more ++ ascii ']' :: rest) :=
      tail.ends (JsonSkip.ends_closing .list) rest
    have read := (each item List.mem_cons_self).here head ends
    rw [octets_append, List.append_assoc, got, itemsOnto_next hb ha head.begins, ← got, got_bind,
      read, List.mapM_cons]
    cases item? item with
    | none => rfl
    | some a =>
      have fewer : items.length < fuel := by
        rw [List.length_cons] at enough
        omega
      have others := ih (fun other ho => each other (List.mem_cons_of_mem item ho)) (a :: found)
        fewer
      simp only [Option.map_some, Option.bind_some]
      rw [others]
      cases items.mapM item? <;> simp

theorem got_enclosed_items {reader : JsonReader α} {item? : JsonTree → Option α}
    {items : List JsonTree} {inside : List Char} (h : Items Spells true items inside)
    (each : ∀ item ∈ items, ReadsAs reader item (item? item)) (rest : Bytes) :
    got (enclosed closeList (JsonReader.items reader)) (octets inside ++ ascii ']' :: rest) =
      (items.mapM item?).map fun as => (as, rest) := by
  have enough := length_lt_of_items h (fun _ _ _ spelled => spelled.begins.ne_nil)
    (ascii ']' :: rest)
  exact got_enclosed_of_got (got_itemsOnto h each [] enough rest) (closeList_reads rest)

theorem octets_list (inside : List Char) (rest : Bytes) :
    octets ('[' :: (inside ++ [']'])) ++ rest =
      ascii '[' :: (octets inside ++ ascii ']' :: rest) :=
  JsonSkip.octets_container .list inside rest

theorem octets_object (inside : List Char) (rest : Bytes) :
    octets ('\x7b' :: (inside ++ ['\x7d'])) ++ rest =
      ascii '\x7b' :: (octets inside ++ ascii '\x7d' :: rest) :=
  JsonSkip.octets_container .object inside rest

theorem list_readsAs {reader : JsonReader α} {item? : JsonTree → Option α}
    (each : ∀ tree, ReadsAs reader tree (item? tree)) (tree : JsonTree) :
    ReadsAs (list reader) tree (tree.list? item?) := by
  refine readsAs_of_peeked fun text b bytes rest spelled opens begins hr => ?_
  cases opens with
  | number starts =>
    have noList : b ≠ ascii '[' := by
      rintro rfl
      cases starts
    rw [if_neg noList]
    exact got_wrongType _ _
  | list =>
    cases spelled with
    | list items =>
      rw [octets_list] at begins
      cases begins
      rw [if_pos rfl, got_take]
      exact got_enclosed_items items (fun item _ => each item) rest
  | _ =>
    rw [if_neg (by decide)]
    exact got_wrongType _ _

theorem got_spelling (known : List (String × α)) {inside : List Char} (h : Inside inside)
    (rest : Bytes) :
    got (spelling known) (octets inside ++ ascii '\x22' :: rest) =
      (JsonTree.spelling? known inside).map fun a => (a, rest) := by
  rw [spelling, got_bind, JsonTree.got_body h, JsonTree.spelling?]
  cases text? inside with
  | none => rfl
  | some name =>
    simp only [Option.map_some, Option.bind_some]
    cases known.lookup name <;> rfl

theorem got_colon {gap : List Char} (h : Gap gap) (next : Unit → JsonReader β) (rest : Bytes) :
    got (colon >>= next) (octets gap ++ ascii ':' :: rest) = got (next ()) rest := by
  rw [got, bind_of_ok (colon_reads h rest), got]

/-- The key of an object that makes a choice, with all that stands behind it. -/
def choiceBehind (known : List (String × α)) : JsonReader α := do
  let a ← choiceKey known
  colon
  unit
  match ← peek with
  | none => failHere .endOfObject
  | some c =>
    if c = ascii '\x7d' then
      take
      return a
    else failHere .expectedValue

theorem got_choiceBehind (known : List (String × α)) {members : List (List Char × JsonTree)}
    {inside : List Char} (h : Items SpellsMember true members inside) (rest : Bytes) :
    got (choiceBehind known) (octets inside ++ ascii '\x7d' :: rest) =
      (JsonTree.choice? known (.object members)).map fun a => (a, rest) := by
  cases h with
  | nil hg =>
    rw [choiceBehind, got_bind, choiceKey, got_peek hg (by decide)]
    rfl
  | @cons _ member members before after text more hb ha head tail =>
    cases head with
    | @member key space gap text value hk hs hg hv =>
      rw [octets_append, octets_append, List.append_assoc, List.append_assoc,
        JsonTree.octets_member, choiceBehind, got_bind, choiceKey,
        got_peek (gap_first hb ha) (by decide)]
      simp only [if_true, got_take]
      rw [got_spelling known hk]
      have ends : Ends (octets more ++ ascii '\x7d' :: rest) :=
        tail.ends (JsonSkip.ends_closing .object) rest
      have read := unit_readsAs value text gap _ hv hg ends
      cases found : JsonTree.spelling? known key with
      | none => cases members <;> simp [JsonTree.choice?, found]
      | some a =>
        simp only [Option.map_some, Option.bind_some]
        rw [got_colon hs, got_bind, read]
        cases empty : value.unit? with
        | none => cases members <;> simp [JsonTree.choice?, empty]
        | some u =>
          simp only [Option.map_some, Option.bind_some]
          cases tail with
          | nil hg =>
            have chosen : JsonTree.choice? known (.object [(key, value)]) = some a := by
              simp [JsonTree.choice?, found, empty]
            rw [chosen, got_peek hg (by decide)]
            simp only [if_true]
            rfl
          | cons hb ha head tail =>
            rw [octets_append, octets_append, List.append_assoc, List.append_assoc,
              octets_separated, got_peek hb (by decide)]
            rfl

theorem choice_readsAs (known : List (String × α)) (tree : JsonTree) :
    ReadsAs (choice known) tree (tree.choice? known) := by
  refine readsAs_of_peeked fun text b bytes rest spelled opens begins hr => ?_
  cases opens with
  | number starts =>
    have noObject : b ≠ ascii '\x7b' := by
      rintro rfl
      cases starts
    rw [if_neg (JsonSkip.starts_spec starts).2.2.2.2.2.2, if_neg noObject]
    rfl
  | string =>
    cases spelled with
    | string hi =>
      rw [JsonTree.octets_string] at begins
      cases begins
      rw [if_pos rfl, got_take]
      exact got_spelling known hi rest
  | object =>
    cases spelled with
    | object members =>
      rw [octets_object] at begins
      cases begins
      rw [if_neg (by decide), if_pos rfl, got_take]
      exact got_choiceBehind known members rest
  | _ =>
    rw [if_neg (by decide), if_neg (by decide)]
    rfl

/-- A member is read from its key on, which stands behind a comma or is the first one. -/
theorem got_hasKey (first : Bool) {before after text : List Char} {member : List Char × JsonTree}
    (hb : Gap before) (ha : Gap after) (h : SpellsMember member text) :
    ∃ space gap value, Gap space ∧ Gap gap ∧ Spells member.2 value ∧
      ∀ (next : String → JsonReader β) (none : JsonReader β) (bytes : Bytes),
        got (do if ← hasKey first then do let name ← JsonString.body; next name else none)
          (octets (before ++ separator first ++ after ++ text) ++ bytes) =
            (text? member.1).bind fun name =>
              got (next name) (octets space ++ ascii ':' ::
                (octets gap ++ (octets value ++ bytes))) := by
  cases h with
  | @member key space gap text value hk hs hg hv =>
    refine ⟨space, gap, text, hs, hg, hv, fun next none bytes => ?_⟩
    rw [octets_append, List.append_assoc, JsonTree.octets_member, got_bind,
      got_of_ok (hasKey_next hb ha first _)]
    simp only [Option.bind_some, if_true]
    rw [got_bind, JsonTree.got_body hk]
    cases text? key <;> rfl

end JsonReader

namespace JsonValue

open JsonTree (Spells SpellsMember member? value?)

/-- The members of an object are read one after the other, by induction on how it is laid out. -/
theorem got_membersOnto {reader : JsonReader JsonValue} {meaning? : JsonTree → Option JsonValue}
    {first : Bool} {members : List (List Char × JsonTree)} {text : List Char}
    (h : Items SpellsMember first members text)
    (each : ∀ member ∈ members, ReadsAs reader member.2 (meaning? member.2))
    (found : List (String × JsonValue)) {fuel : Nat} (enough : members.length < fuel)
    (rest : Bytes) :
    got (membersOnto reader fuel first found) (octets text ++ ascii '\x7d' :: rest) =
      (members.mapM (member? meaning?)).map fun results =>
        (found.reverse ++ results, ascii '\x7d' :: rest) := by
  induction h generalizing found fuel with
  | @nil first gap hg =>
    obtain ⟨fuel, rfl⟩ := Nat.exists_eq_add_one.mpr enough
    show _ = some (found.reverse ++ [], _)
    rw [List.append_nil]
    refine got_of_ok ?_
    rw [membersOnto, bind_of_ok (hasKey_closed hg first rest)]
    rfl
  | @cons first member members before after text more hb ha head tail ih =>
    obtain ⟨fuel, rfl⟩ := Nat.exists_eq_add_one.mpr (Nat.zero_lt_of_lt enough)
    have ends : Ends (octets more ++ ascii '\x7d' :: rest) :=
      tail.ends (JsonSkip.ends_closing .object) rest
    obtain ⟨space, gap, value, hs, hg, hv, opened⟩ := got_hasKey first hb ha head
    rw [octets_append, List.append_assoc, membersOnto]
    refine (opened _ _ _).trans ?_
    rw [List.mapM_cons, member?]
    cases JsonTree.text? member.1 with
    | none => rfl
    | some name =>
      simp only [Option.bind_some]
      rw [got_colon hs, got_bind, each member List.mem_cons_self value gap _ hv hg ends]
      cases meaning? member.2 with
      | none => rfl
      | some result =>
        have fewer : members.length < fuel := by
          rw [List.length_cons] at enough
          omega
        have others := ih (fun other ho => each other (List.mem_cons_of_mem member ho))
          ((name, result) :: found) fewer
        simp only [Option.map_some, Option.bind_some]
        rw [others]
        cases members.mapM (member? meaning?) <;> simp

theorem got_enclosed_members {reader : JsonReader JsonValue}
    {meaning? : JsonTree → Option JsonValue} {members : List (List Char × JsonTree)}
    {inside : List Char} (h : Items SpellsMember true members inside)
    (each : ∀ member ∈ members, ReadsAs reader member.2 (meaning? member.2)) (rest : Bytes) :
    got (enclosed closeObject (JsonValue.members reader)) (octets inside ++ ascii '\x7d' :: rest) =
      (members.mapM (member? meaning?)).map fun results => (results, rest) := by
  have enough := length_lt_of_items h (fun _ _ _ spelled => spelled.begins.ne_nil)
    (ascii '\x7d' :: rest)
  exact got_enclosed_of_got (got_membersOnto h each [] enough rest) (closeObject_reads rest)

/-- Any value is read, or refused where it is too deep or not to be read, by induction on the depth
that is left. -/
theorem read_readsAs (depth : Nat) (tree : JsonTree) :
    ReadsAs (read depth) tree (value? depth tree) := by
  induction depth generalizing tree with
  | zero => exact fun text gap rest spelled hg hr => rfl
  | succ depth ih =>
    refine readsAs_of_peeked fun text b bytes rest spelled opens begins hr => ?_
    cases opens with
    | null =>
      cases spelled
      cases begins
      rfl
    | yes =>
      cases spelled
      cases begins
      rfl
    | no =>
      cases spelled
      cases begins
      rfl
    | number starts =>
      cases spelled with
      | number h =>
        obtain ⟨_, _, _, n, t, f, quote⟩ := JsonSkip.starts_spec starts
        rw [if_neg n, if_neg t, if_neg f, if_neg quote, if_pos starts, ← begins, got_bind,
          JsonTree.got_signed h hr, value?]
        cases JsonTree.number? _ <;> rfl
    | string =>
      cases spelled with
      | string hi =>
        rw [JsonTree.octets_string] at begins
        cases begins
        rw [if_neg (by decide), if_neg (by decide), if_neg (by decide), if_pos rfl, got_take,
          got_bind, JsonTree.got_body hi, value?]
        cases JsonTree.text? _ <;> rfl
    | list =>
      cases spelled with
      | list items =>
        rw [octets_list] at begins
        cases begins
        rw [if_neg (by decide), if_neg (by decide), if_neg (by decide), if_neg (by decide),
          if_neg (by decide), if_pos rfl, value?]
        by_cases deep : depth = 0
        · rw [if_pos deep, if_pos deep]
          rfl
        · rw [if_neg deep, if_neg deep, got_take, got_bind,
            got_enclosed_items items fun item _ => ih item]
          cases List.mapM (value? depth) _ <;> rfl
    | object =>
      cases spelled with
      | object members =>
        rw [octets_object] at begins
        cases begins
        rw [if_neg (by decide), if_neg (by decide), if_neg (by decide), if_neg (by decide),
          if_neg (by decide), if_neg (by decide), if_pos rfl, value?]
        by_cases deep : depth = 0
        · rw [if_pos deep, if_pos deep]
          rfl
        · rw [if_neg deep, if_neg deep, got_take, got_bind,
            got_enclosed_members members fun member _ => ih member.2]
          cases List.mapM (member? (value? depth)) _ <;> rfl

end JsonValue

namespace LooseDefines

theorem read_readsAs (depth : Nat) (tree : JsonTree) :
    ReadsAs (read depth) tree ((tree.value? depth).bind ofJson?) := by
  intro text gap rest spelled hg hr
  rw [read, got_bind, JsonValue.read_readsAs depth tree text gap rest spelled hg hr]
  cases tree.value? depth with
  | none => rfl
  | some value =>
    simp only [Option.map_some, Option.bind_some]
    cases ofJson? value <;> rfl

end LooseDefines

end CompilerDriver

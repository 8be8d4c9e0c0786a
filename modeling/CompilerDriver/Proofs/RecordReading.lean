import CompilerDriver.JsonRecord
import CompilerDriver.Proofs.JsonTree

namespace CompilerDriver

open JsonGrammar Utf8 JsonReader

variable {α β : Type}

namespace JsonGrammar

theorem Items.length_le {spells : α → List Char → Prop} {first : Bool} {as : List α}
    {text : List Char} (h : Items spells first as text)
    (nonempty : ∀ a ∈ as, ∀ text, spells a text → text ≠ []) : as.length ≤ text.length := by
  induction h with
  | nil => exact Nat.zero_le _
  | @cons first a as before after text more hb ha head tail ih =>
    have some : 0 < text.length :=
      List.length_pos_iff.mpr (nonempty a List.mem_cons_self text head)
    have fewer := ih fun b hb => nonempty b (List.mem_cons_of_mem a hb)
    simp only [List.length_cons, List.length_append]
    omega

/-- There are fewer items than octets. -/
theorem length_lt_of_items {spells : α → List Char → Prop} {first : Bool} {as : List α}
    {text : List Char} (h : Items spells first as text)
    (nonempty : ∀ a ∈ as, ∀ text, spells a text → text ≠ []) (rest : Bytes) :
    as.length < (octets text ++ rest).length + 1 := by
  have few := h.length_le nonempty
  have long := length_le_octets text
  rw [List.length_append]
  omega

/-- A list between its brackets. It has fewer items than octets. -/
theorem Listed.opened {spells : α → List Char → Prop} {as : List α} {text : List Char}
    (h : Listed spells as text) (nonempty : ∀ a ∈ as, ∀ text, spells a text → text ≠ [])
    (rest : Bytes) :
    ∃ inside, Items spells true as inside ∧
      octets text ++ rest = ascii '[' :: (octets inside ++ ascii ']' :: rest) ∧
      as.length < (octets inside ++ ascii ']' :: rest).length + 1 := by
  obtain @⟨inside, items⟩ := h
  exact ⟨inside, items, by simp [octets_ascii], length_lt_of_items items nonempty _⟩

theorem member_ne_nil {member : String × List Char} {text : List Char} (h : Member member text) :
    text ≠ [] := by
  obtain ⟨⟨_, _⟩, _, _⟩ := h
  simp

theorem Object.opened {members : List (String × List Char)} {text : List Char}
    (h : Object members text) (rest : Bytes) :
    ∃ inside, Items Member true members inside ∧
      octets text ++ rest = ascii '\x7b' :: (octets inside ++ ascii '\x7d' :: rest) ∧
      members.length < (octets inside ++ ascii '\x7d' :: rest).length + 1 := by
  obtain @⟨inside, items⟩ := h
  have few := length_lt_of_items items (fun _ _ _ member => member_ne_nil member)
    (ascii '\x7d' :: rest)
  exact ⟨inside, items, by simp [octets_ascii], few⟩

theorem Object.begins {members : List (String × List Char)} {text : List Char}
    (h : Object members text) : BeginsApart (ascii ']') text := by
  obtain ⟨_⟩ := h
  exact ⟨_, _, octets_ascii (by decide) _, by decide, by decide⟩

end JsonGrammar

namespace JsonReader

variable {spells : α → List Char → Prop} {item : JsonReader α}

/-- An item is read behind what separates it from those before it. -/
theorem itemsOnto_next {first : Bool} {before after text : List Char} (hb : Gap before)
    (ha : Gap after) (begins : BeginsApart (ascii ']') text) (found : List β) {item : JsonReader β}
    (fuel : Nat) (bytes : Bytes) :
    itemsOnto item (fuel + 1) first found
      (octets (before ++ separator first ++ after ++ text) ++ bytes) =
        (item >>= fun b => itemsOnto item fuel false (b :: found)) (octets text ++ bytes) := by
  obtain ⟨b, more, begins, visible, noEnd⟩ := begins
  have whole : octets (before ++ separator first ++ after ++ text) ++ bytes =
      octets (before ++ separator first ++ after) ++ b :: (more ++ bytes) := by
    simp [begins]
  rw [itemsOnto, whole, bind_of_ok (hasItem_next hb ha visible noEnd first _), begins,
    List.cons_append]
  rfl

/-- The items of a list are read one after the other, up to the bracket that closes it. -/
theorem itemsOnto_reads {first : Bool} {as : List α} {text : List Char}
    (h : Items spells first as text)
    (takes : ∀ a ∈ as, ∀ text, spells a text →
      Takes item text a ∧ BeginsApart (ascii ']') text) (found : List α)
    {fuel : Nat} (enough : as.length < fuel) (rest : Bytes) :
    itemsOnto item fuel first found (octets text ++ ascii ']' :: rest) =
      .ok (found.reverse ++ as, ascii ']' :: rest) := by
  induction h generalizing found fuel with
  | @nil first gap hg =>
    obtain ⟨fuel, rfl⟩ := Nat.exists_eq_add_one.mpr enough
    rw [itemsOnto, bind_of_ok (hasItem_closed hg first rest), List.append_nil]
    rfl
  | @cons first a as before after text more hb ha head tail ih =>
    obtain ⟨fuel, rfl⟩ := Nat.exists_eq_add_one.mpr (Nat.zero_lt_of_lt enough)
    obtain ⟨taken, begins⟩ := takes a List.mem_cons_self text head
    have read := taken [] (octets more ++ ascii ']' :: rest) gap_nil
      (tail.ends (JsonSkip.ends_closing .list) rest)
    rw [octets_nil, List.nil_append] at read
    rw [octets_append, List.append_assoc, itemsOnto_next hb ha begins, bind_of_ok read,
      ih (fun b hb => takes b (List.mem_cons_of_mem a hb)) _
        (by rw [List.length_cons] at enough; omega), List.reverse_cons, List.append_assoc]
    rfl

theorem closeList_reads (rest : Bytes) : closeList (ascii ']' :: rest) = (.ok (), rest) := rfl

theorem closeObject_reads (rest : Bytes) :
    closeObject (ascii '\x7d' :: rest) = (.ok (), rest) := rfl

theorem enclosed_of_ok {close : Bytes → Except JsonFault Unit × Bytes} {inside : JsonReader β}
    {bytes middle rest : Bytes} {b : β} (h : inside bytes = .ok (b, middle))
    (hc : close middle = (.ok (), rest)) : enclosed close inside bytes = .ok (b, rest) := by
  rw [enclosed, h]
  simp only [hc]

/-- A list is read wherever it ends, since its last bracket ends it. -/
theorem list_reads {as : List α} {gap text : List Char} (hg : Gap gap) (h : Listed spells as text)
    (takes : ∀ a ∈ as, ∀ text, spells a text →
      Takes item text a ∧ BeginsApart (ascii ']') text) (rest : Bytes) :
    list item (octets gap ++ (octets text ++ rest)) = .ok (as, rest) := by
  obtain ⟨inside, items, whole, enough⟩ :=
    h.opened (fun a ha text spelled => (takes a ha text spelled).2.ne_nil) rest
  have read := itemsOnto_reads items takes [] enough rest
  rw [list, whole, peek_gap hg (by decide)]
  simp only [if_true, take_bind]
  exact enclosed_of_ok read (closeList_reads rest)

/-- A list is a document of its own. -/
theorem document_list_reads {as : List α} {text : List Char} (h : Listed spells as text)
    (takes : ∀ a ∈ as, ∀ text, spells a text →
      Takes item text a ∧ BeginsApart (ascii ']') text) :
    document (list item) (octets text) = .ok as := by
  have read := list_reads gap_nil h takes []
  rw [octets_nil, List.nil_append, List.append_nil] at read
  rw [document, front, whole, read]
  rfl

/-- A value that may be missing is read as itself where it cannot be taken for `null`. -/
theorem nullable_takes {value : JsonReader β} {spelled : β → List Char → Prop} {b : Option β}
    {text : List Char} (h : Nullable spelled b text)
    (takes : ∀ b text, spelled b text → Takes value text b ∧
      BeginsApart (ascii 'n') text) :
    Takes (nullable value) text b := by
  intro gap rest hg hr
  cases h with
  | null =>
    rw [nullable, show octets ['n', 'u', 'l', 'l'] ++ rest =
      ascii 'n' :: (octets ['u', 'l', 'l'] ++ rest) by simp [octets_ascii], peek_gap hg (by decide)]
    rfl
  | @value b text h =>
    obtain ⟨taken, a, bytes, begins, visible, noNull⟩ := takes b text h
    have read := taken.map some [] rest gap_nil hr
    rw [octets_nil, List.nil_append, begins, List.cons_append] at read
    rw [nullable, begins, List.cons_append, peek_gap hg visible]
    simp only [noNull, if_false]
    exact read

end JsonReader

namespace JsonRecord

variable (form : JsonRecord α)

/-- The name of the field that a key belongs to; an unknown key is its own name. -/
def nameOf (key : String) : String :=
  ((form.field? key).map JsonField.name).getD key

/-- The names that are seen once members have been read: unknown ones are not kept. -/
def gathered (members : List (String × List Char)) (seen : List String) : List String :=
  members.foldl
    (fun seen member => ((form.field? member.1).map JsonField.name).toList ++ seen) seen

/-- Reading a member does to a record what its place among those that are seen asks for; `held` is
the record that holds just the members of some names. A member that is unknown does nothing. -/
inductive Absorbs (held : List String → α) : String × List Char → Prop
  | unknown {key : String} {text : List Char} (h : form.field? key = none) :
      Absorbs held (key, text)
  | known {key : String} {text : List Char} {field : JsonField α} {change : α → α}
      (h : form.field? key = some field) (takes : Takes field.read text change)
      (step : ∀ seen, change (held seen) = held (field.name :: seen)) : Absorbs held (key, text)

/-- The separator, the key and the colon of a member. -/
theorem label_reads {before after label : List Char} {key : String} (hb : Gap before)
    (ha : Gap after) (hl : Label key label) (first : Bool) (bytes : Bytes) :
    ∃ inside middle,
      hasKey first (octets (before ++ separator first ++ after) ++ (octets label ++ bytes)) =
        .ok (true, inside) ∧
      JsonString.body inside = .ok (key, middle) ∧ colon middle = .ok ((), bytes) := by
  obtain @⟨quoted, space, hk, hs⟩ := hl
  obtain ⟨inside, letters, begins⟩ := quoted_octets hk (octets space ++ ascii ':' :: bytes)
  have whole : octets (quoted ++ space ++ [':']) ++ bytes =
      octets quoted ++ (octets space ++ ascii ':' :: bytes) := by
    simp [octets_ascii]
  rw [whole, begins]
  exact ⟨_, _, hasKey_next hb ha first _, JsonString.body_reads letters _, colon_reads hs bytes⟩

variable {form} {held : List String → α}

/-- One member, with what separates it from those before it, takes a record from the members seen
so far to one more. -/
theorem membersOnto_member {first : Bool} {before after text : List Char}
    {member : String × List Char} (hb : Gap before) (ha : Gap after) (hm : Member member text)
    (absorbs : form.Absorbs held member) {seen : List String}
    (distinct : (form.gathered [member] seen).Nodup) {rest : Bytes} (hr : Ends rest) (fuel : Nat) :
    form.membersOnto (fuel + 1) first seen (held seen)
      (octets (before ++ separator first ++ after ++ text) ++ rest) =
        form.membersOnto fuel false (form.gathered [member] seen)
          (held (form.gathered [member] seen)) rest := by
  obtain @⟨key, label, gap, text, hl, hg, value⟩ := hm
  obtain ⟨inside, middle, opened, keyed, coloned⟩ :=
    label_reads hb ha hl first (octets gap ++ (octets text ++ rest))
  have whole : octets (before ++ separator first ++ after ++ (label ++ gap ++ text)) ++ rest =
      octets (before ++ separator first ++ after) ++
        (octets label ++ (octets gap ++ (octets text ++ rest))) := by
    simp
  rw [membersOnto, whole, bind_of_ok opened]
  simp only [if_true]
  rw [bind_of_ok keyed]
  cases absorbs with
  | unknown h =>
    simp only [h]
    rw [bind_of_ok coloned, bind_of_ok (JsonSkip.value_takes value gap rest hg hr)]
    simp [gathered, h]
  | @known _ _ field _ h takes step =>
    have fresh : field.name ∉ seen := by
      rw [gathered, List.foldl_cons, h] at distinct
      exact (List.nodup_cons.mp distinct).1
    simp only [h]
    rw [if_neg (by simpa using fresh), bind_of_ok coloned, bind_of_ok (takes gap rest hg hr), step]
    simp [gathered, h]

theorem gathered_cons (member : String × List Char) (members : List (String × List Char))
    (seen : List String) :
    form.gathered (member :: members) seen = form.gathered members (form.gathered [member] seen) :=
  rfl

theorem mem_gathered {name : String} {members : List (String × List Char)} {seen : List String} :
    name ∈ form.gathered members seen ↔
      name ∈ seen ∨ ∃ member ∈ members, ∃ field, form.field? member.1 = some field ∧
        field.name = name := by
  induction members generalizing seen with
  | nil => simp [gathered]
  | cons member members ih =>
    have head : name ∈ form.gathered [member] seen ↔
        name ∈ seen ∨ ∃ field, form.field? member.1 = some field ∧ field.name = name := by
      simp [gathered, or_comm]
    rw [gathered_cons, ih, head, or_assoc]
    simp only [List.mem_cons, exists_eq_or_imp]

theorem gathered_eq (members : List (String × List Char)) (seen : List String) :
    form.gathered members seen =
      (members.filterMap fun member => (form.field? member.1).map JsonField.name).reverse ++ seen := by
  induction members generalizing seen with
  | nil => rfl
  | cons member members ih =>
    rw [gathered_cons, ih, gathered, List.foldl_cons, List.foldl_nil, List.filterMap_cons]
    cases form.field? member.1 with
    | none => rfl
    | some field => simp

theorem suffix_gathered (members : List (String × List Char)) (seen : List String) :
    seen <:+ form.gathered members seen := by
  rw [gathered_eq]
  exact List.suffix_append _ _

theorem nameOf_of_field? {key : String} {field : JsonField α} (h : form.field? key = some field) :
    form.nameOf key = field.name := by
  rw [nameOf, h]
  rfl

/-- No field is seen twice where no two members have one name. -/
theorem nodup_gathered {members : List (String × List Char)}
    (h : (members.map (form.nameOf ·.1)).Nodup) : (form.gathered members []).Nodup := by
  have named : (members.filterMap fun member => (form.field? member.1).map JsonField.name).Sublist
      (members.map (form.nameOf ·.1)) := by
    clear h
    induction members with
    | nil => exact .slnil
    | cons member members ih =>
      cases known : form.field? member.1 with
      | none =>
        rw [List.filterMap_cons_none (by rw [known]; rfl)]
        exact ih.cons _
      | some field =>
        rw [List.filterMap_cons_some (by rw [known]; rfl), List.map_cons, nameOf_of_field? known]
        exact ih.cons_cons _
  rw [gathered_eq, List.append_nil]
  exact List.pairwise_reverse.mpr ((h.sublist named).imp Ne.symm)

theorem isSome_of_nameOf {key name : String} (h : form.nameOf key = name)
    (known : (form.field? name).isSome) : (form.field? key).isSome := by
  cases found : form.field? key with
  | some field => rfl
  | none =>
    rw [nameOf, found] at h
    obtain rfl : key = name := h
    rw [found] at known
    cases known

/-- A field with a member, under whatever spelling, has been seen. -/
theorem mem_gathered_of_mem {name : String} (known : (form.field? name).isSome)
    {members : List (String × List Char)} (h : name ∈ members.map (form.nameOf ·.1))
    (seen : List String) : name ∈ form.gathered members seen := by
  obtain ⟨member, hm, same⟩ := List.mem_map.mp h
  obtain ⟨field, found⟩ := Option.isSome_iff_exists.mp (isSome_of_nameOf same known)
  rw [nameOf_of_field? found] at same
  exact mem_gathered.mpr (.inr ⟨member, hm, field, found, same⟩)

/-- Where no field has a second spelling, every key is its own name. -/
theorem nameOf_eq_self (plain : ∀ field ∈ form.fields, field.aliases = []) (key : String) :
    form.nameOf key = key := by
  cases h : form.field? key with
  | none => rw [nameOf, h]; rfl
  | some field =>
    have spelled := List.find?_some h
    rw [plain field (List.mem_of_find?_eq_some h)] at spelled
    rw [nameOf_of_field? h]
    simpa using spelled

/-- The members of an object are read in any order, up to the bracket that closes it. -/
theorem membersOnto_reads {first : Bool} {members : List (String × List Char)} {text : List Char}
    (h : Items Member first members text) (absorbs : ∀ member ∈ members, form.Absorbs held member)
    {seen : List String} (distinct : (form.gathered members seen).Nodup)
    (complete : form.missing? (form.gathered members seen) = none) {fuel : Nat}
    (enough : members.length < fuel) (rest : Bytes) :
    form.membersOnto fuel first seen (held seen) (octets text ++ ascii '\x7d' :: rest) =
      .ok (held (form.gathered members seen), ascii '\x7d' :: rest) := by
  induction h generalizing seen fuel with
  | @nil first gap hg =>
    obtain ⟨fuel, rfl⟩ := Nat.exists_eq_add_one.mpr enough
    rw [membersOnto, bind_of_ok (hasKey_closed hg first rest)]
    simp only [Bool.false_eq_true, if_false, show form.missing? seen = none from complete]
    rfl
  | @cons first member members before after text more hb ha head tail ih =>
    obtain ⟨fuel, rfl⟩ := Nat.exists_eq_add_one.mpr (Nat.zero_lt_of_lt enough)
    have whole : octets (before ++ separator first ++ after ++ text ++ more) ++
        ascii '\x7d' :: rest = octets (before ++ separator first ++ after ++ text) ++
          (octets more ++ ascii '\x7d' :: rest) := by
      rw [octets_append, List.append_assoc]
    have ends : Ends (octets more ++ ascii '\x7d' :: rest) :=
      tail.ends (JsonSkip.ends_closing .object) rest
    have once : (form.gathered [member] seen).Nodup :=
      distinct.sublist (suffix_gathered members _).sublist
    rw [whole, membersOnto_member hb ha head (absorbs member List.mem_cons_self) once ends]
    have fewer : members.length < fuel := by
      rw [List.length_cons] at enough
      omega
    exact ih (fun other ho => absorbs other (List.mem_cons_of_mem member ho)) distinct complete
      fewer

/-- An object is read as the record that holds what its members say. -/
theorem read_object {members : List (String × List Char)} {gap text : List Char} (hg : Gap gap)
    (h : Object members text) (absorbs : ∀ member ∈ members, form.Absorbs held member)
    (distinct : (form.gathered members []).Nodup)
    (complete : form.missing? (form.gathered members []) = none) (blank : form.blank = held [])
    (rest : Bytes) :
    form.read (octets gap ++ (octets text ++ rest)) =
      .ok (held (form.gathered members []), rest) := by
  obtain ⟨inside, items, whole, enough⟩ := h.opened rest
  have read := membersOnto_reads items absorbs distinct complete enough rest
  rw [JsonRecord.read, whole, peek_gap hg (by decide)]
  simp only [show ascii '\x7b' ≠ ascii '[' by decide, if_false, if_true, take_bind]
  rw [← blank] at read
  exact enclosed_of_ok read (closeObject_reads rest)

theorem object_takes {members : List (String × List Char)} {text : List Char} {record : α}
    (h : Object members text) (absorbs : ∀ member ∈ members, form.Absorbs held member)
    (distinct : (form.gathered members []).Nodup)
    (complete : form.missing? (form.gathered members []) = none) (blank : form.blank = held [])
    (whole : held (form.gathered members []) = record) :
    Takes form.read text record ∧ BeginsApart (ascii ']') text := by
  refine ⟨fun gap rest hg _ => ?_, h.begins⟩
  rw [← whole]
  exact read_object hg h absorbs distinct complete blank rest

variable (form) in
/-- What the members of one field say: the value that each of them has, or else a default. -/
def Tells {β : Type} (members : List (String × List Char)) (name : String)
    (spells : β → List Char → Prop) (absent b : β) : Prop :=
  (∀ member ∈ members, form.nameOf member.1 = name → spells b member.2) ∧
    (name ∉ members.map (form.nameOf ·.1) → b = absent)

/-- The value of a field is the one that its members say, or the default where there are none. -/
theorem Tells.kept {β : Type} {members : List (String × List Char)} {name : String}
    {spells : β → List Char → Prop} {absent b : β} (h : form.Tells members name spells absent b)
    (known : (form.field? name).isSome) :
    (if name ∈ form.gathered members [] then b else absent) = b := by
  split
  · rfl
  next missing => exact (h.2 fun member => missing (mem_gathered_of_mem known member [])).symm

/-- A member is kept by setting the field that it belongs to and no other one. -/
theorem Tells.absorbs {β : Type} {members : List (String × List Char)} {name : String}
    {spells : β → List Char → Prop} {absent b : β} (h : form.Tells members name spells absent b)
    {member : String × List Char} (hm : member ∈ members) {field : JsonField α}
    (known : form.field? member.1 = some field) (named : field.name = name)
    {value : JsonReader β} {set : β → α → α} (reads : field.read = set <$> value)
    (takes : ∀ text, spells b text → Takes value text b)
    (step : ∀ seen, set b (held seen) = held (name :: seen)) : form.Absorbs held member := by
  have spelled : spells b member.2 := h.1 member hm ((nameOf_of_field? known).trans named)
  have taken := (takes member.2 spelled).map set
  rw [← reads] at taken
  exact .known known taken fun seen => by rw [step, named]

end JsonRecord

end CompilerDriver

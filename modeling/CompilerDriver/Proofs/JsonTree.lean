import CompilerDriver.Proofs.ValueSkipping
import Mathlib.Data.List.Forall2

namespace CompilerDriver

open JsonGrammar Utf8 JsonReader

/-- A document without the white space between its tokens. Numbers are kept as they are written,
strings and keys as they are written between their quotes. -/
inductive JsonTree where
  | null
  | bool (b : Bool)
  | number (token : List Char)
  | string (inside : List Char)
  | list (items : List JsonTree)
  | object (members : List (List Char × JsonTree))

namespace JsonTree

mutual

/-- The texts of a value, with any white space between its tokens. -/
inductive Spells : JsonTree → List Char → Prop
  | null : Spells .null ['n', 'u', 'l', 'l']
  | yes : Spells (.bool true) ['t', 'r', 'u', 'e']
  | no : Spells (.bool false) ['f', 'a', 'l', 's', 'e']
  | number {token : List Char} (h : Numeral token) : Spells (.number token) token
  | string {inside : List Char} (h : Inside inside) :
      Spells (.string inside) ('\x22' :: (inside ++ ['\x22']))
  | list {items : List JsonTree} {inside : List Char} (h : Items Spells true items inside) :
      Spells (.list items) ('[' :: (inside ++ [']']))
  | object {members : List (List Char × JsonTree)} {inside : List Char}
      (h : Items SpellsMember true members inside) :
      Spells (.object members) ('\x7b' :: (inside ++ ['\x7d']))

/-- The texts of a member of an object. -/
inductive SpellsMember : List Char × JsonTree → List Char → Prop
  | member {key before after text : List Char} {value : JsonTree} (hk : Inside key)
      (hb : Gap before) (ha : Gap after) (hv : Spells value text) :
      SpellsMember (key, value)
        ('\x22' :: (key ++ '\x22' :: (before ++ ':' :: (after ++ text))))

end

/-- A string without awkward characters may be written as it is. -/
theorem spells_plain {inside : List Char}
    (h : ∀ c ∈ inside, 0x20 ≤ c.toNat ∧ c ≠ '\x22' ∧ c ≠ '\\') :
    Spells (.string inside) ('\x22' :: (inside ++ ['\x22'])) :=
  .string (letters_plain h).inside

theorem spellsMember_plain {key text : List Char} {value : JsonTree}
    (h : ∀ c ∈ key, 0x20 ≤ c.toNat ∧ c ≠ '\x22' ∧ c ≠ '\\') (hv : Spells value text) :
    SpellsMember (key, value) ('\x22' :: (key ++ '\x22' :: ':' :: text)) :=
  .member (letters_plain h).inside gap_nil gap_nil hv

/-- The texts of a document that holds one value. -/
inductive Document : JsonTree → List Char → Prop
  | document {tree : JsonTree} {before text after : List Char} (hb : Gap before)
      (h : Spells tree text) (ha : Gap after) : Document tree (before ++ text ++ after)

/-- The members of an object have these names, one after the other. -/
def Named (names : List String) (members : List (List Char × JsonTree)) : Prop :=
  List.Forall₂ (fun name member => Letters name.toList member.1) names members

@[induction_eliminator]
theorem induct {motive : JsonTree → Prop} (null : motive .null) (bool : ∀ b, motive (.bool b))
    (number : ∀ token, motive (.number token)) (string : ∀ inside, motive (.string inside))
    (list : ∀ items, (∀ item ∈ items, motive item) → motive (.list items))
    (object : ∀ members, (∀ member ∈ members, motive member.2) → motive (.object members)) :
    ∀ tree, motive tree
  | .null => null
  | .bool b => bool b
  | .number token => number token
  | .string inside => string inside
  | .list items => list items fun item _ =>
    induct null bool number string list object item
  | .object members => object members fun member _ =>
    induct null bool number string list object member.2
termination_by tree => sizeOf tree
decreasing_by
  · next h =>
    have smaller := List.sizeOf_lt_of_mem h
    rw [JsonTree.list.sizeOf_spec]
    omega
  · next h =>
    have smaller := List.sizeOf_lt_of_mem h
    have inner : sizeOf member.2 < sizeOf member := by
      obtain ⟨key, value⟩ := member
      show sizeOf value < sizeOf (key, value)
      rw [Prod.mk.sizeOf_spec]
      omega
    rw [JsonTree.object.sizeOf_spec]
    omega

/-- The octets that a value can begin with. -/
inductive Opens : JsonTree → UInt8 → Prop
  | null : Opens .null (ascii 'n')
  | yes : Opens (.bool true) (ascii 't')
  | no : Opens (.bool false) (ascii 'f')
  | number {token : List Char} {b : UInt8} (h : JsonNumeral.starts b = true) :
      Opens (.number token) b
  | string {inside : List Char} : Opens (.string inside) (ascii '\x22')
  | list {items : List JsonTree} : Opens (.list items) (ascii '[')
  | object {members : List (List Char × JsonTree)} : Opens (.object members) (ascii '\x7b')

theorem Spells.opens {tree : JsonTree} {text : List Char} (h : Spells tree text) :
    ∃ b bytes, octets text = b :: bytes ∧ Opens tree b := by
  cases h with
  | null => exact ⟨_, _, octets_ascii (by decide) _, .null⟩
  | yes => exact ⟨_, _, octets_ascii (by decide) _, .yes⟩
  | no => exact ⟨_, _, octets_ascii (by decide) _, .no⟩
  | number h =>
    obtain ⟨b, bytes, begins, starts, _⟩ := JsonNumeral.skip_reads h ends_nil
    rw [List.append_nil] at begins
    exact ⟨b, bytes, begins, .number starts⟩
  | string h => exact ⟨_, _, octets_ascii (by decide) _, .string⟩
  | list h => exact ⟨_, _, octets_ascii (by decide) _, .list⟩
  | object h => exact ⟨_, _, octets_ascii (by decide) _, .object⟩

theorem Opens.visible {tree : JsonTree} {b : UInt8} (h : Opens tree b) : isSpace b = false := by
  cases h with
  | number h => exact (JsonSkip.starts_spec h).1
  | _ => decide

theorem Spells.begins {tree : JsonTree} {text : List Char} (h : Spells tree text) :
    BeginsApart (ascii ']') text := by
  obtain ⟨b, bytes, begins, opens⟩ := h.opens
  refine ⟨b, bytes, begins, opens.visible, ?_⟩
  cases opens with
  | number h => exact (JsonSkip.starts_spec h).2.2.1
  | _ => decide

theorem SpellsMember.begins {member : List Char × JsonTree} {text : List Char}
    (h : SpellsMember member text) : BeginsApart (ascii '\x7d') text := by
  cases h with
  | member => exact ⟨_, _, octets_ascii (by decide) _, by decide, by decide⟩

theorem octets_string (inside : List Char) (rest : Bytes) :
    octets ('\x22' :: (inside ++ ['\x22'])) ++ rest =
      ascii '\x22' :: (octets inside ++ ascii '\x22' :: rest) := by
  simp [octets_ascii]

theorem octets_member (key before after text : List Char) (rest : Bytes) :
    octets ('\x22' :: (key ++ '\x22' :: (before ++ ':' :: (after ++ text)))) ++ rest =
      ascii '\x22' :: (octets key ++ ascii '\x22' ::
        (octets before ++ ascii ':' :: (octets after ++ (octets text ++ rest)))) := by
  simp [octets_ascii]

end JsonTree

namespace JsonSkip

variable {α : Type}

/-- An item or a member of a container is passed over, with a step at most for each of its
characters. -/
def PassesIn (frame : Frame) (text : List Char) : Prop :=
  ∀ gap rest frames, Gap gap → Ends rest → ∃ steps ≤ text.length, ∀ fuel,
    proceed (fuel + steps) (frame :: frames) (octets gap ++ (octets text ++ rest)) =
      resume fuel (frame :: frames) rest

variable {frame : Frame} {spells : α → List Char → Prop} {as : List α} {text : List Char}

/-- The items behind the first one are passed over up to the end of their container. -/
theorem resume_items {first : Bool} (h : Items spells first as text) (later : first = false)
    (passed : ∀ a ∈ as, ∀ text, spells a text → PassesIn frame text) (rest : Bytes)
    (frames : List Frame) :
    ∃ steps ≤ text.length, ∀ fuel,
      resume (fuel + steps) (frame :: frames) (octets text ++ frame.closing :: rest) =
        resume fuel frames rest := by
  induction h with
  | @nil first gap hg =>
    exact ⟨0, Nat.zero_le _, fun fuel => resume_closed hg frame fuel frames rest⟩
  | @cons first a as before after text more hb ha head tail ih =>
    subst later
    obtain ⟨otherSteps, fewOthers, others⟩ :=
      ih rfl fun b hb => passed b (List.mem_cons_of_mem a hb)
    obtain ⟨steps, few, passes⟩ := passed a List.mem_cons_self text head after
      (octets more ++ frame.closing :: rest) frames ha (tail.ends (ends_closing frame) rest)
    refine ⟨otherSteps + steps, by simp; omega, fun fuel => ?_⟩
    rw [octets_append, octets_append, List.append_assoc, List.append_assoc, octets_separated,
      resume_comma hb, ← Nat.add_assoc, passes, others]

/-- A container is passed over with all its items. -/
theorem run_container (h : Items spells true as text)
    (begins : ∀ a ∈ as, ∀ text, spells a text → BeginsApart frame.closing text)
    (passed : ∀ a ∈ as, ∀ text, spells a text → PassesIn frame text) {gap : List Char}
    (hg : Gap gap) (rest : Bytes) (frames : List Frame) :
    ∃ steps ≤ text.length + 1, ∀ fuel,
      run (fuel + steps) frames
        (octets gap ++ frame.opening :: (octets text ++ frame.closing :: rest)) =
          resume fuel frames rest := by
  cases h with
  | nil hi => exact ⟨1, by omega, fun fuel => run_empty hg hi frame fuel frames rest⟩
  | @cons _ a as before after text more hb ha head tail =>
    obtain ⟨b, bytes, starts, visible, noEnd⟩ := begins a List.mem_cons_self text head
    obtain ⟨otherSteps, fewOthers, others⟩ := resume_items tail rfl
      (fun b hb => passed b (List.mem_cons_of_mem a hb)) rest frames
    obtain ⟨steps, few, passes⟩ := passed a List.mem_cons_self text head []
      (octets more ++ frame.closing :: rest) frames gap_nil (tail.ends (ends_closing frame) rest)
    refine ⟨otherSteps + steps + 1, by simp; omega, fun fuel => ?_⟩
    have whole : octets (before ++ separator true ++ after ++ text ++ more) ++
        frame.closing :: rest =
          octets (before ++ after) ++ b :: (bytes ++ (octets more ++ frame.closing :: rest)) := by
      simp [separator, starts]
    rw [whole, ← Nat.add_assoc, run_opened hg (gap_append hb ha) frame _ frames visible noEnd,
      ← List.cons_append, ← starts, ← Nat.add_assoc]
    rw [octets_nil, List.nil_append] at passes
    rw [passes, others]

/-- A value is passed over, and reading goes on with the containers around it. -/
def PassesOver (tree : JsonTree) : Prop :=
  ∀ text gap rest frames, tree.Spells text → Gap gap → Ends rest →
    ∃ steps ≤ text.length, ∀ fuel,
      run (fuel + steps) frames (octets gap ++ (octets text ++ rest)) = resume fuel frames rest

theorem passesOver_scalar {tree : JsonTree} (h : ∀ text, tree.Spells text → Scalar text) :
    PassesOver tree := by
  intro text gap rest frames spelled hg hr
  have some : 0 < text.length := List.length_pos_iff.mpr spelled.begins.ne_nil
  obtain ⟨b, bytes, begins, visible, noFrame, _, read⟩ := scalar_reads (h text spelled) hr
  rw [begins]
  exact ⟨1, some, fun fuel => run_of_scalar hg visible noFrame read fuel frames⟩

/-- What stands behind a key is passed over with the key. -/
theorem passesIn_member {member : List Char × JsonTree} {text : List Char}
    (h : JsonTree.SpellsMember member text) (passes : PassesOver member.2) :
    PassesIn .object text := by
  cases h with
  | @member key before after text value hk hb ha hv =>
    intro gap rest frames hg hr
    obtain ⟨steps, few, passes⟩ := passes text after rest (.object :: frames) hv ha hr
    refine ⟨steps, by simp; omega, fun fuel => ?_⟩
    have read : JsonSkip.key (octets gap ++ (octets ('\x22' ::
        (key ++ '\x22' :: (before ++ ':' :: (after ++ text)))) ++ rest)) =
          .ok ((), octets after ++ (octets text ++ rest)) := by
      rw [JsonTree.octets_member, JsonSkip.key, peek_gap hg (by decide)]
      simp only [if_true, take_bind]
      rw [bind_of_ok (JsonString.skip_inside hk _), colon_reads hb]
    rw [← passes fuel, proceed, bind_of_ok read]

theorem passesOver (tree : JsonTree) : PassesOver tree := by
  induction tree with
  | null =>
    refine passesOver_scalar fun text h => ?_
    cases h
    exact .null
  | bool b =>
    refine passesOver_scalar fun text h => ?_
    cases h with
    | yes => exact .true
    | no => exact .false
  | number token =>
    refine passesOver_scalar fun text h => ?_
    cases h with
    | number h => exact .number h
  | string inside =>
    intro text gap rest frames h hg hr
    cases h with
    | string h =>
      refine ⟨1, by simp, fun fuel => ?_⟩
      rw [JsonTree.octets_string]
      refine run_of_scalar hg (by decide) (by decide) ?_ fuel frames
      rw [scalar, peek_here (by decide)]
      exact JsonString.skip_inside h rest
  | list items ih =>
    intro text gap rest frames h hg hr
    cases h with
    | @list _ inside h =>
      have begins : ∀ item ∈ items, ∀ text, item.Spells text →
          BeginsApart Frame.list.closing text := fun _ _ _ spelled => spelled.begins
      obtain ⟨steps, few, passes⟩ := run_container h begins
        (fun item hi text spelled gap rest frames =>
          ih item hi text gap rest (.list :: frames) spelled) hg rest frames
      have whole : octets ('[' :: (inside ++ [']'])) ++ rest = Frame.list.opening ::
          (octets inside ++ Frame.list.closing :: rest) := octets_container .list inside rest
      refine ⟨steps, by simp; omega, fun fuel => ?_⟩
      rw [whole]
      exact passes fuel
  | object members ih =>
    intro text gap rest frames h hg hr
    cases h with
    | @object _ inside h =>
      have begins : ∀ member ∈ members, ∀ text, JsonTree.SpellsMember member text →
          BeginsApart Frame.object.closing text := fun _ _ _ spelled => spelled.begins
      obtain ⟨steps, few, passes⟩ := run_container h begins
        (fun member hm text spelled => passesIn_member spelled (ih member hm)) hg rest frames
      have whole : octets ('\x7b' :: (inside ++ ['\x7d'])) ++ rest = Frame.object.opening ::
          (octets inside ++ Frame.object.closing :: rest) := octets_container .object inside rest
      refine ⟨steps, by simp; omega, fun fuel => ?_⟩
      rw [whole]
      exact passes fuel

/-- A value of any shape and depth is passed over, and no more, whether or not it can be read. -/
theorem value_passes {tree : JsonTree} {text : List Char} (h : tree.Spells text) :
    Takes value text () := by
  intro gap rest hg hr
  obtain ⟨steps, few, passes⟩ := passesOver tree text gap rest [] h hg hr
  show run ((octets gap ++ (octets text ++ rest)).length + 1) [] _ = _
  have long := length_le_octets text
  have enough : (octets gap ++ (octets text ++ rest)).length + 1 =
      ((octets gap).length + (octets text).length - steps + rest.length + 1) + steps := by
    simp only [List.length_append]
    omega
  rw [enough, passes]
  rfl

end JsonSkip

namespace JsonGrammar

open JsonTree (Spells SpellsMember)

/-- A part of a text holds a tree, or the items or the members of one. -/
def HoldsTree : Part → List Char → Prop
  | .value, text => ∃ tree, Spells tree text
  | .inside .list first, text => ∃ items, Items Spells first items text
  | .inside .object first, text => ∃ members, Items SpellsMember first members text

theorem exists_tree_of_scalar {text : List Char} (h : Scalar text) : ∃ tree, Spells tree text := by
  cases h with
  | null => exact ⟨.null, .null⟩
  | true => exact ⟨.bool true, .yes⟩
  | false => exact ⟨.bool false, .no⟩
  | string h =>
    obtain ⟨letters⟩ := h
    exact ⟨.string _, .string letters.inside⟩
  | number h => exact ⟨.number text, .number h⟩

/-- Every text of a value spells a tree, by induction on how it is put together. -/
theorem WellFormed.holdsTree {part : Part} {text : List Char} (h : WellFormed part text) :
    HoldsTree part text := by
  induction h with
  | scalar h => exact exists_tree_of_scalar h
  | @container frame inside h ih =>
    cases frame with
    | list =>
      obtain ⟨items, spelled⟩ := ih
      exact ⟨.list items, .list spelled⟩
    | object =>
      obtain ⟨members, spelled⟩ := ih
      exact ⟨.object members, .object spelled⟩
  | @nil frame first gap h => cases frame <;> exact ⟨[], .nil h⟩
  | @cons frame first before after lead text more hb ha hl head tail ihHead ihTail =>
    obtain ⟨tree, spelled⟩ := ihHead
    cases hl with
    | list =>
      obtain ⟨items, others⟩ := ihTail
      rw [List.append_nil]
      exact ⟨tree :: items, .cons hb ha spelled others⟩
    | object hl hs =>
      obtain ⟨members, others⟩ := ihTail
      obtain @⟨_, space, hk, hc⟩ := hl
      obtain @⟨inside, letters⟩ := hk
      refine ⟨(inside, tree) :: members, ?_⟩
      have all : Items SpellsMember first ((inside, tree) :: members) _ :=
        .cons hb ha (.member letters.inside hc hs spelled) others
      simpa using all

theorem WellFormed.exists_tree {text : List Char} (h : WellFormed .value text) :
    ∃ tree, Spells tree text :=
  h.holdsTree

end JsonGrammar

namespace JsonSkip

/-- A value is neither hidden nor the end of the container around it. -/
theorem value_begins {text : List Char} (h : WellFormed .value text) :
    BeginsApart (ascii ']') text := by
  obtain ⟨_, spelled⟩ := h.exists_tree
  exact spelled.begins

/-- A value of any shape and depth is passed over, and no more. -/
theorem value_takes {text : List Char} (h : WellFormed .value text) : Takes value text () := by
  obtain ⟨_, spelled⟩ := h.exists_tree
  exact value_passes spelled

end JsonSkip

end CompilerDriver

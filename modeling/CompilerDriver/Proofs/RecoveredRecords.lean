import CompilerDriver.Diagnostic
import CompilerDriver.Proofs.Recovery

namespace CompilerDriver

open JsonGrammar Utf8 JsonReader

variable {α β : Type}

namespace JsonRecord

/-- A member of an object, with the change that reading it makes to a record. -/
structure Part (form : JsonRecord α) where
  name : String
  field : JsonField α
  known : form.field? name = some field
  named : field.name = name
  value : JsonValue
  change : α → α
  recovers : Recovers field.read value change

namespace Part

variable {form : JsonRecord α}

def member (part : form.Part) : String × JsonValue :=
  (part.name, part.value)

/-- A member whose field sets one thing in a record. -/
def setting (name : String) {field : JsonField α} (known : form.field? name = some field)
    (named : field.name = name) {reader : JsonReader β} {set : β → α → α}
    (reads : field.read = set <$> reader) {value : JsonValue} {b : β}
    (h : Recovers reader value b) : form.Part where
  name := name
  field := field
  known := known
  named := named
  value := value
  change := set b
  recovers := reads ▸ h.map set

end Part

variable {form : JsonRecord α}

/-- The change that the member of a name makes. -/
def changeOf (parts : List form.Part) (name : String) : α → α :=
  ((parts.find? fun part => part.name == name).map Part.change).getD id

/-- The record once the members of some names have been read, the last one first. -/
def heldOf (parts : List form.Part) (seen : List String) : α :=
  seen.foldr (changeOf parts) form.blank

theorem changeOf_of_mem {parts : List form.Part} (distinct : (parts.map Part.name).Nodup)
    {part : form.Part} (h : part ∈ parts) : changeOf parts part.name = part.change := by
  induction parts with
  | nil => cases h
  | cons head parts ih =>
    rw [List.map_cons, List.nodup_cons] at distinct
    rw [changeOf, List.find?_cons]
    rcases List.mem_cons.mp h with rfl | later
    · rw [beq_self_eq_true]
      rfl
    · have apart : head.name ≠ part.name := fun same =>
        distinct.1 (List.mem_map.mpr ⟨part, later, same.symm⟩)
      rw [beq_false_of_ne apart]
      exact ih distinct.2 later

theorem gathered_parts (text : form.Part → List Char) (parts : List form.Part)
    (seen : List String) :
    form.gathered (parts.map fun part => (part.name, text part)) seen =
      (parts.map Part.name).reverse ++ seen := by
  induction parts generalizing seen with
  | nil => rfl
  | cons part parts ih =>
    have one : form.gathered [(part.name, text part)] seen = part.name :: seen := by
      rw [gathered, List.foldl_cons, List.foldl_nil, part.known, ← part.named]
      rfl
    rw [List.map_cons, gathered_cons, one, ih, List.map_cons, List.reverse_cons, List.append_assoc]
    rfl

/-- What is read of the members of an object is the record that they make one after the other. -/
theorem recovers_of_parts (form : JsonRecord α) (parts : List form.Part)
    (distinct : (parts.map Part.name).Nodup)
    (complete : form.missing? (parts.map Part.name).reverse = none) :
    Recovers form.read (.object (parts.map Part.member))
      (parts.foldl (fun record part => part.change record) form.blank) := by
  choose text wellFormed written takes using fun part : form.Part => part.recovers
  have spelled : List.Forall₂ JsonText.Spelled (parts.map Part.member)
      (parts.map fun part => (part.name, text part)) := by
    rw [List.forall₂_map_left_iff, List.forall₂_map_right_iff]
    exact List.forall₂_same.mpr fun part _ => ⟨rfl, wellFormed part, written part⟩
  obtain ⟨whole, object, octetsOf⟩ := JsonText.object_written spelled
  have gathered : form.gathered (parts.map fun part => (part.name, text part)) [] =
      (parts.map Part.name).reverse := by
    rw [gathered_parts, List.append_nil]
  have absorbs : ∀ member ∈ parts.map fun part => (part.name, text part),
      form.Absorbs (heldOf parts) member := by
    intro member hm
    obtain ⟨part, hp, rfl⟩ := List.mem_map.mp hm
    refine .known part.known (takes part) fun seen => ?_
    rw [← changeOf_of_mem distinct hp, part.named]
    rfl
  have result : heldOf parts (parts.map Part.name).reverse =
      parts.foldl (fun record part => part.change record) form.blank := by
    rw [heldOf, List.foldr_reverse, List.foldl_map]
    exact List.foldl_ext _ _ _ fun record part hp => by rw [changeOf_of_mem distinct hp]
  have once : (parts.map Part.name).reverse.Nodup :=
    List.pairwise_reverse.mpr (distinct.imp Ne.symm)
  have taken := object_takes object absorbs (gathered ▸ once) (gathered ▸ complete) rfl
    (gathered ▸ result)
  exact ⟨whole, object.wellFormed, octetsOf, taken.1⟩

end JsonRecord

namespace Buffer

open JsonRecord

/-- A buffer is read back from its text as either kind of record. -/
theorem recovers (noun : String) (buffer : Buffer) :
    Recovers (form noun).read buffer.toJson buffer := by
  obtain ⟨path, content⟩ := buffer
  have contents := string_recovers content
  cases path with
  | none =>
    exact recovers_of_parts (form noun) [.setting "content" rfl rfl rfl contents]
      (show ["content"].Nodup by decide) rfl
  | some path =>
    have given := nullable_recovers (o := some path) fun s _ => ⟨string_recovers s, .string s⟩
    exact recovers_of_parts (form noun)
      [.setting "path" rfl rfl rfl given, .setting "content" rfl rfl rfl contents]
      (show ["path", "content"].Nodup by decide) rfl

end Buffer

namespace Diagnostic

open JsonRecord

theorem severity_recovers (severity : Severity) :
    Recovers Severity.read severity.toJson severity :=
  choice_recovers (by cases severity <;> decide)

/-- The numbers of a diagnostic are integers of 64 bits. -/
def InRange (diagnostic : Diagnostic) : Prop :=
  (-twoTo 63 ≤ diagnostic.line ∧ diagnostic.line < twoTo 63) ∧
    -twoTo 63 ≤ diagnostic.column ∧ diagnostic.column < twoTo 63
deriving Decidable

theorem recovers {diagnostic : Diagnostic} (h : diagnostic.InRange) :
    Recovers read diagnostic.toJson diagnostic := by
  have file := nullable_recovers (o := diagnostic.file)
    fun s _ => ⟨string_recovers s, .string s⟩
  exact recovers_of_parts form
    [.setting "severity" rfl rfl rfl (severity_recovers diagnostic.severity),
      .setting "kind" rfl rfl rfl (string_recovers diagnostic.kind),
      .setting "description" rfl rfl rfl (string_recovers diagnostic.description),
      .setting "file" rfl rfl rfl file,
      .setting "line_no" rfl rfl rfl (integer_recovers h.1),
      .setting "char_no" rfl rfl rfl (integer_recovers h.2)]
    (show ["severity", "kind", "description", "file", "line_no", "char_no"].Nodup by decide) rfl

end Diagnostic

namespace CompilationResult

open JsonRecord

def InRange (result : CompilationResult) : Prop :=
  ∀ diagnostic ∈ result.warnings ++ result.errors, diagnostic.InRange

theorem recovers {result : CompilationResult} (h : result.InRange) :
    Recovers read result.toJson result := by
  have sourceMap := nullable_recovers (o := result.sourceMap)
    fun s _ => ⟨string_recovers s, .string s⟩
  have warnings := list_recovers result.warnings fun diagnostic hd =>
    Diagnostic.recovers (h diagnostic (List.mem_append_left _ hd))
  have errors := list_recovers result.errors fun diagnostic hd =>
    Diagnostic.recovers (h diagnostic (List.mem_append_right _ hd))
  exact recovers_of_parts form
    [.setting "compiled_code" rfl rfl rfl (string_recovers result.code),
      .setting "source_map" rfl rfl rfl sourceMap,
      .setting "warnings" rfl rfl rfl warnings,
      .setting "errors" rfl rfl rfl errors]
    (show ["compiled_code", "source_map", "warnings", "errors"].Nodup by decide) rfl

end CompilationResult

end CompilerDriver

import CompilerDriver.Buffer
import CompilerDriver.Proofs.RecordReading

namespace CompilerDriver

open JsonGrammar JsonReader

namespace Buffer

/-- The members of an object that tell a buffer, in any order and among any others, its content
under either word for it. -/
structure Told (noun : String) (members : List (String × List Char)) (buffer : Buffer) :
    Prop where
  distinct : (members.map ((form noun).nameOf ·.1)).Nodup
  contented : "content" ∈ members.map ((form noun).nameOf ·.1)
  path : (form noun).Tells members "path" (Nullable Quoted) none buffer.path
  content : (form noun).Tells members "content" Quoted "" buffer.content

/-- A buffer as the text of an object. -/
inductive Spells (noun : String) : Buffer → List Char → Prop
  | object {buffer : Buffer} {members : List (String × List Char)} {text : List Char}
      (h : Object members text) (told : Told noun members buffer) : Spells noun buffer text

/-- A buffer of which only the members of some names are known. -/
def held (buffer : Buffer) (seen : List String) : Buffer where
  path := if "path" ∈ seen then buffer.path else none
  content := if "content" ∈ seen then buffer.content else ""

variable {noun : String} {members : List (String × List Char)} {buffer : Buffer}

theorem field?_eq_none {key : String} (path : key ≠ "path") (content : key ≠ "content")
    (src : key ≠ "src") : (form noun).field? key = none := by
  simp [JsonRecord.field?, form, JsonField.required, JsonField.optional, path.symm, content.symm,
    src]

theorem absorbs (h : Told noun members buffer) :
    ∀ member ∈ members, (form noun).Absorbs (held buffer) member := by
  have quoted (s : String) (text : List Char) (h : Quoted s text) := (quoted_takes s text h).1
  have quotedOrNull (s : Option String) (text : List Char) (h : Nullable Quoted s text) :=
    nullable_takes h quoted_takes
  intro ⟨key, text⟩ hm
  by_cases path : key = "path"
  · subst path
    exact h.path.absorbs hm rfl rfl rfl (quotedOrNull _) (by simp [held])
  by_cases content : key = "content"
  · subst content
    exact h.content.absorbs hm rfl rfl rfl (quoted _) (by simp [held])
  by_cases src : key = "src"
  · subst src
    exact h.content.absorbs hm rfl rfl rfl (quoted _) (by simp [held])
  · exact .unknown (field?_eq_none path content src)

theorem held_gathered (h : Told noun members buffer) :
    held buffer ((form noun).gathered members []) = buffer := by
  rw [held, h.path.kept rfl, h.content.kept rfl]

theorem complete (h : Told noun members buffer) :
    (form noun).missing? ((form noun).gathered members []) = none := by
  have content : "content" ∈ (form noun).gathered members [] :=
    JsonRecord.mem_gathered_of_mem rfl h.contented []
  generalize (form noun).gathered members [] = seen at content ⊢
  simp [JsonRecord.missing?, form, JsonField.required, JsonField.optional, content]

theorem form_takes (buffer : Buffer) (text : List Char) (h : Spells noun buffer text) :
    Takes (form noun).read text buffer ∧ BeginsApart (ascii ']') text := by
  obtain ⟨object, told⟩ := h
  exact JsonRecord.object_takes object (absorbs told) (JsonRecord.nodup_gathered told.distinct)
    (complete told) rfl (held_gathered told)

end Buffer

end CompilerDriver

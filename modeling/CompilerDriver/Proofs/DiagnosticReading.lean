import CompilerDriver.CompilerReply
import CompilerDriver.Proofs.RecordReading

namespace CompilerDriver

open JsonGrammar Utf8 JsonReader

namespace ReportedDiagnostic

/-- An integer of 64 bits. -/
def LongInteger (n : Int) (text : List Char) : Prop :=
  Integer n text ∧ -twoTo 63 ≤ n ∧ n < twoTo 63

/-- What the members of one name say: the value that each of them has, or else a default. -/
def Tells {β : Type} (members : List (String × List Char)) (name : String)
    (spells : β → List Char → Prop) (absent b : β) : Prop :=
  (∀ text, (name, text) ∈ members → spells b text) ∧ (name ∉ members.map Prod.fst → b = absent)

/-- The members of an object that tell a diagnostic, in any order and among any others. -/
structure Told (members : List (String × List Char)) (reported : ReportedDiagnostic) : Prop where
  distinct : (members.map Prod.fst).Nodup
  leveled : "level" ∈ members.map Prod.fst
  level : Tells members "level" Quoted "" reported.level
  description : Tells members "description" Quoted "" reported.description
  source : Tells members "source" (Nullable Quoted) none reported.source
  line : Tells members "line" (Nullable LongInteger) none reported.line
  column : Tells members "column" (Nullable LongInteger) none reported.column
  key : Tells members "key" (Nullable Quoted) none reported.key

/-- A diagnostic as the text of an object. -/
inductive Spells : ReportedDiagnostic → List Char → Prop
  | object {reported : ReportedDiagnostic} {members : List (String × List Char)}
      {text : List Char} (h : Object members text) (told : Told members reported) :
      Spells reported text

/-- A diagnostic of which only the members of some names are known. -/
def held (reported : ReportedDiagnostic) (seen : List String) : ReportedDiagnostic where
  level := if "level" ∈ seen then reported.level else ""
  description := if "description" ∈ seen then reported.description else ""
  source := if "source" ∈ seen then reported.source else none
  line := if "line" ∈ seen then reported.line else none
  column := if "column" ∈ seen then reported.column else none
  key := if "key" ∈ seen then reported.key else none

theorem longInteger_takes (n : Int) (text : List Char) (h : LongInteger n text) :
    Takes integer text n ∧ BeginsApart (ascii 'n') text := by
  obtain ⟨h, range⟩ := h
  refine ⟨integer_takes h range, ?_⟩
  obtain ⟨a, bytes, begins, starts, visible⟩ := JsonNumeral.integer_starts h
  exact ⟨a, bytes, begins, visible, by rintro rfl; cases starts⟩

theorem nameOf_eq (key : String) : form.nameOf key = key :=
  JsonRecord.nameOf_eq_self (by decide) key

theorem names_eq_keys (members : List (String × List Char)) :
    members.map (form.nameOf ·.1) = members.map Prod.fst := by
  simp only [nameOf_eq]

/-- What the members with a key say is what the members of its field say. -/
theorem Tells.ofField {β : Type} {members : List (String × List Char)} {name : String}
    {spells : β → List Char → Prop} {absent b : β} (h : Tells members name spells absent b) :
    form.Tells members name spells absent b := by
  constructor
  · rintro ⟨key, text⟩ hm named
    rw [nameOf_eq] at named
    subst named
    exact h.1 text hm
  · rw [names_eq_keys]
    exact h.2

theorem field?_eq_none {key : String} (level : key ≠ "level") (description : key ≠ "description")
    (source : key ≠ "source") (line : key ≠ "line") (column : key ≠ "column")
    (other : key ≠ "key") :
    form.field? key = none := by
  simp [JsonRecord.field?, form, JsonField.required, JsonField.optional, level.symm,
    description.symm, source.symm, line.symm, column.symm, other.symm]

theorem absorbs {members : List (String × List Char)} {reported : ReportedDiagnostic}
    (h : Told members reported) : ∀ member ∈ members, form.Absorbs (held reported) member := by
  have quoted (s : String) (text : List Char) (h : Quoted s text) := (quoted_takes s text h).1
  have quotedOrNull (s : Option String) (text : List Char) (h : Nullable Quoted s text) :=
    nullable_takes h quoted_takes
  have integerOrNull (n : Option Int) (text : List Char) (h : Nullable LongInteger n text) :=
    nullable_takes h longInteger_takes
  intro ⟨key, text⟩ hm
  by_cases level : key = "level"
  · subst level
    exact h.level.ofField.absorbs hm rfl rfl rfl (quoted _) (by simp [held])
  by_cases description : key = "description"
  · subst description
    exact h.description.ofField.absorbs hm rfl rfl rfl (quoted _) (by simp [held])
  by_cases source : key = "source"
  · subst source
    exact h.source.ofField.absorbs hm rfl rfl rfl (quotedOrNull _) (by simp [held])
  by_cases line : key = "line"
  · subst line
    exact h.line.ofField.absorbs hm rfl rfl rfl (integerOrNull _) (by simp [held])
  by_cases column : key = "column"
  · subst column
    exact h.column.ofField.absorbs hm rfl rfl rfl (integerOrNull _) (by simp [held])
  by_cases other : key = "key"
  · subst other
    exact h.key.ofField.absorbs hm rfl rfl rfl (quotedOrNull _) (by simp [held])
  · exact .unknown (field?_eq_none level description source line column other)

/-- The members that an object has are all that a diagnostic is made of. -/
theorem held_gathered {members : List (String × List Char)} {reported : ReportedDiagnostic}
    (h : Told members reported) : held reported (form.gathered members []) = reported := by
  rw [held, h.level.ofField.kept rfl, h.description.ofField.kept rfl, h.source.ofField.kept rfl,
    h.line.ofField.kept rfl, h.column.ofField.kept rfl, h.key.ofField.kept rfl]

theorem complete {members : List (String × List Char)} {reported : ReportedDiagnostic}
    (h : Told members reported) : form.missing? (form.gathered members []) = none := by
  have level : "level" ∈ form.gathered members [] :=
    JsonRecord.mem_gathered_of_mem rfl (names_eq_keys members ▸ h.leveled) []
  generalize form.gathered members [] = seen at level ⊢
  simp [JsonRecord.missing?, form, JsonField.required, JsonField.optional, level]

theorem form_takes (reported : ReportedDiagnostic) (text : List Char) (h : Spells reported text) :
    Takes form.read text reported ∧ BeginsApart (ascii ']') text := by
  obtain ⟨object, told⟩ := h
  exact JsonRecord.object_takes object (absorbs told)
    (JsonRecord.nodup_gathered (names_eq_keys _ ▸ told.distinct)) (complete told) rfl
    (held_gathered told)

end ReportedDiagnostic

/-- A text that cannot be told from octets before a bracket stays before it. -/
theorem fromBracket_decodeLossy {before after : Bytes} {inside : List Char}
    (clean : ascii '[' ∉ before) :
    fromBracket (decodeLossy (before ++ octets ('[' :: inside) ++ after)) =
      String.ofList ('[' :: inside ++ shown after) := by
  have cut : shown (before ++ octets ('[' :: inside) ++ after) =
      shown before ++ ('[' :: inside ++ shown after) := by
    have bracket :=
      shown_append_of_ascii (a := ascii '[') (by decide) before (octets inside ++ after)
    rw [← shown_octets_append, octets_ascii (by decide), List.append_assoc]
    exact bracket
  have none : ∀ c ∈ shown before, decide (c ≠ '[') = true := by
    intro c member
    rw [decide_eq_true_eq]
    rintro rfl
    exact clean (mem_of_mem_shown (by decide) member)
  show String.ofList ((String.ofList (shown _)).toList.dropWhile _) = _
  rw [cut, String.toList_ofList, List.dropWhile_append_of_pos none]
  rfl

/-- The array is read whatever octets stand around it, text or not. -/
theorem reportedDiagnostics_of_listed {before after : Bytes} {reported : List ReportedDiagnostic}
    {text : List Char} (clean : ascii '[' ∉ before)
    (h : Listed ReportedDiagnostic.Spells reported text) :
    reportedDiagnostics (decodeLossy (before ++ octets text ++ after)) = reported := by
  have read := list_reads gap_nil h (fun d _ => ReportedDiagnostic.form_takes d)
    (octets (shown after))
  obtain @⟨inside, _⟩ := h
  have starts : String.ofList ('[' :: (inside ++ [']']) ++ shown after) ≠ "" := by
    intro empty
    have same := congrArg String.toList empty
    rw [String.toList_ofList] at same
    cases same
  rw [reportedDiagnostics, readReported, fromBracket_decodeLossy clean]
  rw [if_neg starts, encode_ofList, octets_append, JsonReader.front]
  rw [octets_nil, List.nil_append] at read
  simp only [read]

/-- An array with a zero that has a sign is not read. -/
example : reportedDiagnostics "[\x7b\"level\":\"error\",\"line\":-0\x7d]" = [] := by
  decide +kernel

end CompilerDriver

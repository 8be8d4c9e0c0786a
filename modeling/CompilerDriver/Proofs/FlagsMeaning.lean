import CompilerDriver.Proofs.TreeRecords
import Mathlib.Logic.Basic

namespace CompilerDriver

open JsonReader

/-- Something taken from the first source of a name does not depend on the order of sources whose
names differ. -/
theorem either_source {α : Type} {first second : String} (apart : first ≠ second) (name : String)
    (a b c : α) :
    (if first = name then a else if second = name then b else c) =
      if second = name then b else if first = name then a else c :=
  ite_ite_comm _ _ _ _ fun same other => apart (same.trans other.symm)

/-- Changes that each put one member in place may be made in either order. -/
theorem commute_of_graft {α : Type} (change? : String → JsonTree → Option (α → α))
    (graft : String → α → α → α)
    (grafted : ∀ {name : String} {tree : JsonTree} {change : α → α},
      change? name tree = some change →
        ∀ source record, change record = graft name (change source) record)
    (comm : ∀ {first second : String}, first ≠ second → ∀ a b record,
      graft first a (graft second b record) = graft second b (graft first a record))
    {first second : String} {s t : JsonTree} {f g : α → α} (apart : first ≠ second)
    (hf : change? first s = some f) (hg : change? second t = some g) (record : α) :
    f (g record) = g (f record) :=
  calc
    f (g record) = graft first (f record) (graft second (g record) record) := by
      rw [← grafted hg, ← grafted hf]
    _ = graft second (g record) (graft first (f record) record) := comm apart _ _ _
    _ = g (f record) := by rw [← grafted hf, ← grafted hg]

namespace Buffer

/-- What a member of a buffer says. -/
def change? : String → JsonTree → Option (Buffer → Buffer)
  | "path", tree => (tree.nullable? JsonTree.string?).map fun path buffer => { buffer with path }
  | "content", tree => tree.string?.map fun content buffer => { buffer with content }
  | _, _ => none

/-- A buffer with the member of one name as it is in another buffer. -/
def graft (name : String) (source buffer : Buffer) : Buffer where
  path := if name = "path" then source.path else buffer.path
  content := if name = "content" then source.content else buffer.content

theorem change?_eq_graft {name : String} {tree : JsonTree} {change : Buffer → Buffer}
    (h : change? name tree = some change) (source buffer : Buffer) :
    change buffer = graft name (change source) buffer := by
  unfold change? at h
  split at h
  · obtain ⟨path, _, rfl⟩ := Option.map_eq_some_iff.mp h
    simp [graft]
  · obtain ⟨content, _, rfl⟩ := Option.map_eq_some_iff.mp h
    simp [graft]
  · cases h

theorem graft_comm {first second : String} (apart : first ≠ second) (a b buffer : Buffer) :
    graft first a (graft second b buffer) = graft second b (graft first a buffer) := by
  simp only [graft, either_source apart]

/-- What the members of a buffer mean. -/
def meaning (noun : String) : RecordMeaning (form noun) where
  change? := change?
  reads := by
    intro field hf tree
    rcases List.mem_cons.mp hf with rfl | hf
    · exact (nullable_readsAs (string_readsAs tree)).map _
    · obtain rfl := List.mem_singleton.mp hf
      exact (string_readsAs tree).map _
  commute := commute_of_graft change? graft change?_eq_graft graft_comm

end Buffer

namespace LooseFlags

/-- What a member of options says. -/
def change? : String → JsonTree → Option (LooseFlags → LooseFlags)
  | "jsCode", tree => (tree.list? (Buffer.meaning "struct SourceBuffer").ofTree?).map
    fun jsCode flags => { flags with jsCode }
  | "externs", tree => (tree.list? (Buffer.meaning "struct Extern").ofTree?).map
    fun externs flags => { flags with externs }
  | "defines", tree => (tree.nullable? fun value =>
      (value.value? (JsonValue.depthLimit - 1)).bind LooseDefines.ofJson?).map
    fun defines flags => { flags with defines }
  | "languageIn", tree => (tree.nullable? (JsonTree.choice? LanguageMode.documentSpellings)).map
    fun languageIn flags => { flags with languageIn }
  | "languageOut", tree => (tree.nullable? (JsonTree.choice? LanguageMode.documentSpellings)).map
    fun languageOut flags => { flags with languageOut }
  | "compilationLevel", tree => (tree.nullable? (JsonTree.choice? CompilationLevel.spellings)).map
    fun compilationLevel flags => { flags with compilationLevel }
  | "warningLevel", tree => (tree.nullable? (JsonTree.choice? WarningLevel.spellings)).map
    fun warningLevel flags => { flags with warningLevel }
  | "createSourceMap", tree => tree.boolean?.map
    fun createSourceMap flags => { flags with createSourceMap }
  | "processCommonJsModules", tree => tree.boolean?.map
    fun processCommonJsModules flags => { flags with processCommonJsModules }
  | _, _ => none

/-- Options with the member of one name as it is in other options. -/
def graft (name : String) (source flags : LooseFlags) : LooseFlags where
  jsCode := if name = "jsCode" then source.jsCode else flags.jsCode
  externs := if name = "externs" then source.externs else flags.externs
  defines := if name = "defines" then source.defines else flags.defines
  languageIn := if name = "languageIn" then source.languageIn else flags.languageIn
  languageOut := if name = "languageOut" then source.languageOut else flags.languageOut
  compilationLevel :=
    if name = "compilationLevel" then source.compilationLevel else flags.compilationLevel
  warningLevel := if name = "warningLevel" then source.warningLevel else flags.warningLevel
  createSourceMap :=
    if name = "createSourceMap" then source.createSourceMap else flags.createSourceMap
  processCommonJsModules :=
    if name = "processCommonJsModules" then source.processCommonJsModules
    else flags.processCommonJsModules

theorem change?_eq_graft {name : String} {tree : JsonTree} {change : LooseFlags → LooseFlags}
    (h : change? name tree = some change) (source flags : LooseFlags) :
    change flags = graft name (change source) flags := by
  unfold change? at h
  split at h
  case h_10 => cases h
  all_goals
    obtain ⟨value, _, rfl⟩ := Option.map_eq_some_iff.mp h
    simp [graft]

theorem graft_comm {first second : String} (apart : first ≠ second) (a b flags : LooseFlags) :
    graft first a (graft second b flags) = graft second b (graft first a flags) := by
  simp only [graft, either_source apart]

/-- What the members of options mean. -/
def meaning : RecordMeaning form where
  change? := change?
  reads := by
    intro field hf tree
    have mode := nullable_readsAs (choice_readsAs LanguageMode.documentSpellings tree)
    simp only [form, List.mem_cons, List.not_mem_nil, or_false] at hf
    rcases hf with rfl | rfl | rfl | rfl | rfl | rfl | rfl | rfl | rfl
    · exact (list_readsAs (Buffer.meaning "struct SourceBuffer").read_readsAs tree).map _
    · exact (list_readsAs (Buffer.meaning "struct Extern").read_readsAs tree).map _
    · exact (nullable_readsAs (LooseDefines.read_readsAs (JsonValue.depthLimit - 1) tree)).map _
    · exact mode.map _
    · exact mode.map _
    · exact (nullable_readsAs (choice_readsAs CompilationLevel.spellings tree)).map _
    · exact (nullable_readsAs (choice_readsAs WarningLevel.spellings tree)).map _
    · exact (boolean_readsAs tree).map _
    · exact (boolean_readsAs tree).map _
  commute := commute_of_graft change? graft change?_eq_graft graft_comm

/-- Options are read off a document as its members mean, whatever its layout. -/
theorem ofDocument_eq_ok_iff {tree : JsonTree} {text : String}
    (h : tree.Document text.toList) {flags : LooseFlags} :
    ofDocument (Utf8.encode text) = .ok flags ↔ meaning.ofTree? tree = some flags := by
  have read := (meaning.read_readsAs tree).document h
  rw [← Utf8.encode_ofList, String.ofList_toList] at read
  rw [← read, ofDocument]
  cases document form.read (Utf8.encode text) <;> simp [Except.toOption]

end LooseFlags

end CompilerDriver

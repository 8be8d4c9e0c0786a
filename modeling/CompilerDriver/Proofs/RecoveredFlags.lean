import CompilerDriver.Proofs.ExactReading
import CompilerDriver.Proofs.RecoveredDefines
import CompilerDriver.Proofs.RecoveredRecords

namespace CompilerDriver

open JsonReader JsonRecord

theorem LanguageMode.recovers (mode : LanguageMode) : Recovers read mode.toJson mode :=
  choice_recovers (by cases mode <;> decide)

theorem CompilationLevel.recovers (level : CompilationLevel) : Recovers read level.toJson level :=
  choice_recovers (by cases level <;> decide)

theorem WarningLevel.recovers (level : WarningLevel) : Recovers read level.toJson level :=
  choice_recovers (by cases level <;> decide)

namespace LooseFlags

/-- The options that come back for those in a document. -/
def reread (flags : LooseFlags) : LooseFlags :=
  { flags with defines := flags.defines.map LooseDefines.reread }

/-- Options are read back from their text but for their numbers, whether constants are among them
or not. -/
theorem recovers (flags : LooseFlags) : Recovers form.read flags.toJson flags.reread := by
  obtain ⟨jsCode, externs, defines, languageIn, languageOut, compilationLevel, warningLevel,
    createSourceMap, processCommonJsModules⟩ := flags
  have sources := list_recovers jsCode fun buffer _ =>
    buffer.recovers "struct SourceBuffer"
  have declarations := list_recovers externs fun buffer _ => buffer.recovers "struct Extern"
  have mode (mode : Option LanguageMode) := nullable_recovers (o := mode)
    fun mode _ => ⟨mode.recovers, .string mode.name⟩
  have compilation := nullable_recovers (o := compilationLevel)
    fun level _ => ⟨level.recovers, .string level.name⟩
  have warning := nullable_recovers (o := warningLevel)
    fun level _ => ⟨level.recovers, .string level.name⟩
  let front : List form.Part := [
    .setting "jsCode" rfl rfl rfl sources,
    .setting "externs" rfl rfl rfl declarations]
  let back : List form.Part := [
    .setting "languageIn" rfl rfl rfl (mode languageIn),
    .setting "languageOut" rfl rfl rfl (mode languageOut),
    .setting "compilationLevel" rfl rfl rfl compilation,
    .setting "warningLevel" rfl rfl rfl warning,
    .setting "createSourceMap" rfl rfl rfl (boolean_recovers createSourceMap),
    .setting "processCommonJsModules" rfl rfl rfl (boolean_recovers processCommonJsModules)]
  cases defines with
  | none =>
    exact recovers_of_parts form (front ++ back)
      (show ["jsCode", "externs", "languageIn", "languageOut", "compilationLevel", "warningLevel",
        "createSourceMap", "processCommonJsModules"].Nodup by decide) rfl
  | some defines =>
    have deep : JsonValue.depthLimit - 2 ≠ 0 := by decide
    have given := present_recovers (defines.recovers deep) defines.enclosed_toJson
    exact recovers_of_parts form (front ++ .setting "defines" rfl rfl rfl given :: back)
      (show ["jsCode", "externs", "defines", "languageIn", "languageOut", "compilationLevel",
        "warningLevel", "createSourceMap", "processCommonJsModules"].Nodup by decide) rfl

theorem ofDocument_write (flags : LooseFlags) :
    ofDocument flags.toJson.write = .ok flags.reread :=
  flags.recovers.document

/-- No number is among constants that are given in typed form. -/
def Numberless (flags : LooseFlags) : Prop :=
  ∀ defines, flags.defines = some (.typed defines) →
    ∀ name x, defines.get? name ≠ some (.number x)

theorem reread_of_numberless {flags : LooseFlags} (h : flags.Numberless) :
    flags.reread = flags := by
  obtain ⟨jsCode, externs, defines, languageIn, languageOut, compilationLevel, warningLevel,
    createSourceMap, processCommonJsModules⟩ := flags
  match defines with
  | none | some (.one _) | some (.many _) => rfl
  | some (.typed defines) =>
    have kept : defines.reread = defines := (defines.reread_eq_self_iff).mpr
      fun name x found => absurd found (h defines rfl name x)
    simp only [reread, Option.map_some, LooseDefines.reread, kept]

end LooseFlags

/-- Every record is read back from the text that is written for it. -/
theorem JsonReader.document_write_records (buffer : Buffer) {diagnostic : Diagnostic}
    (hd : diagnostic.InRange) {result : CompilationResult} (hr : result.InRange)
    {flags : LooseFlags} (hf : flags.Numberless) :
    document Buffer.readSource buffer.toJson.write = .ok buffer ∧
      document Buffer.readDeclarations buffer.toJson.write = .ok buffer ∧
      document Diagnostic.read diagnostic.toJson.write = .ok diagnostic ∧
      document CompilationResult.read result.toJson.write = .ok result ∧
      LooseFlags.ofDocument flags.toJson.write = .ok flags := by
  refine ⟨(buffer.recovers _).document, (buffer.recovers _).document,
    (Diagnostic.recovers hd).document, (CompilationResult.recovers hr).document, ?_⟩
  rw [LooseFlags.ofDocument_write, LooseFlags.reread_of_numberless hf]

/-- Awkward characters, integers at both ends, and a text that looks like a number. -/
theorem JsonReader.document_write_extremes :
    let buffer : Buffer := ⟨some "\x22", "\x00\\\n😀"⟩
    let diagnostic : Diagnostic :=
      ⟨.error, "K", "\x7f", none, -9223372036854775808, 9223372036854775807⟩
    let result : CompilationResult := ⟨"", some "", [diagnostic], []⟩
    let constants := Defines.ofList [("A", .undefined), ("", .text "1"), ("B", .bool true)]
    let flags : LooseFlags := { LooseFlags.blank with defines := some (.typed constants) }
    diagnostic.InRange ∧ result.InRange ∧ flags.Numberless ∧
      document Buffer.readSource buffer.toJson.write = .ok buffer ∧
      document Buffer.readDeclarations buffer.toJson.write = .ok buffer ∧
      document Diagnostic.read diagnostic.toJson.write = .ok diagnostic ∧
      document CompilationResult.read result.toJson.write = .ok result ∧
      LooseFlags.ofDocument flags.toJson.write = .ok flags := by
  intro buffer diagnostic result constants flags
  have hd : diagnostic.InRange := by decide
  have hr : result.InRange := by
    intro other member
    obtain rfl := List.mem_singleton.mp member
    exact hd
  have hf : flags.Numberless := by
    rintro _ ⟨⟩ name x found
    have member := (Defines.mem_entries_iff constants name _).mpr found
    have entries : constants.entries =
        [("", .text "1"), ("A", .undefined), ("B", .bool true)] := by
      decide +kernel
    rw [entries] at member
    simp at member
  exact ⟨hd, hr, hf, document_write_records buffer hd hr hf⟩

namespace Flags

/-- The options as they may be given. -/
def loose (flags : Flags) : LooseFlags where
  jsCode := flags.jsCode
  externs := flags.externs
  defines := some (.typed flags.defines)
  languageIn := flags.languageIn
  languageOut := flags.languageOut
  compilationLevel := flags.compilationLevel
  warningLevel := flags.warningLevel
  createSourceMap := flags.createSourceMap
  processCommonJsModules := flags.processCommonJsModules

theorem toJson_eq (flags : Flags) : flags.toJson = flags.loose.toJson := rfl

theorem ofDocument_write (flags : Flags) :
    LooseFlags.ofDocument flags.toJson.write = .ok flags.loose.reread := by
  rw [toJson_eq]
  exact flags.loose.ofDocument_write

/-- Options that have been worked out are accepted in place of those that were given. They come
back with each number as stepwise reading makes it, and so as they were just when that keeps every
number, as it keeps those with a short numeral. -/
theorem normalize_ofDocument_write (given : LooseFlags) :
    ∃ back, LooseFlags.ofDocument given.normalize.toJson.write = .ok back ∧
      back.normalize = { given.normalize with defines := given.normalize.defines.reread } ∧
      (∀ name, back.normalize.defines.get? name =
        (given.normalize.defines.get? name).map DefineValue.reread) ∧
      (back.normalize = given.normalize ↔
        ∀ name x, given.normalize.defines.get? name = some (.number x) → x.reread = x) ∧
      ((∀ name x, given.normalize.defines.get? name = some (.number x) → x.Short) →
        back.normalize = given.normalize) := by
  generalize given.normalize = flags
  have same : flags.loose.reread.normalize = flags ↔
      ∀ name x, flags.defines.get? name = some (.number x) → x.reread = x := by
    rw [← Defines.reread_eq_self_iff]
    constructor
    · exact congrArg Flags.defines
    · intro kept
      show { flags with defines := flags.defines.reread } = flags
      rw [kept]
  refine ⟨flags.loose.reread, flags.ofDocument_write, rfl, flags.defines.get?_reread, same, ?_⟩
  intro short
  exact same.mpr fun name x found => Double.reread_of_short (short name x found)

/-- A number that takes two roundings to read comes back as its neighbour. -/
theorem tiny_define_changed :
    let given : LooseFlags := { LooseFlags.blank with defines := some (.one "A=1e-23") }
    (LooseFlags.ofDocument given.normalize.toJson.write).map LooseFlags.normalize ≠
      .ok given.normalize := by
  intro given
  rw [ofDocument_write]
  intro same
  have defines := congrArg Flags.defines (Except.ok.inj same)
  revert defines
  decide +kernel

end Flags

end CompilerDriver

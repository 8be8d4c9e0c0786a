import CompilerDriver.Buffer
import CompilerDriver.CompilerOption
import CompilerDriver.Define

namespace CompilerDriver

/-- Options as a flag file or a caller gives them, with the constants in a loose form. -/
structure LooseFlags where
  jsCode : List Buffer
  externs : List Buffer
  defines : Option LooseDefines
  languageIn : Option LanguageMode
  languageOut : Option LanguageMode
  compilationLevel : Option CompilationLevel
  warningLevel : Option WarningLevel
  createSourceMap : Bool
  processCommonJsModules : Bool
deriving DecidableEq

/-- Options whose constants have been worked out. -/
structure Flags where
  jsCode : List Buffer
  externs : List Buffer
  defines : Defines
  languageIn : Option LanguageMode
  languageOut : Option LanguageMode
  compilationLevel : Option CompilationLevel
  warningLevel : Option WarningLevel
  createSourceMap : Bool
  processCommonJsModules : Bool
deriving DecidableEq

def JsonValue.ofOption {α : Type} (write : α → JsonValue) : Option α → JsonValue
  | some a => write a
  | none => .null

namespace LooseFlags

/-- No option given. -/
def blank : LooseFlags where
  jsCode := []
  externs := []
  defines := none
  languageIn := none
  languageOut := none
  compilationLevel := none
  warningLevel := none
  createSourceMap := false
  processCommonJsModules := false

def normalize (flags : LooseFlags) : Flags where
  jsCode := flags.jsCode
  externs := flags.externs
  defines := normalizeDefines flags.defines
  languageIn := flags.languageIn
  languageOut := flags.languageOut
  compilationLevel := flags.compilationLevel
  warningLevel := flags.warningLevel
  createSourceMap := flags.createSourceMap
  processCommonJsModules := flags.processCommonJsModules

/-- The shape of options in a document. -/
def form : JsonRecord LooseFlags where
  noun := "struct RawFlags"
  blank := blank
  fields := [
    .optional "jsCode" (JsonReader.list Buffer.readSource)
      fun jsCode flags => { flags with jsCode },
    .optional "externs" (JsonReader.list Buffer.readDeclarations)
      fun externs flags => { flags with externs },
    .optional "defines" (JsonReader.nullable (LooseDefines.read (JsonValue.depthLimit - 1)))
      fun defines flags => { flags with defines },
    .optional "languageIn" (JsonReader.nullable LanguageMode.read)
      fun languageIn flags => { flags with languageIn },
    .optional "languageOut" (JsonReader.nullable LanguageMode.read)
      fun languageOut flags => { flags with languageOut },
    .optional "compilationLevel" (JsonReader.nullable CompilationLevel.read)
      fun compilationLevel flags => { flags with compilationLevel },
    .optional "warningLevel" (JsonReader.nullable WarningLevel.read)
      fun warningLevel flags => { flags with warningLevel },
    .optional "createSourceMap" JsonReader.boolean
      fun createSourceMap flags => { flags with createSourceMap },
    .optional "processCommonJsModules" JsonReader.boolean
      fun processCommonJsModules flags => { flags with processCommonJsModules }]

/-- Options from the octets of a document. -/
def ofDocument (document : Bytes) : Except JsonError LooseFlags :=
  JsonReader.document form.read document

def toJson (flags : LooseFlags) : JsonValue :=
  .object (
    [("jsCode", JsonValue.list (flags.jsCode.map Buffer.toJson)),
      ("externs", .list (flags.externs.map Buffer.toJson))] ++
    (flags.defines.toList.map fun defines => ("defines", defines.toJson)) ++
    [("languageIn", .ofOption LanguageMode.toJson flags.languageIn),
      ("languageOut", .ofOption LanguageMode.toJson flags.languageOut),
      ("compilationLevel", .ofOption CompilationLevel.toJson flags.compilationLevel),
      ("warningLevel", .ofOption WarningLevel.toJson flags.warningLevel),
      ("createSourceMap", .bool flags.createSourceMap),
      ("processCommonJsModules", .bool flags.processCommonJsModules)])

end LooseFlags

namespace Flags

def toJson (flags : Flags) : JsonValue :=
  .object [
    ("jsCode", .list (flags.jsCode.map Buffer.toJson)),
    ("externs", .list (flags.externs.map Buffer.toJson)),
    ("defines", flags.defines.toJson),
    ("languageIn", .ofOption LanguageMode.toJson flags.languageIn),
    ("languageOut", .ofOption LanguageMode.toJson flags.languageOut),
    ("compilationLevel", .ofOption CompilationLevel.toJson flags.compilationLevel),
    ("warningLevel", .ofOption WarningLevel.toJson flags.warningLevel),
    ("createSourceMap", .bool flags.createSourceMap),
    ("processCommonJsModules", .bool flags.processCommonJsModules)]

end Flags

end CompilerDriver

import CompilerDriver.JsonRecord
import CompilerDriver.Flags

namespace CompilerDriver

inductive Severity where
  | warning
  | error
deriving DecidableEq

namespace Severity

def name : Severity → String
  | warning => "warning"
  | error => "error"

def spellings : List (String × Severity) :=
  [warning, error].map fun severity => (severity.name, severity)

def read : JsonReader Severity :=
  JsonReader.choice spellings

def toJson (severity : Severity) : JsonValue :=
  .string severity.name

end Severity

/-- A warning or an error. Lines count from one and columns from zero; a negative number stands
for an unknown one. -/
structure Diagnostic where
  severity : Severity
  kind : String
  description : String
  file : Option String
  line : Int
  column : Int
deriving DecidableEq

/-- The outcome of one compilation. -/
structure CompilationResult where
  code : String
  sourceMap : Option String
  warnings : List Diagnostic
  errors : List Diagnostic
deriving DecidableEq

namespace Diagnostic

def toJson (diagnostic : Diagnostic) : JsonValue :=
  .object [
    ("severity", diagnostic.severity.toJson),
    ("kind", .string diagnostic.kind),
    ("description", .string diagnostic.description),
    ("file", .ofOption .string diagnostic.file),
    ("line_no", .number (.integer diagnostic.line)),
    ("char_no", .number (.integer diagnostic.column))]

/-- The shape of a diagnostic in a document; only an object may leave the file out. -/
def form : JsonRecord Diagnostic where
  noun := "struct Diagnostic"
  blank := ⟨.warning, "", "", none, -1, -1⟩
  fields := [
    .required "severity" Severity.read fun severity d => { d with severity },
    .required "kind" JsonReader.string fun kind d => { d with kind },
    .required "description" JsonReader.string fun description d => { d with description },
    { JsonField.required "file" (JsonReader.nullable JsonReader.string)
        fun file (d : Diagnostic) => { d with file } with
      neededInObject := false },
    .required "line_no" JsonReader.integer fun line d => { d with line },
    .required "char_no" JsonReader.integer fun column d => { d with column }]

def read : JsonReader Diagnostic :=
  form.read

end Diagnostic

namespace CompilationResult

/-- Errors fail a build, warnings alone never do. -/
def hasFatalErrors (result : CompilationResult) : Bool :=
  !result.errors.isEmpty

def toJson (result : CompilationResult) : JsonValue :=
  .object [
    ("compiled_code", .string result.code),
    ("source_map", .ofOption .string result.sourceMap),
    ("warnings", .list (result.warnings.map Diagnostic.toJson)),
    ("errors", .list (result.errors.map Diagnostic.toJson))]

/-- The shape of a result in a document; only an object may leave the source map out. -/
def form : JsonRecord CompilationResult where
  noun := "struct CompilationResult"
  blank := ⟨"", none, [], []⟩
  fields := [
    .required "compiled_code" JsonReader.string fun code result => { result with code },
    { JsonField.required "source_map" (JsonReader.nullable JsonReader.string)
        fun sourceMap (result : CompilationResult) => { result with sourceMap } with
      neededInObject := false },
    .required "warnings" (JsonReader.list Diagnostic.read) fun warnings result =>
      { result with warnings },
    .required "errors" (JsonReader.list Diagnostic.read) fun errors result => { result with errors }]

def read : JsonReader CompilationResult :=
  form.read

end CompilationResult

end CompilerDriver

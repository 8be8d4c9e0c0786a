import CompilerDriver.CompilerProcess
import CompilerDriver.Diagnostic

namespace CompilerDriver

/-- A diagnostic as the compiler writes it. -/
structure ReportedDiagnostic where
  level : String
  description : String
  source : Option String
  line : Option Int
  column : Option Int
  key : Option String
deriving DecidableEq

namespace ReportedDiagnostic

/-- The shape of a diagnostic that the compiler writes; only the level must be there. -/
def form : JsonRecord ReportedDiagnostic where
  noun := "struct JsonDiagnostic"
  blank := ⟨"", "", none, none, none, none⟩
  fields := [
    .required "level" JsonReader.string fun level d => { d with level },
    .optional "description" JsonReader.string fun description d => { d with description },
    .optional "source" (JsonReader.nullable JsonReader.string) fun source d => { d with source },
    .optional "line" (JsonReader.nullable JsonReader.integer) fun line d => { d with line },
    .optional "column" (JsonReader.nullable JsonReader.integer) fun column d => { d with column },
    .optional "key" (JsonReader.nullable JsonReader.string) fun key d => { d with key }]

/-- Only warnings and errors are diagnostics. -/
def severity? (reported : ReportedDiagnostic) : Option Severity :=
  if reported.level = "error" then some .error
  else if reported.level = "warning" then some .warning
  else none

/-- The diagnostic to show. The file is called by the name that stands for it in `names`; an
empty file name is none. -/
def toDiagnostic? (names : List (String × String)) (reported : ReportedDiagnostic) :
    Option Diagnostic :=
  reported.severity?.map fun severity =>
    { severity
      kind := reported.key.getD severity.name
      description := reported.description
      file := (reported.source.filter (· ≠ "")).map fun file => (names.lookup file).getD file
      line := reported.line.getD (-1)
      column := reported.column.getD (-1) }

end ReportedDiagnostic

/-- The rest of a text from the first opening bracket on. -/
def fromBracket (text : String) : String :=
  String.ofList (text.toList.dropWhile (· ≠ '['))

/-- The array of diagnostics that starts at the first opening bracket. What stands around it does
not matter; without a bracket there is nothing to read. -/
def readReported (stderr : String) : Option (Except JsonError (List ReportedDiagnostic)) :=
  let text := fromBracket stderr
  if text = "" then none
  else some (JsonReader.front (JsonReader.list ReportedDiagnostic.form.read) (Utf8.encode text))

/-- The diagnostics found in a text; an array that cannot be read holds none. -/
def reportedDiagnostics (stderr : String) : List ReportedDiagnostic :=
  match readReported stderr with
  | some (.ok reported) => reported
  | _ => []

/-- A piece of the compiler's output. -/
structure OutputRecord where
  src : String
  sourceMap : Option String
deriving DecidableEq

namespace OutputRecord

def form : JsonRecord OutputRecord where
  noun := "struct StreamOutput"
  blank := ⟨"", none⟩
  fields := [
    .optional "src" JsonReader.string fun src piece => { piece with src },
    { JsonField.optional "source_map" (JsonReader.nullable JsonReader.string)
        fun sourceMap (piece : OutputRecord) => { piece with sourceMap } with
      aliases := ["sourceMap"] }]

/-- The text without the line ends it ends with. -/
def trimLineEnds (text : String) : String :=
  String.ofList (text.toList.reverse.dropWhile fun c => c = '\n' || c = '\r').reverse

/-- All pieces in order, without the line ends behind the last one. -/
def joined (pieces : List OutputRecord) : String :=
  trimLineEnds (String.join (pieces.map OutputRecord.src))

/-- The last source map that is not empty. -/
def lastSourceMap (pieces : List OutputRecord) : Option String :=
  ((pieces.filterMap OutputRecord.sourceMap).filter (· ≠ "")).getLast?

end OutputRecord

/-- White space of the basic character set; form feeds count, vertical tabs do not. -/
def isAsciiBlank (b : UInt8) : Bool :=
  b == 0x20 || b == 0x09 || b == 0x0A || b == 0x0C || b == 0x0D

/-- The code and the source map in the compiler's output. -/
def readOutput (stdout : Bytes) : Except JsonError (String × Option String) :=
  if stdout.all isAsciiBlank then .ok ("", none)
  else
    (JsonReader.document (JsonReader.list OutputRecord.form.read) stdout).map fun pieces =>
      (OutputRecord.joined pieces, OutputRecord.lastSourceMap pieces)

end CompilerDriver

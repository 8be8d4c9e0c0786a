import CompilerDriver.Caret
import CompilerDriver.Diagnostic
import CompilerDriver.Sink

namespace CompilerDriver

namespace Report

/-- Lines of context before and after the offending line. -/
def contextLines : Nat := 4

/-- The content that a diagnostic is about. A lone buffer is taken whatever its name; sources are
searched before externs, since both may hold a name. -/
def resolve (file : Option String) (sources externs : List Buffer) : Option String :=
  file.bind fun file =>
    match sources, externs with
    | [only], [] => some only.content
    | [], [only] => some only.content
    | _, _ =>
      ((sources.find? (·.isNamed file)).or (externs.find? (·.isNamed file))).map Buffer.content

/-- The pieces between the line feeds of a text, the last one included when it is empty. -/
def splitLines (content : String) : List String :=
  (content.toList.splitOn '\n').map String.ofList

/-- The place of the diagnostic's line, from zero; absent for a line before the first. -/
def lineIndex (diagnostic : Diagnostic) : Option Nat :=
  if 1 ≤ diagnostic.line then some (diagnostic.line - 1).toNat else none

/-- The lines before the offending one: as many as context has, or none. -/
def linesBefore (lines : List String) : Option Nat → List String
  | none => []
  | some index =>
    if index < contextLines then [] else (lines.drop (index - contextLines)).take contextLines

/-- The lines behind the offending one. -/
def linesAfter (lines : List String) : Option Nat → List String
  | none => []
  | some index => (lines.drop (index + 1)).take contextLines

/-- The offending line, empty where the content has no such line. -/
def offendingLine (lines : List String) (index : Option Nat) : String :=
  (index.bind (lines[·]?)).getD ""

def escapeSign : String := "\x1b"

def reset : String := escapeSign ++ "[0m"

def severityColor : Severity → String
  | .error => escapeSign ++ "[91m"
  | .warning => escapeSign ++ "[93m"

def caretColor : String := escapeSign ++ "[92m"

def paint (mode : ColorMode) (color text : String) : String :=
  if mode.enabled then color ++ text ++ reset else text

/-- The line that says where a diagnostic is from. -/
def header (diagnostic : Diagnostic) : String :=
  if diagnostic.file = none ∧ diagnostic.line < 0 then diagnostic.kind
  else
    diagnostic.file.getD "null" ++ ":" ++ toString diagnostic.line ++ " (" ++ diagnostic.kind ++ ")"

/-- The offending line with a caret under the column, and the lines around it. -/
def context (mode : ColorMode) (diagnostic : Diagnostic) (content : String) : List String :=
  let lines := splitLines content
  let index := lineIndex diagnostic
  let line := offendingLine lines index
  linesBefore lines index ++
    [paint mode (severityColor diagnostic.severity) line,
      paint mode caretColor (Caret.lead line diagnostic.column ++ "^")] ++
    linesAfter lines index

/-- A whole number as a signed word of 64 bits; absent where it is none. -/
def signedWord? (n : Int) : Option Int64 :=
  if Int64.minValue.toInt ≤ n ∧ n ≤ Int64.maxValue.toInt then some (Int64.ofInt n) else none

/-- A whole number as an unsigned word of 64 bits; absent where it is none. -/
def word? (n : Int) : Option UInt64 :=
  if 0 ≤ n ∧ n < UInt64.size then some (UInt64.ofNat n.toNat) else none

def linesBeforeWord (lines : List String) (index : Option UInt64) : List String :=
  (index.bind fun index => word? (index.toNat - contextLines : Int)).elim [] fun start =>
    (lines.drop start.toNat).take contextLines

def linesAfterWord? (lines : List String) : Option UInt64 → Option (List String)
  | none => some []
  | some index =>
    (word? (index.toNat + 1 : Int)).map fun next => (lines.drop next.toNat).take contextLines

/-- The context of a diagnostic as words of 64 bits give it; absent where the line number goes
beyond them. -/
def contextInWords? (mode : ColorMode) (diagnostic : Diagnostic) (content : String) :
    Option (List String) := do
  let lines := splitLines content
  let number ← signedWord? diagnostic.line
  let place ← signedWord? (number.toInt - 1)
  let index := word? place.toInt
  let behind ← linesAfterWord? lines index
  let line := offendingLine lines (index.map UInt64.toNat)
  return linesBeforeWord lines index ++
    [paint mode (severityColor diagnostic.severity) line,
      paint mode caretColor (Caret.lead line diagnostic.column ++ "^")] ++ behind

/-- All lines about one diagnostic, an empty one at the end. -/
def block (mode : ColorMode) (sources externs : List Buffer) (diagnostic : Diagnostic) :
    List String :=
  [header diagnostic, diagnostic.description] ++
    (resolve diagnostic.file sources externs).elim [] (context mode diagnostic) ++ [""]

/-- The lines about all warnings, then all errors. -/
def lines (mode : ColorMode) (sources externs : List Buffer) (result : CompilationResult) :
    List String :=
  (result.warnings ++ result.errors).flatMap (block mode sources externs)

/-- Lines as they are written. -/
def written (lines : List String) : List Bytes :=
  lines.map fun line => Utf8.encode (line ++ "\n")

/-- The whole report. -/
def text (mode : ColorMode) (sources externs : List Buffer) (result : CompilationResult) : Bytes :=
  (written (lines mode sources externs result)).flatten

/-- Writes the offending line with a caret under the column, and the lines around it. -/
def writeContext (mode : ColorMode) (diagnostic : Diagnostic) (content : String) :
    Writing Unit := do
  let lines := splitLines content
  let index := lineIndex diagnostic
  (linesBefore lines index).forM Writing.line
  let line := offendingLine lines index
  Writing.line (paint mode (severityColor diagnostic.severity) line)
  Writing.line (paint mode caretColor (Caret.lead line diagnostic.column ++ "^"))
  (linesAfter lines index).forM Writing.line

/-- Writes one diagnostic. -/
def writeDiagnostic (mode : ColorMode) (sources externs : List Buffer) (diagnostic : Diagnostic) :
    Writing Unit := do
  Writing.line (header diagnostic)
  Writing.line diagnostic.description
  (resolve diagnostic.file sources externs).forM (writeContext mode diagnostic)
  Writing.line ""

/-- Writes all warnings, then all errors, and flushes the stream behind them. -/
def write (mode : ColorMode) (sources externs : List Buffer) (result : CompilationResult) :
    Writing Unit := do
  (result.warnings ++ result.errors).forM (writeDiagnostic mode sources externs)
  Writing.flush

/-- Writes a report and says whether the build has failed. -/
def judge (mode : ColorMode) (sources externs : List Buffer) (result : CompilationResult) :
    Writing Bool := do
  write mode sources externs result
  return result.hasFatalErrors

/-- One use of a renderer: a diagnostic by itself, or a whole report with the flush behind it. -/
inductive Step where
  | diagnostic (diagnostic : Diagnostic) (sources externs : List Buffer)
  | report (result : CompilationResult) (sources externs : List Buffer)

def writeStep (mode : ColorMode) : Step → Writing Unit
  | .diagnostic diagnostic sources externs => writeDiagnostic mode sources externs diagnostic
  | .report result sources externs => write mode sources externs result

/-- Uses one renderer again and again, also behind a use that has failed. -/
def writeSteps (mode : ColorMode) : List Step → Sink → List (Except IoFault Unit) × Sink
  | [], sink => ([], sink)
  | step :: more, sink =>
    let (outcome, sink) := writeStep mode step sink
    let (outcomes, sink) := writeSteps mode more sink
    (outcome :: outcomes, sink)

end Report

end CompilerDriver

import CompilerDriver.Base64
import CompilerDriver.Diagnostic
import CompilerDriver.Sink

namespace CompilerDriver

namespace CompiledText

def sourceMapStart : String :=
  "//# sourceMappingURL=data:application/json;base64,"

/-- The comment that carries a source map. -/
def sourceMapComment (sourceMap : String) : String :=
  sourceMapStart ++ String.ofList (Base64.encode (Utf8.encode sourceMap))

/-- The compiled code, and behind it the comment for a source map that is not empty. -/
def lines (result : CompilationResult) : List String :=
  result.code ::
    ((result.sourceMap.filter (· ≠ "")).map sourceMapComment).toList

def pieces (result : CompilationResult) : List Bytes :=
  (lines result).map fun line => Utf8.encode (line ++ "\n")

def text (result : CompilationResult) : Bytes :=
  (pieces result).flatten

/-- Writes the compiled code and its source map, and flushes the stream behind them. -/
def write (result : CompilationResult) : Writing Unit := do
  Writing.line result.code
  (result.sourceMap.filter (· ≠ "")).forM fun sourceMap => Writing.line (sourceMapComment sourceMap)
  Writing.flush

end CompiledText

end CompilerDriver

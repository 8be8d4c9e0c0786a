import CompilerDriver.Acquisition

namespace CompilerDriver

/-- The flags of a compilation with its result, so that diagnostics can be shown against the very
buffers that were compiled. -/
structure Compilation where
  flags : Flags
  result : CompilationResult
deriving DecidableEq

namespace Compilation

/-- Compiles once, with a default extern set. -/
def compileWith (engine : Engine) (flags : Flags) (defaults : List Buffer) :
    Run Failure CompilationResult := do
  let invocation := Invocation.ofFlags flags defaults
  Run.log .debug .compilation
    ("Invoking engine with " ++ toString invocation.jsCode.length ++ " sources, " ++
      toString invocation.externs.length ++ " externs, " ++
      toString invocation.defines.size ++ " defines")
  Run.act (.invoke invocation)
  let result ← (engine invocation).mapError .compiler
  Run.log .info .compilation
    ("Compiled " ++ toString result.code.utf8ByteSize ++ " bytes with " ++
      toString result.warnings.length ++ " warnings and " ++ toString result.errors.length ++
      " errors")
  return result

/-- The inputs that are read as sources. Sources in the flags count as inputs, so that standard
input is read only when there are none. -/
def sourcesToRead (flags : Flags) (inputs : List InputSource) : List InputSource :=
  if inputs.isEmpty && !flags.jsCode.isEmpty then [] else Acquisition.sourceInputs inputs

/-- Reads the inputs, puts them behind the buffers of the flags, and compiles once. -/
def compileInputs (engine : Engine) (reader : Reader) (inputs externs : List InputSource)
    (loose : LooseFlags) (defaults : List Buffer) : Run Failure Compilation := do
  let flags := loose.normalize
  Run.logAll (Define.looseEvents loose.defines)
  let acquired ← Acquisition.acquireBoth reader (sourcesToRead flags inputs) externs
  let flags := { flags with
    jsCode := flags.jsCode ++ acquired.1
    externs := flags.externs ++ acquired.2 }
  let result ← compileWith engine flags defaults
  return { flags, result }

end Compilation

end CompilerDriver

import CompilerDriver.CompilerReply
import CompilerDriver.Run

namespace CompilerDriver

/-- Why a compilation came to no result. -/
inductive CompilerFault where
  | spawn (program : String) (cause : IoFault)
  | io (cause : IoFault)
  | protocol (cause : JsonError)
  | failed (status : String) (stderr : String)
deriving DecidableEq

namespace CompilerFault

def message : CompilerFault → String
  | spawn program cause => "failed to start \x60" ++ program ++ "\x60: " ++ cause.message
  | io cause => "I/O error while running the compiler: " ++ cause.message
  | protocol cause => "malformed compiler output: " ++ cause.message
  | failed status stderr => "compiler exited with " ++ status ++ ": " ++ stderr

end CompilerFault

/-- The compiler, as compilations see it. -/
abbrev Engine := Invocation → Run CompilerFault CompilationResult

namespace CompilerCommand

/-- The name under which an extern is shown: its path, or its place in the list. -/
def externName (index : Nat) (buffer : Buffer) : String :=
  buffer.path.getD ("default-extern-" ++ toString index ++ ".js")

/-- The names behind the paths of the temporary files. -/
def externNames (host : CompilerHost) (externs : List Buffer) : List (String × String) :=
  externs.mapIdx fun index buffer => ((host.externPath index).shown, externName index buffer)

/-- The diagnostics in the compiler's error stream. -/
def diagnostics (host : CompilerHost) (invocation : Invocation) (stderr : String) :
    List Diagnostic :=
  (reportedDiagnostics stderr).filterMap
    (ReportedDiagnostic.toDiagnostic? (externNames host invocation.externs))

/-- What the compiler's exit means. Errors that it reports count as a result even when it says
that it failed. -/
def outcome (host : CompilerHost) (invocation : Invocation) (exit : CompilerExit) :
    Except CompilerFault CompilationResult :=
  let stderr := Utf8.decodeLossy exit.stderr
  let found := diagnostics host invocation stderr
  let errors := found.filter (·.severity = .error)
  let warnings := found.filter (·.severity = .warning)
  if !exit.status.success && errors.isEmpty then
    .error (.failed exit.status.message (Blank.trim stderr))
  else
    match readOutput exit.stdout with
    | .error cause => .error (.protocol cause)
    | .ok (code, sourceMap) => .ok { code, sourceMap, warnings, errors }

/-- The event about an array of diagnostics that cannot be read. -/
def unreadableEvents (stderr : String) : List LogEvent :=
  match readReported stderr with
  | some (.error cause) =>
    [⟨.debug, .compilerProcess,
      "Compiler stderr is not a diagnostic array: " ++ cause.message⟩]
  | _ => []

/-- Starts the compiler once and reads what it left. -/
def compile (command : CompilerCommand) (host : CompilerHost) : Engine := fun invocation => do
  let call := command.call host invocation
  Run.logAll invocation.argumentEvents
  Run.log .debug .compilerProcess
    ("Running " ++ command.program ++ " " ++ " ".intercalate command.leading ++ " " ++
      " ".intercalate (invocation.arguments (externPaths host invocation.externs)))
  match host.startChecked call with
  | .error cause => Run.fail (.spawn command.program cause)
  | .ok exit =>
    Run.act (.start call)
    Run.logAll (unreadableEvents (Utf8.decodeLossy exit.stderr))
    let result ← Run.ofExcept (outcome host invocation exit)
    Run.log .debug .compilerProcess
      ("Compiler finished: " ++ toString result.code.utf8ByteSize ++ " bytes, " ++
        toString result.warnings.length ++ " warnings, " ++ toString result.errors.length ++
        " errors")
    return result

end CompilerCommand

end CompilerDriver

import CompilerDriver.CommandLine
import CompilerDriver.Compilation
import CompilerDriver.CompiledText
import CompilerDriver.DefaultExterns
import CompilerDriver.LogLine
import CompilerDriver.Report

namespace CompilerDriver

/-- What the program finds around it. -/
structure World where
  files : Files
  stdin : Bytes
  environment : List (String × Bytes)
  host : CompilerHost
  /-- The order in which reads take effect. -/
  schedule : List (Nat × InputSource) → List (Nat × InputSource)
  /-- The time that log lines show. -/
  time : String

/-- Why the program fails once its command line has been understood. -/
inductive ProgramFault where
  | flagfile (path : Path) (cause : IoFault)
  | flagfileFormat (path : Path) (cause : JsonError)
  | build (cause : Failure)
deriving DecidableEq

def ProgramFault.message : ProgramFault → String
  | flagfile path cause => "Cannot read flag file " ++ path.shown ++ ": " ++ cause.message
  | flagfileFormat path cause => "Invalid flag file " ++ path.shown ++ ": " ++ cause.message
  | build cause => cause.message

namespace FlagFile

/-- The options of a flag file. -/
def load (files : Files) (path : Path) : Except ProgramFault LooseFlags :=
  match files.readText path with
  | .error cause => .error (.flagfile path cause)
  | .ok text => (LooseFlags.ofDocument (Utf8.encode text)).mapError (.flagfileFormat path)

/-- The constants of a flag file with those of the command line put over them. -/
def overlayDefines (given : Option LooseDefines) (entries : List String) : Option LooseDefines :=
  if entries.isEmpty then given
  else some (.typed ((normalizeDefines given).insertAll (entries.map parseDefine)))

/-- The options of a flag file with those of the command line put over them. -/
def overlay (flags : LooseFlags) (arguments : Arguments) : LooseFlags :=
  { flags with
    defines := overlayDefines flags.defines arguments.defines
    compilationLevel := arguments.compilationLevel.or flags.compilationLevel
    warningLevel := arguments.warningLevel.or flags.warningLevel
    languageIn := arguments.languageIn.or flags.languageIn
    languageOut := arguments.languageOut.or flags.languageOut
    createSourceMap := flags.createSourceMap || arguments.createSourceMap
    processCommonJsModules := flags.processCommonJsModules || arguments.processCommonJsModules }

/-- The warnings about constants that are worked out for the overlay. -/
def overlayEvents (given : Option LooseDefines) (entries : List String) : List LogEvent :=
  if entries.isEmpty then [] else Define.looseEvents given ++ Define.events entries

/-- The options that the command line asks for, on top of its flag file if it names one. -/
def build (files : Files) (arguments : Arguments) : Run ProgramFault LooseFlags := do
  let flags ← match arguments.flagfile with
    | some path => Run.ofExcept (load files path)
    | none => pure LooseFlags.blank
  Run.logAll (overlayEvents flags.defines arguments.defines)
  return overlay flags arguments

end FlagFile

namespace Program

def compilerVariable : String := "CLOSUREC_COMPILER"

def externsVariable : String := "CLOSUREC_EXTERNS_DIR"

def logVariable : String := "RUST_LOG"

def plainVariable : String := "NO_COLOR"

def forceVariable : String := "CLICOLOR_FORCE"

/-- The compiler that the command line names, else that of the environment. -/
def compiler (world : World) (arguments : Arguments) : CompilerCommand :=
  match arguments.compiler with
  | some line => .ofLine line
  | none => .ofEnvironment (world.environment.lookup compilerVariable)

def externsDirectory (world : World) (arguments : Arguments) : Path :=
  arguments.externsDir.getD
    (DefaultExterns.directory (world.environment.lookup externsVariable))

def reader (world : World) : Reader :=
  .ofSystem world.files.readText (.ofBytes world.stdin) world.schedule

/-- Compiles once and reports; the result is what goes to standard output, absent when errors
were reported. -/
def run (world : World) (arguments : Arguments) : Run ProgramFault (Option Bytes) := do
  let command := compiler world arguments
  Run.log .info .program ("Using compiler: " ++ command.program)
  let defaults ←
    (DefaultExterns.load world.files (externsDirectory world arguments)).mapError .build
  let flags ← FlagFile.build world.files arguments
  let inputs := arguments.inputs.map InputSource.ofArgument
  let externs := arguments.externs.map InputSource.ofArgument
  Run.log .debug .program
    ("Inputs: [" ++ ", ".intercalate (inputs.map InputSource.quoted) ++ "]")
  let compilation ←
    (Compilation.compileInputs (command.compile world.host) (reader world) inputs externs flags
      defaults).mapError .build
  Run.act (.report
    (Report.text arguments.color compilation.flags.jsCode compilation.flags.externs
      compilation.result))
  if compilation.result.hasFatalErrors then
    Run.log .info .program
      ("Compilation failed with " ++ toString compilation.result.errors.length ++ " errors")
    return none
  else return some (CompiledText.text compilation.result)

/-- What the program leaves: its exit status, its streams, and the compiler calls it made. -/
structure Outcome where
  status : Nat
  stdout : Bytes
  stderr : Bytes
  calls : List CompilerCall

/-- Log lines are coloured unless a text forbids it. -/
def logsInColor (world : World) : Bool :=
  match world.environment.lookup plainVariable with
  | none => true
  | some value =>
    match Utf8.decode value with
    | .ok text => text.isEmpty
    | .error _ => true

/-- What is said about the command line goes to streams without colours unless they are forced
and not forbidden. -/
def explainsInColor (environment : List (String × Bytes)) : Bool :=
  ((environment.lookup plainVariable).getD []).isEmpty &&
    (environment.lookup forceVariable).getD (Utf8.encode "0") != Utf8.encode "0"

def logStyle (world : World) : LogStyle where
  filter := .ofEnvironment (world.environment.lookup logVariable)
  colored := logsInColor world
  time := world.time

/-- What an action leaves on the error stream. -/
def shownAction (style : Option LogStyle) : Action → Bytes
  | .log event => style.elim [] fun style => LogLine.ofEvent style event
  | .report text => text
  | _ => []

/-- The error stream of a run. -/
def errorStream (style : Option LogStyle) (run : Run ProgramFault (Option Bytes)) : Bytes :=
  run.actions.flatMap (shownAction style) ++
    match run.result with
    | .ok _ => []
    | .error fault => Utf8.encode ("closurec: " ++ fault.message ++ "\n")

/-- The outcome of a command line that has been understood. -/
def finish (world : World) (arguments : Arguments) : Outcome :=
  let run := run world arguments
  let style := if arguments.log then some (logStyle world) else none
  let output := match run.result with
    | .ok output => output
    | .error _ => none
  { status := if output.isSome then 0 else 1
    stdout := output.getD []
    stderr := errorStream style run
    calls := run.calls }

/-- The outcome of a command line that is not carried out. -/
def refuse (environment : List (String × Bytes)) (fault : UsageFault) : Outcome :=
  let text := Utf8.encode (if explainsInColor environment then fault.colored else fault.text)
  if fault.isAnswer then { status := 0, stdout := text, stderr := [], calls := [] }
  else { status := 2, stdout := [], stderr := text, calls := [] }

/-- The whole program. -/
def outcome (world : World) (arguments : List Bytes) : Outcome :=
  match CommandLine.parse arguments with
  | .ok arguments => finish world arguments
  | .error fault => refuse world.environment fault

end Program

end CompilerDriver

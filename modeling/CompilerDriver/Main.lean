import CompilerDriver.Program

namespace CompilerDriver

namespace Main

/-- A refusal of the system in the program's words. -/
def faultOf : IO.Error → IoFault
  | .noFileOrDirectory _ _ _ => .notFound
  | .permissionDenied _ _ _ => .permissionDenied
  | .inappropriateType _ 21 _ => .isADirectory
  | .inappropriateType _ 20 _ => .notADirectory
  | error => .other (toString error)

/-- The text of a file, read now. -/
def readText (path : Path) : IO (Path × Except IoFault String) := do
  try
    let content ← IO.FS.readBinFile path.shown
    return (path, Files.textOf content.toList)
  catch error =>
    return (path, .error (faultOf error))

/-- The files that a command line names, all read beforehand. Directories are not looked into
here, so there is no default set. -/
def filesOf (arguments : Arguments) : IO Files := do
  let paths := arguments.flagfile.toList ++ arguments.inputs ++ arguments.externs
  let texts ← (paths.filter (· ≠ InputSource.stdinSign)).mapM readText
  return ⟨fun path => (texts.lookup path).getD (.error .notFound), fun _ => .error .notFound⟩

/-- A host without programs: every start of the compiler is refused. -/
def bareHost : CompilerHost where
  externPath index := Utf8.encode ("closurec-extern-" ++ toString index ++ ".js")
  start _ := .error (.other "no programs can be started here")

def variableNames : List String :=
  [Program.compilerVariable, Program.externsVariable, Program.logVariable, Program.plainVariable,
    Program.forceVariable]

def environment : IO (List (String × Bytes)) := do
  let found ← variableNames.mapM fun name => do
    return (← IO.getEnv name).map fun value => (name, Utf8.encode value)
  return found.filterMap id

/-- Whether a command line makes the program read standard input. -/
def wantsStdin (files : Files) (arguments : Arguments) : Bool :=
  let inputs := arguments.inputs.map InputSource.ofArgument
  let externs := arguments.externs.map InputSource.ofArgument
  match (FlagFile.build files arguments).result with
  | .ok flags => (Compilation.sourcesToRead flags.normalize inputs ++ externs).contains .stdin
  | .error _ => false

def worldOf (arguments : Arguments) : IO World := do
  let files ← filesOf arguments
  let stdin ← if wantsStdin files arguments then (← IO.getStdin).readBinToEnd else pure .empty
  return {
    files
    stdin := stdin.toList
    environment := ← environment
    host := bareHost
    schedule := id
    time := toString (← IO.monoMsNow) }

def write (stream : IO.FS.Stream) (bytes : Bytes) : IO Unit := do
  stream.write (ByteArray.mk bytes.toArray)
  stream.flush

end Main

end CompilerDriver

open CompilerDriver in
/-- Understands the command line, reads what it names, and leaves what the program leaves. -/
def main (arguments : List String) : IO UInt32 := do
  let outcome ← match CommandLine.parse (arguments.map Utf8.encode) with
    | .error fault => pure (Program.refuse (← Main.environment) fault)
    | .ok understood => pure (Program.finish (← Main.worldOf understood) understood)
  Main.write (← IO.getStderr) outcome.stderr
  Main.write (← IO.getStdout) outcome.stdout
  return outcome.status.toUInt32

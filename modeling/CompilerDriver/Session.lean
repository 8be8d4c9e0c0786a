import CompilerDriver.Compilation
import CompilerDriver.DefaultExterns

namespace CompilerDriver

/-- What lasts in a process from one operation to the next: the files, the directory that the
environment designates for the default externs, and the default externs once they are loaded. -/
structure Session where
  files : Files
  environment : Option Path
  cache : DefaultExterns.Cache

namespace Session

/-- A process in which nothing has been loaded. -/
def start (files : Files) : Session :=
  ⟨files, none, none⟩

/-- The default externs, loaded from a directory unless they are kept already. -/
def defaultsFrom (session : Session) (directory : Path) : Run Failure (List Buffer) × Session :=
  let (run, cache) :=
    DefaultExterns.get session.cache (DefaultExterns.load session.files directory)
  (run, { session with cache })

/-- The default externs, loaded where the environment says unless they are kept already. -/
def defaults (session : Session) : Run Failure (List Buffer) × Session :=
  session.defaultsFrom (DefaultExterns.directory session.environment)

/-- Compiles once, with the default externs. -/
def compile (session : Session) (engine : Engine) (flags : Flags) :
    Run Failure CompilationResult × Session :=
  let (loading, session) := session.defaults
  (do Compilation.compileWith engine flags (← loading), session)

/-- Loads the default externs, then reads the inputs, and compiles once. -/
def compileInputs (session : Session) (engine : Engine) (reader : Reader)
    (inputs externs : List InputSource) (loose : LooseFlags) :
    Run Failure Compilation × Session :=
  let (loading, session) := session.defaults
  (do Compilation.compileInputs engine reader inputs externs loose (← loading), session)

/-- An operation, or a change of what a process finds around it. -/
inductive Step where
  | loadFrom (directory : Path)
  | load
  | compile (engine : Engine) (flags : Flags)
  | compileInputs (engine : Engine) (reader : Reader) (inputs externs : List InputSource)
      (loose : LooseFlags)
  | setEnvironment (directory : Option Path)
  | setFiles (files : Files)

/-- What a step comes to. -/
inductive Answer where
  | externs (run : Run Failure (List Buffer))
  | result (run : Run Failure CompilationResult)
  | compilation (run : Run Failure Compilation)
  | done

/-- Carries one step out. -/
def step (session : Session) : Step → Answer × Session
  | .loadFrom directory =>
    let (run, session) := session.defaultsFrom directory
    (.externs run, session)
  | .load =>
    let (run, session) := session.defaults
    (.externs run, session)
  | .compile engine flags =>
    let (run, session) := session.compile engine flags
    (.result run, session)
  | .compileInputs engine reader inputs externs loose =>
    let (run, session) := session.compileInputs engine reader inputs externs loose
    (.compilation run, session)
  | .setEnvironment environment => (.done, { session with environment })
  | .setFiles files => (.done, { session with files })

/-- Carries steps out one after the other. -/
def run (session : Session) : List Step → List Answer × Session
  | [] => ([], session)
  | step :: more =>
    let (answer, session) := session.step step
    let (answers, session) := session.run more
    (answer :: answers, session)

end Session

end CompilerDriver

import CompilerDriver.Failure
import CompilerDriver.Files

namespace CompilerDriver

namespace DefaultExterns

def usualDirectory : Path :=
  Utf8.encode "externs"

/-- The directory that the environment designates. -/
def directory (environment : Option Path) : Path :=
  environment.getD usualDirectory

def dot : UInt8 := 0x2E

/-- Whether a file name has the extension `js`; a name that is nothing but an extension has
none. -/
def isScript (name : Bytes) : Bool :=
  let behind := name.reverse.takeWhile (· ≠ dot)
  behind.reverse = Utf8.encode "js" && behind.length + 1 < name.length

/-- The scripts among the entries of a directory with what reading them gives, in the order of their
names. -/
def scripts (entries : List Files.Entry) : List (Bytes × Files.Reading) :=
  (entries.filterMap fun entry =>
    if isScript entry.name then entry.regular.map fun reading => (entry.name, reading)
    else none).mergeSort fun a b => decide (a.1 ≤ b.1)

/-- The set that a directory with these entries holds; the first script that cannot be read or is no
text is the one that refuses. -/
def ofEntries (entries : List Files.Entry) : Except IoFault (List Buffer) :=
  (scripts entries).mapM fun script => (script.2.bind Files.textOf).map Buffer.unnamed

/-- Loads the set from a directory. A directory that does not exist holds the empty set. -/
def load (files : Files) (directory : Path) : Run Failure (List Buffer) :=
  match files.list directory with
  | .error .notFound => do
    Run.log .debug .externs ("No default externs directory at " ++ Quoted.path directory)
    return []
  | .error cause => Run.fail (.externs directory cause)
  | .ok entries => do
    let buffers ← Run.ofExcept ((ofEntries entries).mapError (.externs directory))
    Run.log .info .externs
      ("Loaded " ++ toString buffers.length ++ " default externs from " ++ Quoted.path directory)
    return buffers

/-- The set that a process keeps once a load has succeeded. -/
abbrev Cache := Option (List Buffer)

/-- The kept set, or else a load, whose success is kept. -/
def get (cache : Cache) (loading : Run Failure (List Buffer)) :
    Run Failure (List Buffer) × Cache :=
  match cache with
  | some buffers => (pure buffers, some buffers)
  | none => (loading, loading.result.toOption)

end DefaultExterns

end CompilerDriver

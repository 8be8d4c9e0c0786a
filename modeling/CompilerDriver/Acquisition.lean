import CompilerDriver.Failure

namespace CompilerDriver

/-- A read that has ended: the place of its input in the list, and the text or the refusal. -/
structure Completion where
  index : Nat
  input : InputSource
  outcome : Except IoFault String

/-- How a list of reads ends: one completion for each, in the order in which they finish. Those
that have ended when the program looks for them again stand in one list. -/
abbrev Reader := List InputSource → List (List Completion)

namespace Acquisition

/-- Stores each text in the slot of its input. The first refusal ends it all. -/
def collect (slots : List (Option Buffer)) : List Completion → Run Failure (List Buffer)
  | [] => pure (slots.filterMap id)
  | completion :: more =>
    match completion.outcome with
    | .ok text => do
      Run.log .debug .sources
        ("Read " ++ completion.input.shown ++ " (" ++ toString text.utf8ByteSize ++ " bytes)")
      collect (slots.set completion.index (some ⟨completion.input.bufferPath, text⟩)) more
    | .error cause => do
      Run.log .warn .sources
        ("Failed to read " ++ completion.input.shown ++ ": " ++ cause.message)
      Run.fail (.read completion.input.shown cause)

/-- Asks for every input before any read ends. -/
def requestAll (inputs : List InputSource) : Run Failure Unit :=
  ⟨inputs.map .request, .ok ()⟩

/-- Reads all inputs at the same time; the buffers come in the order of the inputs. -/
def acquire (reader : Reader) (inputs : List InputSource) : Run Failure (List Buffer) := do
  requestAll inputs
  collect (inputs.map fun _ => none) (reader inputs).flatten

/-- The inputs that sources are read from: no input at all means standard input. -/
def sourceInputs (inputs : List InputSource) : List InputSource :=
  if inputs.isEmpty then [.stdin] else inputs

def acquireSources (reader : Reader) (inputs : List InputSource) : Run Failure (List Buffer) :=
  acquire reader (sourceInputs inputs)

def acquireExterns (reader : Reader) (inputs : List InputSource) : Run Failure (List Buffer) :=
  acquire reader inputs

/-- The order in which the reads of sources and externs, which stand behind so many sources, are
taken in. One look sees to all the externs before the sources, the next one to all the sources
before the externs, and so on. -/
def alternate (sources : Nat) : Bool → List (List Completion) → List Completion
  | _, [] => []
  | externsFirst, look :: more =>
    let (ofSources, ofExterns) := look.partition (·.index < sources)
    (if externsFirst then ofExterns ++ ofSources else ofSources ++ ofExterns) ++
      alternate sources (!externsFirst) more

/-- Reads sources and externs at the same time. The first refusal among all of them ends it. -/
def acquireBoth (reader : Reader) (sources externs : List InputSource) :
    Run Failure (List Buffer × List Buffer) := do
  let inputs := sources ++ externs
  requestAll inputs
  let buffers ← collect (inputs.map fun _ => none) (alternate sources.length true (reader inputs))
  return buffers.splitAt sources.length

end Acquisition

/-- Standard input as a process holds it: the text once it has been read whole, and the chunks
that are still to come. -/
structure Console where
  kept : Option String
  pending : List Bytes

namespace Console

def ofBytes (bytes : Bytes) : Console :=
  ⟨none, [bytes]⟩

/-- The text of standard input. The first call drains it; text is kept for the calls that follow,
octets that are no text are lost. -/
def read (console : Console) : Except IoFault String × Console :=
  match console.kept with
  | some text => (.ok text, console)
  | none =>
    match Utf8.decode console.pending.flatten with
    | .ok text => (.ok text, ⟨some text, []⟩)
    | .error fault => (.error (.invalidText fault), ⟨none, []⟩)

end Console

namespace Reader

/-- Reads inputs one after the other, those of files with `file`. -/
def inTurn (file : Path → Except IoFault String) :
    Console → List (Nat × InputSource) → List Completion
  | _, [] => []
  | console, (index, .file path) :: more =>
    ⟨index, .file path, file path⟩ :: inTurn file console more
  | console, (index, .stdin) :: more =>
    ⟨index, .stdin, console.read.1⟩ :: inTurn file console.read.2 more

/-- Reads that take effect in the order that `schedule` gives them, each seen to by itself. -/
def ofSystem (file : Path → Except IoFault String) (console : Console)
    (schedule : List (Nat × InputSource) → List (Nat × InputSource)) : Reader := fun inputs =>
  (inTurn file console (schedule (inputs.mapIdx fun index input => (index, input)))).map ([·])

end Reader

end CompilerDriver

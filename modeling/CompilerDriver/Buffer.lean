import CompilerDriver.JsonRecord
import CompilerDriver.JsonValue

namespace CompilerDriver

/-- A unit of source text or of extern declarations. What comes from standard input or from the
default set has no path. -/
structure Buffer where
  path : Option String
  content : String
deriving DecidableEq

namespace Buffer

/-- The name of a buffer without a path. -/
def stdinName : String := "stdin"

def unnamed (content : String) : Buffer :=
  ⟨none, content⟩

/-- The name that the compiler and the diagnostics use. -/
def displayName (buffer : Buffer) : String :=
  buffer.path.getD stdinName

/-- Whether a diagnostic about `file` is about this buffer. -/
def isNamed (buffer : Buffer) (file : String) : Bool :=
  match buffer.path with
  | some path => path == file
  | none => file == stdinName

def toJson (buffer : Buffer) : JsonValue :=
  let content := ("content", JsonValue.string buffer.content)
  match buffer.path with
  | some path => .object [("path", .string path), content]
  | none => .object [content]

/-- The shape of a buffer in a document, where `src` is another word for `content`. -/
def form (noun : String) : JsonRecord Buffer where
  noun := noun
  blank := ⟨none, ""⟩
  fields := [
    .optional "path" (JsonReader.nullable JsonReader.string)
      fun path buffer => { buffer with path },
    { JsonField.required "content" JsonReader.string
        fun content (buffer : Buffer) => { buffer with content } with
      aliases := ["src"] }]

def readSource : JsonReader Buffer :=
  (form "struct SourceBuffer").read

def readDeclarations : JsonReader Buffer :=
  (form "struct Extern").read

end Buffer

end CompilerDriver

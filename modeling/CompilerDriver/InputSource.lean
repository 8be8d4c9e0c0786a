import CompilerDriver.Buffer

namespace CompilerDriver

/-- A path as the system takes it. -/
abbrev Path := Bytes

namespace Path

/-- A path as a person reads it. -/
def shown (path : Path) : String :=
  Utf8.decodeLossy path

end Path

/-- An input as it is named: standard input or a file. -/
inductive InputSource where
  | stdin
  | file (path : Path)
deriving DecidableEq

namespace InputSource

/-- The name that stands for standard input. -/
def stdinSign : Bytes := Utf8.encode "-"

def ofArgument (argument : Bytes) : InputSource :=
  if argument = stdinSign then .stdin else .file argument

/-- The path that the buffer of this input carries. -/
def bufferPath : InputSource → Option String
  | stdin => none
  | file path => some path.shown

def shown : InputSource → String
  | stdin => Buffer.stdinName
  | file path => path.shown

/-- The input on a log line. -/
def quoted : InputSource → String
  | stdin => "Stdin"
  | file path => "File(" ++ Quoted.path path ++ ")"

end InputSource

end CompilerDriver

import CompilerDriver.InputSource
import CompilerDriver.IoFault

namespace CompilerDriver

namespace Files

/-- What reading a file gives: its octets, or why they cannot be read. -/
abbrev Reading := Except IoFault Bytes

instance : Coe Bytes Reading :=
  ⟨.ok⟩

/-- An entry of a directory: its name, and what reading it gives if it is a regular file behind any
links. -/
structure Entry where
  name : Bytes
  regular : Option Reading

/-- The text of a file with these octets. -/
def textOf (content : Bytes) : Except IoFault String :=
  match Utf8.decode content with
  | .ok text => .ok text
  | .error _ => .error .notText

end Files

/-- Files as the program uses them: the texts of files and the entries of directories. -/
structure Files where
  readText : Path → Except IoFault String
  list : Path → Except IoFault (List Files.Entry)

end CompilerDriver

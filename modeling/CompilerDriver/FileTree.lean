import CompilerDriver.Files

namespace CompilerDriver

/-- Files, directories and symbolic links below a root. A `device` stands for anything else that
can be read, such as the null device. -/
inductive FileNode where
  | file (content : Bytes)
  | device (content : Bytes)
  | directory (entries : List (Bytes × FileNode))
  | link (target : Path)

namespace FileNode

/-- The node of a name in a directory. -/
def child? (node : FileNode) (name : Bytes) : Option FileNode :=
  match node with
  | .directory entries => entries.lookup name
  | _ => none

/-- The node below a directory under a row of names. -/
def below? : FileNode → List Bytes → Option FileNode
  | node, [] => some node
  | node, name :: more => (node.child? name).bind fun child => child.below? more

end FileNode

/-- A file system as a process sees it: its root and its working directory. -/
structure FileTree where
  root : FileNode
  workingDirectory : List Bytes

namespace FileTree

def slash : UInt8 := 0x2F

def dot : UInt8 := 0x2E

/-- The pieces between the slashes of a path. -/
def pieces (path : Path) : List Bytes :=
  path.splitOn slash

/-- More links than this are taken for a loop. -/
def linkLimit : Nat := 40

/-- A path of this many octets is too long. -/
def pathLimit : Nat := 4096

/-- The most octets that the name of an entry may have. -/
def nameLimit : Nat := 255

/-- Walks the pieces of a path from a directory that is given by its names below the root. A file
ends the walk, and only the last piece may be one. -/
def walk (root : FileNode) (links : Nat) (here : List Bytes) (todo : List Bytes) :
    Except IoFault FileNode :=
  match todo with
  | [] =>
    match root.below? here with
    | some node => .ok node
    | none => .error .notFound
  | piece :: more =>
    if piece = [] ∨ piece = [dot] then walk root links here more
    else if piece = [dot, dot] then walk root links here.dropLast more
    else
      match (root.below? here).bind (·.child? piece) with
      | none => .error (if nameLimit < piece.length then .nameTooLong else .notFound)
      | some (.directory _) => walk root links (here ++ [piece]) more
      | some (.link target) =>
        match links with
        | 0 => .error .tooManyLinks
        | links + 1 =>
          walk root links (if target.head? = some slash then [] else here) (pieces target ++ more)
      | some node => if more.isEmpty then .ok node else .error .notADirectory
termination_by (links, todo.length)

/-- The node that a path leads to, links followed. -/
def find (tree : FileTree) (path : Path) : Except IoFault FileNode :=
  if path.contains 0 then .error .nulInPath
  else if path = [] then .error .notFound
  else if pathLimit ≤ path.length then .error .nameTooLong
  else
    walk tree.root linkLimit (if path.head? = some slash then [] else tree.workingDirectory)
      (pieces path)

/-- The octets of a file. -/
def readBytes (tree : FileTree) (path : Path) : Except IoFault Bytes :=
  match tree.find path with
  | .error cause => .error cause
  | .ok (.file content) => .ok content
  | .ok (.device content) => .ok content
  | .ok (.directory _) => .error .isADirectory
  | .ok (.link _) => .error .notFound

/-- The text of a file. -/
def readText (tree : FileTree) (path : Path) : Except IoFault String :=
  (tree.readBytes path).bind Files.textOf

/-- A directory's path with one more name. -/
def join (directory : Path) (name : Bytes) : Path :=
  if directory = [] ∨ directory.getLast? = some slash then directory ++ name
  else directory ++ slash :: name

def regular? (tree : FileTree) (path : Path) : Option Bytes :=
  match tree.find path with
  | .ok (.file content) => some content
  | _ => none

/-- The entries of a directory. -/
def list (tree : FileTree) (directory : Path) : Except IoFault (List Files.Entry) :=
  match tree.find directory with
  | .error cause => .error cause
  | .ok (.directory entries) =>
    .ok (entries.map fun entry => ⟨entry.1, (tree.regular? (join directory entry.1)).map .ok⟩)
  | .ok _ => .error .notADirectory

def files (tree : FileTree) : Files :=
  ⟨tree.readText, tree.list⟩

end FileTree

end CompilerDriver

import CompilerDriver.CompilerRun

namespace CompilerDriver

/-- Why a build could not be finished. -/
inductive Failure where
  | io (cause : IoFault)
  | read (name : String) (cause : IoFault)
  | externs (directory : Path) (cause : IoFault)
  | compiler (cause : CompilerFault)
  | json (cause : JsonError)
deriving DecidableEq

namespace Failure

def message : Failure → String
  | io cause => "I/O error: " ++ cause.message
  | read name cause => "Failed to read " ++ name ++ ": " ++ cause.message
  | externs directory cause =>
    "Failed to load default externs from " ++ directory.shown ++ ": " ++ cause.message
  | compiler cause => "Engine error: " ++ cause.message
  | json cause => "JSON error: " ++ cause.message

end Failure

end CompilerDriver

import CompilerDriver.Utf8

namespace CompilerDriver

/-- Why the system or a stream refuses. -/
inductive IoFault where
  | notFound
  | permissionDenied
  | notADirectory
  | isADirectory
  | tooManyLinks
  | nameTooLong
  | nulInPath
  | nulInCommand
  | notText
  | invalidText (fault : Utf8.Fault)
  | other (message : String)
deriving DecidableEq

namespace IoFault

def message : IoFault → String
  | notFound => "No such file or directory (os error 2)"
  | permissionDenied => "Permission denied (os error 13)"
  | notADirectory => "Not a directory (os error 20)"
  | isADirectory => "Is a directory (os error 21)"
  | tooManyLinks => "Too many levels of symbolic links (os error 40)"
  | nameTooLong => "File name too long (os error 36)"
  | nulInPath => "file name contained an unexpected NUL byte"
  | nulInCommand => "nul byte found in provided data"
  | notText => "stream did not contain valid UTF-8"
  | invalidText fault => fault.message
  | other message => message

end IoFault

end CompilerDriver

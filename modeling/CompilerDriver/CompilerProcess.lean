import CompilerDriver.Blank
import CompilerDriver.IoFault
import CompilerDriver.Invocation

namespace CompilerDriver

/-- The compiler's command: a program and the arguments that come before all others. -/
structure CompilerCommand where
  program : String
  leading : List String
deriving DecidableEq

namespace CompilerCommand

/-- The command that is used when none is given. -/
def usual : CompilerCommand :=
  ⟨"google-closure-compiler", []⟩

def ofWords : List String → CompilerCommand
  | [] => usual
  | program :: leading => ⟨program, leading⟩

/-- The command that a line writes, its words divided by blanks. -/
def ofLine (line : String) : CompilerCommand :=
  ofWords (Blank.words line)

/-- The command that the environment names; a value that is blank or no text counts as none. -/
def ofEnvironment : Option Bytes → CompilerCommand
  | none => usual
  | some value =>
    match Utf8.decode value with
    | .error _ => usual
    | .ok line => if Blank.trim line = "" then usual else ofLine line

end CompilerCommand

/-- One start of the compiler: its arguments, its standard input and the extern files. -/
structure CompilerCall where
  program : String
  arguments : List String
  stdin : Bytes
  externs : List (Path × Bytes)

/-- No part of a command can hold a NUL character. -/
def CompilerCall.hasNul (call : CompilerCall) : Bool :=
  (call.program :: call.arguments).any fun word => word.toList.contains '\x00'

/-- How a process ended. -/
inductive ExitStatus where
  | code (n : Nat)
  | signal (n : Nat)
deriving DecidableEq

namespace ExitStatus

def success (status : ExitStatus) : Bool :=
  status = .code 0

/-- The names of the signals, in the order of their numbers. -/
def signalNames : List String :=
  ["SIGHUP", "SIGINT", "SIGQUIT", "SIGILL", "SIGTRAP", "SIGABRT", "SIGBUS", "SIGFPE", "SIGKILL",
    "SIGUSR1", "SIGSEGV", "SIGUSR2", "SIGPIPE", "SIGALRM", "SIGTERM", "SIGSTKFLT", "SIGCHLD",
    "SIGCONT", "SIGSTOP", "SIGTSTP", "SIGTTIN", "SIGTTOU", "SIGURG", "SIGXCPU", "SIGXFSZ",
    "SIGVTALRM", "SIGPROF", "SIGWINCH", "SIGIO", "SIGPWR", "SIGSYS"]

def message : ExitStatus → String
  | code n => "exit status: " ++ toString n
  | signal n =>
    "signal: " ++ toString n ++
      (if n = 0 then "" else
        match signalNames[n - 1]? with
        | some name => " (" ++ name ++ ")"
        | none => "")

end ExitStatus

/-- What a process left when it ended. -/
structure CompilerExit where
  status : ExitStatus
  stdout : Bytes
  stderr : Bytes

/-- Where the compiler runs: the paths of the temporary files for the externs, and what a start
comes to. -/
structure CompilerHost where
  externPath : Nat → Path
  start : CompilerCall → Except IoFault CompilerExit

namespace CompilerHost

/-- Starts the compiler unless its command cannot be written. -/
def startChecked (host : CompilerHost) (call : CompilerCall) : Except IoFault CompilerExit :=
  if call.hasNul then .error .nulInCommand else host.start call

end CompilerHost

namespace CompilerCommand

def externPaths (host : CompilerHost) (externs : List Buffer) : List Path :=
  (List.range externs.length).map host.externPath

/-- The one call that an invocation makes. -/
def call (command : CompilerCommand) (host : CompilerHost) (invocation : Invocation) :
    CompilerCall :=
  let paths := externPaths host invocation.externs
  { program := command.program
    arguments := command.leading ++ invocation.arguments paths
    stdin := invocation.payload
    externs := paths.zip (invocation.externs.map fun buffer => Utf8.encode buffer.content) }

end CompilerCommand

end CompilerDriver

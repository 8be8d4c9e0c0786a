import CompilerDriver.Define
import CompilerDriver.Quoted

namespace CompilerDriver

inductive LogLevel where
  | trace
  | debug
  | info
  | warn
  | error
deriving DecidableEq

/-- The parts of the program that log. -/
inductive Component where
  | sources
  | externs
  | defines
  | compilation
  | compilerProcess
  | program
deriving DecidableEq

/-- The name under which a part logs, by which a filter picks it. -/
def Component.target : Component → String
  | sources => "closurec::io::sources"
  | externs => "closurec::io::externs"
  | defines => "closurec::core::defines"
  | compilation => "closurec::api"
  | compilerProcess => "closurec::engine::process"
  | program => "closurec::cli::runner"

structure LogEvent where
  level : LogLevel
  component : Component
  message : String
deriving DecidableEq

namespace Define

/-- The warning about an entry that has no value. -/
def event? (entry : String) : Option LogEvent :=
  if (parseDefine entry).2 = .undefined then
    some ⟨.warn, .defines, "Define " ++ Quoted.text entry ++ " has no value"⟩
  else none

def events (entries : List String) : List LogEvent :=
  entries.filterMap event?

/-- The warnings about loose constants when they are worked out. -/
def looseEvents : Option LooseDefines → List LogEvent
  | some (.one entry) => events [entry]
  | some (.many entries) => events entries
  | some (.typed _) => []
  | none => []

end Define

end CompilerDriver

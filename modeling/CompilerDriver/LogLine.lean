import CompilerDriver.LogFilter

namespace CompilerDriver

/-- How log lines are written: which events, whether coloured, and the time they show. -/
structure LogStyle where
  filter : LogFilter
  colored : Bool
  time : String

namespace LogLine

/-- Level names are as wide as each other. -/
def levelName : LogLevel → String
  | .trace => "TRACE"
  | .debug => "DEBUG"
  | .info => " INFO"
  | .warn => " WARN"
  | .error => "ERROR"

def levelColor : LogLevel → String
  | .trace => "35"
  | .debug => "34"
  | .info => "32"
  | .warn => "33"
  | .error => "31"

def painted (color text : String) : String :=
  "\x1b[" ++ color ++ "m" ++ text ++ "\x1b[0m"

def dim (text : String) : String :=
  painted "2" text

/-- Controls that a terminal could take for a command are spelled out, so that a message cannot
change how the log looks. -/
def safeChar (c : Char) : String :=
  if c = '\x1b' then "\\x1b"
  else if c = '\x07' then "\\x07"
  else if c = '\x08' then "\\x08"
  else if c = '\x0c' then "\\x0c"
  else if c = '\x7f' then "\\x7f"
  else if 0x80 ≤ c.toNat ∧ c.toNat ≤ 0x9F then Quoted.codePoint c
  else c.toString

def safe (message : String) : String :=
  String.join (message.toList.map safeChar)

def text (style : LogStyle) (event : LogEvent) : String :=
  if style.colored then
    dim style.time ++ " " ++ painted (levelColor event.level) (levelName event.level) ++ " " ++
      dim event.component.target ++ dim ":" ++ " " ++ safe event.message ++ "\n"
  else
    style.time ++ " " ++ levelName event.level ++ " " ++ event.component.target ++ ": " ++
      safe event.message ++ "\n"

/-- The line of an event that passes the filter. -/
def ofEvent (style : LogStyle) (event : LogEvent) : Bytes :=
  if style.filter.passes event then Utf8.encode (text style event) else []

end LogLine

end CompilerDriver

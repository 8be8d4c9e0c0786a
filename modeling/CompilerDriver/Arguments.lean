import CompilerDriver.CompilerOption
import CompilerDriver.InputSource

namespace CompilerDriver

/-- What a command line asks for. -/
structure Arguments where
  inputs : List Path
  externs : List Path
  defines : List String
  createSourceMap : Bool
  compilationLevel : Option CompilationLevel
  warningLevel : Option WarningLevel
  languageIn : Option LanguageMode
  languageOut : Option LanguageMode
  processCommonJsModules : Bool
  flagfile : Option Path
  compiler : Option String
  externsDir : Option Path
  color : ColorMode
  log : Bool
deriving DecidableEq

namespace Arguments

/-- What an empty command line asks for. -/
def blank : Arguments where
  inputs := []
  externs := []
  defines := []
  createSourceMap := false
  compilationLevel := none
  warningLevel := none
  languageIn := none
  languageOut := none
  processCommonJsModules := false
  flagfile := none
  compiler := none
  externsDir := none
  color := .always
  log := false

end Arguments

/-- An option that takes a value. -/
inductive Setting where
  | externs
  | defines
  | compilationLevel
  | warningLevel
  | languageIn
  | languageOut
  | flagfile
  | compiler
  | externsDir
  | color
deriving DecidableEq

/-- An option that takes no value. -/
inductive Switch where
  | version
  | createSourceMap
  | processCommonJsModules
  | log
  | help
deriving DecidableEq

namespace Setting

def name : Setting → String
  | externs => "externs"
  | defines => "defines"
  | compilationLevel => "compilationLevel"
  | warningLevel => "warningLevel"
  | languageIn => "languageIn"
  | languageOut => "languageOut"
  | flagfile => "flagfile"
  | compiler => "compiler"
  | externsDir => "externs-dir"
  | color => "color"

/-- The word that stands for the value. -/
def valueName : Setting → String
  | externs => "PATH"
  | defines => "NAME=VALUE"
  | compilationLevel => "COMPILATION_LEVEL"
  | warningLevel => "WARNING_LEVEL"
  | languageIn => "LANGUAGE_IN"
  | languageOut => "LANGUAGE_OUT"
  | flagfile => "FILE"
  | compiler => "COMMAND"
  | externsDir => "DIR"
  | color => "COLOR"

def shown (setting : Setting) : String :=
  "--" ++ setting.name ++ " <" ++ setting.valueName ++ ">"

/-- Whether the option may be given several times. -/
def repeatable : Setting → Bool
  | externs => true
  | defines => true
  | _ => false

/-- The values that are listed for a choice, none for a free value. -/
def possibleValues : Setting → List String
  | compilationLevel => CompilationLevel.all.map CompilationLevel.name
  | warningLevel => WarningLevel.all.map WarningLevel.name
  | languageIn => LanguageMode.all.map LanguageMode.name
  | languageOut => LanguageMode.all.map LanguageMode.name
  | color => ColorMode.all.map ColorMode.name
  | _ => []

end Setting

namespace Switch

def name : Switch → String
  | version => "version"
  | createSourceMap => "createSourceMap"
  | processCommonJsModules => "processCommonJsModules"
  | log => "log"
  | help => "help"

def shown (switch : Switch) : String :=
  "--" ++ switch.name

end Switch

/-- An option of the command line. -/
inductive CommandOption where
  | setting (setting : Setting)
  | switch (switch : Switch)
deriving DecidableEq

namespace CommandOption

/-- All options, in the order in which they are explained. -/
def all : List CommandOption :=
  [switch .version, setting .externs, setting .defines, switch .createSourceMap,
    setting .compilationLevel, setting .warningLevel, setting .languageIn, setting .languageOut,
    switch .processCommonJsModules, setting .flagfile, setting .compiler, setting .externsDir,
    setting .color, switch .log, switch .help]

def name : CommandOption → String
  | setting s => s.name
  | switch s => s.name

def shown : CommandOption → String
  | setting s => s.shown
  | switch s => s.shown

/-- The option of a name. -/
def ofName? (name : String) : Option CommandOption :=
  all.find? (·.name == name)

end CommandOption

end CompilerDriver

import CompilerDriver.JsonScalar
import CompilerDriver.JsonValue

namespace CompilerDriver

/-- How far the compiler transforms the code. -/
inductive CompilationLevel where
  | whitespaceOnly
  | simple
  | advanced
deriving DecidableEq

/-- How many diagnostics the compiler reports. -/
inductive WarningLevel where
  | quiet
  | normal
  | verbose
deriving DecidableEq

/-- A language level of the input or the output. -/
inductive LanguageMode where
  | es3
  | es5
  | es6
  | es2016
  | es2017
  | es2018
  | es2019
  | es2020
  | esNext
deriving DecidableEq

/-- Whether diagnostics are coloured. -/
inductive ColorMode where
  | always
  | never
deriving DecidableEq

namespace CompilationLevel

def all : List CompilationLevel :=
  [whitespaceOnly, simple, advanced]

def name : CompilationLevel → String
  | whitespaceOnly => "WHITESPACE_ONLY"
  | simple => "SIMPLE"
  | advanced => "ADVANCED"

def rank : CompilationLevel → Nat
  | whitespaceOnly => 0
  | simple => 1
  | advanced => 2

/-- The spellings that documents and the command line take. -/
def spellings : List (String × CompilationLevel) :=
  all.map fun level => (level.name, level)

def read : JsonReader CompilationLevel :=
  JsonReader.choice spellings

def toJson (level : CompilationLevel) : JsonValue :=
  .string level.name

end CompilationLevel

namespace WarningLevel

def all : List WarningLevel :=
  [quiet, normal, verbose]

def name : WarningLevel → String
  | quiet => "QUIET"
  | normal => "DEFAULT"
  | verbose => "VERBOSE"

def rank : WarningLevel → Nat
  | quiet => 0
  | normal => 1
  | verbose => 2

/-- The spellings that documents and the command line take. -/
def spellings : List (String × WarningLevel) :=
  all.map fun level => (level.name, level)

def read : JsonReader WarningLevel :=
  JsonReader.choice spellings

def toJson (level : WarningLevel) : JsonValue :=
  .string level.name

end WarningLevel

namespace LanguageMode

def all : List LanguageMode :=
  [es3, es5, es6, es2016, es2017, es2018, es2019, es2020, esNext]

/-- The short name, under which a level is shown and written. -/
def name : LanguageMode → String
  | es3 => "ES3"
  | es5 => "ES5"
  | es6 => "ES6"
  | es2016 => "ES2016"
  | es2017 => "ES2017"
  | es2018 => "ES2018"
  | es2019 => "ES2019"
  | es2020 => "ES2020"
  | esNext => "ES_NEXT"

/-- The name that the compiler takes. -/
def compilerName : LanguageMode → String
  | es3 => "ECMASCRIPT3"
  | es5 => "ECMASCRIPT5"
  | es6 => "ECMASCRIPT_2015"
  | es2016 => "ECMASCRIPT_2016"
  | es2017 => "ECMASCRIPT_2017"
  | es2018 => "ECMASCRIPT_2018"
  | es2019 => "ECMASCRIPT_2019"
  | es2020 => "ECMASCRIPT_2020"
  | esNext => "ECMASCRIPT_NEXT"

def rank : LanguageMode → Nat
  | es3 => 0
  | es5 => 1
  | es6 => 2
  | es2016 => 3
  | es2017 => 4
  | es2018 => 5
  | es2019 => 6
  | es2020 => 7
  | esNext => 8

/-- The names that documents may use for a level, in the order of a refusal. -/
def documentNames : LanguageMode → List String
  | es6 => ["ECMASCRIPT6", "ECMASCRIPT_2015", "ES2015", "ES6"]
  | mode => [mode.compilerName, mode.name]

def documentSpellings : List (String × LanguageMode) :=
  all.flatMap fun mode => mode.documentNames.map fun name => (name, mode)

/-- The names that the command line takes for a level; the first one is its own. -/
def commandNames : LanguageMode → List String
  | es6 => ["ES6", "ES2015"]
  | mode => [mode.name]

def commandSpellings : List (String × LanguageMode) :=
  all.flatMap fun mode => mode.commandNames.map fun name => (name, mode)

def read : JsonReader LanguageMode :=
  JsonReader.choice documentSpellings

def toJson (mode : LanguageMode) : JsonValue :=
  .string mode.name

end LanguageMode

namespace ColorMode

def all : List ColorMode :=
  [always, never]

def name : ColorMode → String
  | always => "always"
  | never => "never"

def enabled : ColorMode → Bool
  | always => true
  | never => false

/-- The spellings that documents and the command line take. -/
def spellings : List (String × ColorMode) :=
  all.map fun mode => (mode.name, mode)

def read : JsonReader ColorMode :=
  JsonReader.choice spellings

def toJson (mode : ColorMode) : JsonValue :=
  .string mode.name

end ColorMode

/-- Looks a command line value up, where wanted without regard to the case of ASCII letters. -/
def ofSpelling? {α : Type} (known : List (String × α)) (ignoreCase : Bool) (text : String) :
    Option α :=
  (known.find? fun entry =>
    if ignoreCase then entry.1.toList.map Char.toLower == text.toList.map Char.toLower
    else entry.1 == text).map Prod.snd

end CompilerDriver

import CompilerDriver.Arguments
import CompilerDriver.Similarity
import CompilerDriver.TerminalText

namespace CompilerDriver

/-- Why a command line is not carried out. Help and version count: they end the program too.
`used` holds the options that were taken in before, `inputs` whether there were inputs, for the
line that shows the usage; `others` tells whether anything was taken in before. -/
inductive UsageFault where
  | help
  | version
  | unknownShort (argument : String)
  | unknownLong (name : String) (used : List String) (inputs : Bool)
  | missingValue (option : String) (possible : List String)
  | invalidValue (value : String) (option : String) (possible : List String)
  | repeated (option : String)
  | unexpectedValue (value : String) (switch : Switch) (others : Bool)
  | invalidText
deriving DecidableEq

namespace UsageText

/-- Text between a terminal's command for a style and the one that ends all styles. -/
def painted (style text : String) : String :=
  style ++ text ++ "\x1b[0m"

def heading : String → String :=
  painted "\x1b[1m\x1b[4m"

def alarm : String → String :=
  painted "\x1b[1m\x1b[31m"

/-- What is typed as it stands. -/
def literal : String → String :=
  painted "\x1b[1m"

def valid : String → String :=
  painted "\x1b[32m"

def invalid : String → String :=
  painted "\x1b[33m"

def programName : String := "closurec"

def versionLine : String := programName ++ " 0.1.0"

def aboutLine : String :=
  "Compile JavaScript with the Closure Compiler and report diagnostics against your sources"

def usageOf (words : List String) : String :=
  heading "Usage:" ++ " " ++ " ".intercalate (literal programName :: words)

def usualUsage : String :=
  usageOf ["[OPTIONS]", "[FILE]..."]

/-- An option with the word that stands for its value. -/
def optionWord (shown : String) : String :=
  let name := shown.toList.takeWhile (· ≠ ' ')
  literal (String.ofList name) ++ String.ofList (shown.toList.drop name.length)

/-- The usage with the options that were used, if any. -/
def usage (used : List String) (inputs : Bool) : String :=
  if used.isEmpty && !inputs then usualUsage
  else usageOf (used.map optionWord ++ [if inputs then "<FILE>..." else "[FILE]..."])

/-- The inputs and the options that make up a command; help is not one of them. -/
def alternatives : List String :=
  "FILE" :: (CommandOption.all.filter (· ≠ .switch .help)).map CommandOption.shown

/-- The usage for a switch beside other arguments, which are shown as one choice. -/
def usageBeside (switch : Switch) : String :=
  let choice := "<" ++ "|".intercalate alternatives ++ ">"
  usageOf (if alternatives.contains switch.shown then [choice]
    else [optionWord switch.shown, choice])

def hint : String :=
  "For more information, try '" ++ literal Switch.help.shown ++ "'."

def settingAbout : Setting → String
  | .externs => "Extern declaration file (repeatable)"
  | .defines => "Compile-time constant override, e.g. DEBUG=false (repeatable)"
  | .compilationLevel => "Optimization level"
  | .warningLevel => "Diagnostic verbosity"
  | .languageIn => "Input language level (default ES6)"
  | .languageOut => "Output language level"
  | .flagfile => "JSON file with compiler options (jsCode, externs, defines, compilationLevel, ...)"
  | .compiler => "Compiler command line (default: $CLOSUREC_COMPILER or google-closure-compiler)"
  | .externsDir => "Directory of default extern files (default: $CLOSUREC_EXTERNS_DIR or ./externs)"
  | .color => "Colorize diagnostics [default: always]"

def switchAbout : Switch → String
  | .version => "Print version"
  | .createSourceMap => "Append an inline base64 source map to the output"
  | .processCommonJsModules => "Rewrite CommonJS \x60require()\x60 modules"
  | .log => "Enable logging"
  | .help => "Print help"

def possible (values : List String) : String :=
  "[possible values: " ++ ", ".intercalate values ++ "]"

/-- What an option does. -/
def about : CommandOption → String
  | .setting s =>
    if s.possibleValues.isEmpty then settingAbout s
    else settingAbout s ++ " " ++ possible s.possibleValues
  | .switch s => switchAbout s

/-- The letter that stands for a switch, where there is one. -/
def letter? : CommandOption → Option Char
  | .switch .version => some 'v'
  | .switch .help => some 'h'
  | _ => none

/-- The lines about one option: how it is spelled, and what it does. -/
def optionLines (option : CommandOption) : List String :=
  let lead := match letter? option with
    | some c => literal ("-" ++ c.toString) ++ ", "
    | none => "    "
  ["  " ++ lead ++ optionWord option.shown, "          " ++ about option]

def helpLines : List String :=
  [aboutLine, "", usualUsage, "", heading "Arguments:",
    "  [FILE]...  Input files. \x60-\x60 or no files at all reads standard input", "",
    heading "Options:"] ++
  CommandOption.all.flatMap optionLines

def possibleLines (values : List String) : List String :=
  if values.isEmpty then [] else ["  " ++ possible (values.map valid)]

def errorLine (message : String) : String :=
  alarm "error:" ++ " " ++ message

def foundLine (argument : String) : String :=
  errorLine ("unexpected argument '" ++ invalid argument ++ "' found")

def tipLine (tip : String) : String :=
  "  " ++ valid "tip:" ++ " " ++ tip

/-- How an argument that looks like an option is passed as a value. -/
def valueTip (argument : String) : String :=
  tipLine ("to pass '" ++ invalid argument ++ "' as a value, use '" ++ valid ("-- " ++ argument) ++
    "'")

def similarTip (kind similar : String) : String :=
  tipLine ("a similar " ++ kind ++ " exists: '" ++ valid similar ++ "'")

end UsageText

namespace UsageFault

open UsageText

/-- The long option that was probably meant. -/
def similarOption? (name : String) : Option CommandOption :=
  (Similarity.nearest? name (CommandOption.all.map CommandOption.name)).bind
    CommandOption.ofName?

/-- What is printed for a terminal, line by line. -/
def lines : UsageFault → List String
  | help => helpLines
  | version => [versionLine]
  | unknownShort argument =>
    [foundLine argument, "", valueTip argument, "", usualUsage, "", hint]
  | unknownLong name used inputs =>
    let argument := "--" ++ name
    match similarOption? name with
    | some option =>
      let used := if used.contains option.shown then used else used ++ [option.shown]
      [foundLine argument, "", similarTip "argument" ("--" ++ option.name), "",
        usage used inputs, "", hint]
    | none => [foundLine argument, "", valueTip argument, "", usage used inputs, "", hint]
  | missingValue option values =>
    [errorLine ("a value is required for '" ++ invalid option ++ "' but none was supplied")] ++
      possibleLines values ++ ["", hint]
  | invalidValue value option values =>
    [errorLine ("invalid value '" ++ invalid value ++ "' for '" ++ literal option ++ "'")] ++
      possibleLines values ++
      (match Similarity.nearest? value values with
      | some similar => ["", similarTip "value" similar]
      | none => []) ++ ["", hint]
  | repeated option =>
    [errorLine ("the argument '" ++ invalid option ++ "' cannot be used multiple times"), "",
      usualUsage, "", hint]
  | unexpectedValue value switch others =>
    [errorLine ("unexpected value '" ++ invalid value ++ "' for '" ++ literal switch.shown ++
        "' found; no more were expected"), "",
      if others then usageBeside switch else usage [switch.shown] false, "", hint]
  | invalidText =>
    [errorLine "invalid UTF-8 was detected in one or more arguments", "", usualUsage, "", hint]

/-- What goes to a terminal. -/
def colored (fault : UsageFault) : String :=
  String.join (fault.lines.map (· ++ "\n"))

/-- What goes to any other stream. -/
def text (fault : UsageFault) : String :=
  TerminalText.onStream fault.colored

/-- The first line without styles and without its end, which may hold a carriage return. -/
def headline (fault : UsageFault) : String :=
  let printed := (TerminalText.inMessage fault.colored).toList
  let line := printed.takeWhile (· ≠ '\n')
  String.ofList (if line.getLast? = some '\x0d' then line.dropLast else line)

/-- Help and version are answers, the rest are errors. -/
def isAnswer : UsageFault → Bool
  | help => true
  | version => true
  | _ => false

end UsageFault

end CompilerDriver

import CompilerDriver.Flags
import CompilerDriver.InputSource
import CompilerDriver.JsonText
import CompilerDriver.LogEvent

namespace CompilerDriver

/-- Everything that one run of the compiler is given. The externs of the user come first, then
the default set. -/
structure Invocation where
  jsCode : List Buffer
  externs : List Buffer
  defines : Defines
  languageIn : LanguageMode
  languageOut : Option LanguageMode
  compilationLevel : Option CompilationLevel
  warningLevel : Option WarningLevel
  createSourceMap : Bool
  processCommonJsModules : Bool
  defaultExterns : Bool
deriving DecidableEq

namespace Invocation

/-- The input language of flags that name none. -/
def usualLanguageIn : LanguageMode := .es6

/-- The flags with a default extern set, which stands for the compiler's own environment unless
it is empty. -/
def ofFlags (flags : Flags) (defaults : List Buffer) : Invocation where
  jsCode := flags.jsCode
  externs := flags.externs ++ defaults
  defines := flags.defines
  languageIn := flags.languageIn.getD usualLanguageIn
  languageOut := flags.languageOut
  compilationLevel := flags.compilationLevel
  warningLevel := flags.warningLevel
  createSourceMap := flags.createSourceMap
  processCommonJsModules := flags.processCommonJsModules
  defaultExterns := !defaults.isEmpty

/-- The argument that hands a constant on; one without a value has none. -/
def defineArgument? (entry : String × DefineValue) : Option String :=
  if entry.2 = .undefined then none
  else some ("--define=" ++ entry.1 ++ "=" ++ entry.2.shown)

/-- The compiler's arguments, the externs being in these files. -/
def arguments (invocation : Invocation) (externFiles : List Path) : List String :=
  ["--json_streams=BOTH", "--error_format=JSON"] ++
  (if invocation.defaultExterns then ["--env=CUSTOM"] else []) ++
  ["--language_in=" ++ invocation.languageIn.compilerName] ++
  invocation.languageOut.toList.map (fun mode => "--language_out=" ++ mode.compilerName) ++
  invocation.compilationLevel.toList.map (fun level => "--compilation_level=" ++ level.name) ++
  invocation.warningLevel.toList.map (fun level => "--warning_level=" ++ level.name) ++
  invocation.defines.entries.filterMap defineArgument? ++
  (if invocation.createSourceMap then ["--create_source_map=%outname%.map"] else []) ++
  (if invocation.processCommonJsModules then ["--process_common_js_modules"] else []) ++
  externFiles.map (fun path => "--externs=" ++ path.shown)

/-- The warnings about constants that are not handed on. -/
def argumentEvents (invocation : Invocation) : List LogEvent :=
  invocation.defines.entries.filterMap fun entry =>
    if entry.2 = .undefined then
      some ⟨.warn, .compilerProcess,
        "Skipping define " ++ Quoted.text entry.1 ++ " without a value"⟩
    else none

/-- The sources as the compiler reads them, each under its display name. -/
def payload (invocation : Invocation) : Bytes :=
  JsonValue.write (.list (invocation.jsCode.map fun buffer =>
    .object [("path", .string buffer.displayName), ("src", .string buffer.content)]))

end Invocation

end CompilerDriver

import CompilerDriver.UsageText

namespace CompilerDriver

namespace CommandLine

/-- An option or inputs whose values are complete only when something else begins. -/
inductive Pending where
  | nothing
  | setting (setting : Setting) (value : Option Bytes)
  | inputs (values : List Bytes)
deriving DecidableEq

/-- How far a command line has been understood. -/
structure State where
  arguments : Arguments
  /-- The options that have been taken in, as they are shown, and whether inputs have been; also
  those whose value was then refused. -/
  seen : List String
  hasInputs : Bool
  pending : Pending
  /-- Everything that follows is an input. -/
  trailing : Bool

def State.start : State :=
  ⟨.blank, [], false, .nothing, false⟩

/-- The inputs, as they are shown. -/
def inputsShown : String := "[FILE]..."

def pathValue (value : Bytes) (shown : String) : Except UsageFault Path :=
  if value.isEmpty then .error (.missingValue shown []) else .ok value

def textValue (value : Bytes) : Except UsageFault String :=
  match Utf8.decode value with
  | .ok text => .ok text
  | .error _ => .error .invalidText

/-- One of the spellings of a choice; octets that are no text are none. -/
def choiceValue {α : Type} (setting : Setting) (known : List (String × α)) (value : Bytes) :
    Except UsageFault α :=
  let found := match Utf8.decode value with
    | .ok text => ofSpelling? known false text
    | .error _ => none
  match found with
  | some a => .ok a
  | none =>
    if value.isEmpty then .error (.missingValue setting.shown setting.possibleValues)
    else .error (.invalidValue (Utf8.decodeLossy value) setting.shown setting.possibleValues)

/-- Gives an option its value. -/
def assign (setting : Setting) (value : Bytes) (arguments : Arguments) :
    Except UsageFault Arguments :=
  match setting with
  | .externs => (pathValue value setting.shown).map fun path =>
    { arguments with externs := arguments.externs ++ [path] }
  | .defines => (textValue value).map fun entry =>
    { arguments with defines := arguments.defines ++ [entry] }
  | .compilationLevel => (choiceValue setting CompilationLevel.spellings value).map fun level =>
    { arguments with compilationLevel := some level }
  | .warningLevel => (choiceValue setting WarningLevel.spellings value).map fun level =>
    { arguments with warningLevel := some level }
  | .languageIn => (choiceValue setting LanguageMode.commandSpellings value).map fun mode =>
    { arguments with languageIn := some mode }
  | .languageOut => (choiceValue setting LanguageMode.commandSpellings value).map fun mode =>
    { arguments with languageOut := some mode }
  | .flagfile => (pathValue value setting.shown).map fun path =>
    { arguments with flagfile := some path }
  | .compiler => (textValue value).map fun command =>
    { arguments with compiler := some command }
  | .externsDir => (pathValue value setting.shown).map fun path =>
    { arguments with externsDir := some path }
  | .color => (choiceValue setting ColorMode.spellings value).map fun color =>
    { arguments with color }

def see (seen : List String) (shown : String) : List String :=
  if seen.contains shown then seen else seen ++ [shown]

/-- A state, and the fault that it was left with if there was one. -/
abbrev Settled := State × Option UsageFault

/-- Changes the arguments of a state, unless that fails. -/
def State.change (state : State) : Except UsageFault Arguments → Settled
  | .ok arguments => ({ state with arguments }, none)
  | .error fault => (state, some fault)

/-- Takes an option in. One that has its value already loses it, with a fault. -/
def accept (setting : Setting) (value : Option Bytes) (state : State) : Settled :=
  match value with
  | none => (state, some (.missingValue setting.shown setting.possibleValues))
  | some value =>
    if !setting.repeatable && state.seen.contains setting.shown then
      ({ state with seen := state.seen.erase setting.shown }, some (.repeated setting.shown))
    else
      State.change { state with seen := see state.seen setting.shown }
        (assign setting value state.arguments)

def addInputs (values : List Bytes) (arguments : Arguments) : Except UsageFault Arguments :=
  (values.mapM fun value => pathValue value inputsShown).map fun paths =>
    { arguments with inputs := arguments.inputs ++ paths }

/-- Completes what is pending. -/
def settle (state : State) : Settled :=
  let settled := { state with pending := .nothing }
  match state.pending with
  | .nothing => (settled, none)
  | .setting setting value => accept setting value settled
  | .inputs values =>
    State.change { settled with hasInputs := true } (addInputs values state.arguments)

/-- A fault ends it all. -/
def complete : Settled → Except UsageFault State
  | (state, none) => .ok state
  | (_, some fault) => .error fault

/-- Completes what is pending before something else begins. -/
def next (state : State) : Except UsageFault State :=
  complete (settle state)

/-- Sets a switch that has not been set. -/
def turnOn (switch : Switch) (state : State) : Except UsageFault State :=
  let set (arguments : Arguments) : Except UsageFault State :=
    if state.seen.contains switch.shown then .error (.repeated switch.shown)
    else .ok { state with arguments, seen := state.seen ++ [switch.shown] }
  match switch with
  | .help => .error .help
  | .version => .error .version
  | .createSourceMap => set { state.arguments with createSourceMap := true }
  | .processCommonJsModules => set { state.arguments with processCommonJsModules := true }
  | .log => set { state.arguments with log := true }

/-- The fault of a name that no option has. What is pending is completed for the usage, and a
fault of it yields to this one. -/
def unknownName (name : String) (state : State) : UsageFault :=
  let state := (settle state).1
  .unknownLong name state.seen state.hasInputs

/-- The fault of a value for a switch. What is pending does not count. -/
def valueOfSwitch (switch : Switch) (value : Bytes) (state : State) : UsageFault :=
  .unexpectedValue (Utf8.decodeLossy value) switch (state.hasInputs || !state.seen.isEmpty)

def equalsSign : UInt8 := 0x3D

/-- Splits a long option at its first equals sign. -/
def splitLong (body : Bytes) : Bytes × Option Bytes :=
  let name := body.takeWhile (· ≠ equalsSign)
  match body.drop name.length with
  | [] => (name, none)
  | _ :: value => (name, some value)

/-- An argument that starts with two dashes. -/
def long (body : Bytes) (state : State) : Except UsageFault State :=
  let (nameBytes, value) := splitLong body
  let found := match Utf8.decode nameBytes with
    | .ok name => CommandOption.ofName? name
    | .error _ => none
  match found, value with
  | some (.setting setting), some value => do
    complete (accept setting (some value) (← next state))
  | some (.setting setting), none => do
    return { (← next state) with pending := .setting setting none }
  | some (.switch switch), some value => .error (valueOfSwitch switch value state)
  | some (.switch switch), none => do
    turnOn switch (← next state)
  | none, _ => .error (unknownName (Utf8.decodeLossy nameBytes) state)

/-- An argument that starts with one dash. Only its first letter can count. -/
def short (body : Bytes) (state : State) : Except UsageFault State :=
  match Utf8.front body with
  | .char 'h' _ => do turnOn .help (← next state)
  | .char 'v' _ => do turnOn .version (← next state)
  | .char c _ => .error (.unknownShort ("-" ++ c.toString))
  | _ => .error (.unknownShort ("-" ++ Utf8.decodeLossy body))

/-- A value: that of the option that waits for one, else an input. -/
def plain (argument : Bytes) (state : State) : Except UsageFault State :=
  match state.pending, state.trailing with
  | .setting setting none, false =>
    .ok { state with pending := .setting setting (some argument) }
  | .inputs values, _ => .ok { state with pending := .inputs (values ++ [argument]) }
  | _, _ => do
    return { (← next state) with pending := .inputs [argument] }

def dash : UInt8 := 0x2D

def step (state : State) (argument : Bytes) : Except UsageFault State :=
  if state.trailing then plain argument state
  else
    match argument with
    | [] => plain [] state
    | a :: rest =>
      if a ≠ dash ∨ rest = [] then plain argument state
      else if rest = [dash] then .ok { state with trailing := true }
      else if rest.head? = some dash then long rest.tail state
      else short rest state

/-- Understands the arguments from left to right; the first fault ends it. -/
def parse (arguments : List Bytes) : Except UsageFault Arguments := do
  let state ← arguments.foldlM step State.start
  return (← next state).arguments

end CommandLine

end CompilerDriver

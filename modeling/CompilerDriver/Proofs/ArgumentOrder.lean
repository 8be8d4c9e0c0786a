import CompilerDriver.Program
import CompilerDriver.Proofs.CommandWords
import Mathlib.Data.List.Induction
import Mathlib.Data.List.Nodup

namespace CompilerDriver

/-- Values that choose at most once among what is known, each by one of its spellings. -/
inductive Chosen {α : Type} (known : List (String × α)) : List Bytes → Option α → Prop
  | nothing : Chosen known [] none
  | once {text : String} {a : α} (h : (text, a) ∈ known) : Chosen known [Utf8.encode text] (some a)

theorem Chosen.eq_none {α : Type} {known : List (String × α)} {choice : Option α}
    (h : Chosen known [] choice) : choice = none := by
  cases h
  rfl

theorem Chosen.length_le {α : Type} {known : List (String × α)} {values : List Bytes}
    {choice : Option α} (h : Chosen known values choice) : values.length ≤ 1 := by
  cases h <;> simp

/-- Arguments hold these values of an option, all that were given, in their order. -/
def Setting.Holds (setting : Setting) (values : List Bytes) (arguments : Arguments) : Prop :=
  match setting with
  | .externs => values = arguments.externs
  | .defines => values = arguments.defines.map Utf8.encode
  | .compilationLevel => Chosen CompilationLevel.spellings values arguments.compilationLevel
  | .warningLevel => Chosen WarningLevel.spellings values arguments.warningLevel
  | .languageIn => Chosen LanguageMode.commandSpellings values arguments.languageIn
  | .languageOut => Chosen LanguageMode.commandSpellings values arguments.languageOut
  | .flagfile => values = arguments.flagfile.toList
  | .compiler => values = arguments.compiler.toList.map Utf8.encode
  | .externsDir => values = arguments.externsDir.toList
  | .color => ∃ color, Chosen ColorMode.spellings values color ∧
      arguments.color = color.getD Arguments.blank.color

/-- Whether arguments have a switch set; help and version are never part of them. -/
def Switch.isOn (arguments : Arguments) : Switch → Bool
  | createSourceMap => arguments.createSourceMap
  | processCommonJsModules => arguments.processCommonJsModules
  | log => arguments.log
  | version => false
  | help => false

/-- No path among the arguments is empty. -/
structure Arguments.NamesPaths (arguments : Arguments) : Prop where
  inputs : [] ∉ arguments.inputs
  externs : [] ∉ arguments.externs
  flagfile : arguments.flagfile ≠ some []
  externsDir : arguments.externsDir ≠ some []

namespace CommandLine

namespace Spelling

/-- The input that is spelled. -/
def path? : Spelling → Option Path
  | input path => some path
  | _ => none

/-- The value that an option is given. -/
def valueOf? (setting : Setting) : Spelling → Option Bytes
  | attached given value => if given = setting then some value else none
  | apart given value => if given = setting then some value else none
  | _ => none

/-- The option that is spelled. -/
def option? : Spelling → Option CommandOption
  | input _ => none
  | attached setting _ => some (.setting setting)
  | apart setting _ => some (.setting setting)
  | switch given => some (.switch given)

end Spelling

/-- The inputs of a row of spellings. -/
def inputsIn (spellings : List Spelling) : List Path :=
  spellings.filterMap Spelling.path?

/-- The values that a row of spellings gives to an option. -/
def valuesIn (setting : Setting) (spellings : List Spelling) : List Bytes :=
  spellings.filterMap (Spelling.valueOf? setting)

/-- A row of spellings, in whatever order, is a way to write arguments: it has the inputs and the
values of each option in their order, and each switch once if it is set. -/
structure Spells (spellings : List Spelling) (arguments : Arguments) : Prop where
  wellFormed : ∀ spelling ∈ spellings, spelling.WellFormed
  inputs : inputsIn spellings = arguments.inputs
  settings : ∀ setting : Setting, setting.Holds (valuesIn setting spellings) arguments
  switches : ∀ switch : Switch,
    spellings.count (.switch switch) = (switch.isOn arguments).toNat

section

variable {setting other : Setting} {switch : Switch} {arguments : Arguments} {values : List Bytes}
  {value : Bytes}

/-- Arguments without the last value of an option. -/
def withoutLast (setting : Setting) (arguments : Arguments) : Arguments :=
  match setting with
  | .externs => { arguments with externs := arguments.externs.dropLast }
  | .defines => { arguments with defines := arguments.defines.dropLast }
  | .compilationLevel => { arguments with compilationLevel := none }
  | .warningLevel => { arguments with warningLevel := none }
  | .languageIn => { arguments with languageIn := none }
  | .languageOut => { arguments with languageOut := none }
  | .flagfile => { arguments with flagfile := none }
  | .compiler => { arguments with compiler := none }
  | .externsDir => { arguments with externsDir := none }
  | .color => { arguments with color := Arguments.blank.color }

/-- Arguments without their last input. -/
def withoutInput (arguments : Arguments) : Arguments :=
  { arguments with inputs := arguments.inputs.dropLast }

/-- Arguments with a switch not set. -/
def withoutSwitch (switch : Switch) (arguments : Arguments) : Arguments :=
  match switch with
  | .createSourceMap => { arguments with createSourceMap := false }
  | .processCommonJsModules => { arguments with processCommonJsModules := false }
  | .log => { arguments with log := false }
  | .version => arguments
  | .help => arguments

theorem holds_withoutLast_of_ne (ne : other ≠ setting) :
    other.Holds values (withoutLast setting arguments) ↔ other.Holds values arguments := by
  cases setting <;> cases other <;> first | exact Iff.rfl | exact absurd rfl ne

theorem isOn_withoutLast : switch.isOn (withoutLast setting arguments) = switch.isOn arguments := by
  cases setting <;> cases switch <;> rfl

theorem inputs_withoutLast : (withoutLast setting arguments).inputs = arguments.inputs := by
  cases setting <;> rfl

theorem namesPaths_withoutLast (named : arguments.NamesPaths) :
    (withoutLast setting arguments).NamesPaths := by
  obtain ⟨inputs, externs, flagfile, externsDir⟩ := named
  have fewer : [] ∉ arguments.externs.dropLast := fun h => externs (List.dropLast_subset _ h)
  cases setting <;> constructor <;> first | assumption | exact nofun

theorem holds_withoutSwitch :
    setting.Holds values (withoutSwitch switch arguments) ↔ setting.Holds values arguments := by
  cases switch <;> cases setting <;> exact Iff.rfl

theorem inputs_withoutSwitch : (withoutSwitch switch arguments).inputs = arguments.inputs := by
  cases switch <;> rfl

theorem isOn_withoutSwitch_self : switch.isOn (withoutSwitch switch arguments) = false := by
  cases switch <;> rfl

theorem isOn_withoutSwitch_of_ne {kept : Switch} (ne : kept ≠ switch) :
    kept.isOn (withoutSwitch switch arguments) = kept.isOn arguments := by
  cases switch <;> cases kept <;> first | rfl | exact absurd rfl ne

theorem namesPaths_withoutSwitch (named : arguments.NamesPaths) :
    (withoutSwitch switch arguments).NamesPaths := by
  obtain ⟨inputs, externs, flagfile, externsDir⟩ := named
  cases switch <;> exact ⟨inputs, externs, flagfile, externsDir⟩

theorem ofSpelling?_of_mem {α : Type} {known : List (String × α)} {text : String} {a : α}
    (distinct : (known.map Prod.fst).Nodup) (h : (text, a) ∈ known) :
    ofSpelling? known false text = some a := by
  unfold ofSpelling?
  simp only [Bool.false_eq_true, if_false]
  cases found : known.find? fun entry => entry.1 == text with
  | none => simpa using List.find?_eq_none.mp found _ h
  | some entry =>
    have member := List.mem_of_find?_eq_some found
    have same : entry.1 = text := by simpa using List.find?_some found
    rw [List.inj_on_of_nodup_map distinct member h same]
    rfl

theorem choiceValue_of_mem {α : Type} {known : List (String × α)} {text : String} {a : α}
    (distinct : (known.map Prod.fst).Nodup) (h : (text, a) ∈ known) (setting : Setting) :
    choiceValue setting known (Utf8.encode text) = .ok a := by
  unfold choiceValue
  simp only [Utf8.decode_encode, ofSpelling?_of_mem distinct h]

theorem pathValue_of_ne {path : Path} (h : path ≠ []) (shown : String) :
    pathValue path shown = .ok path := by
  rw [pathValue, if_neg (by simpa using h)]

theorem textValue_encode (text : String) : textValue (Utf8.encode text) = .ok text := by
  rw [textValue, Utf8.decode_encode]

/-- A choice that is made once has no value before it. -/
theorem chosen_concat {α : Type} {known : List (String × α)} {choice : Option α}
    (distinct : (known.map Prod.fst).Nodup) (setting : Setting)
    (h : Chosen known (values ++ [value]) choice) :
    Chosen known values none ∧ ∃ a, choice = some a ∧ choiceValue setting known value = .ok a := by
  generalize whole : values ++ [value] = all at h
  cases h with
  | nothing => simp at whole
  | once member =>
    obtain ⟨rfl, last⟩ := List.append_eq_singleton_iff.mp whole |>.resolve_right (by simp)
    cases last
    exact ⟨.nothing, _, rfl, choiceValue_of_mem distinct member setting⟩

theorem toList_eq_concat {choice : Option Bytes} (h : values ++ [value] = choice.toList) :
    values = [] ∧ choice = some value := by
  cases choice with
  | none => simp at h
  | some only => simpa [List.append_eq_singleton_iff, eq_comm] using h

/-- The last value of an option, given to the arguments without it, makes up the arguments. -/
theorem assign_withoutLast (named : arguments.NamesPaths)
    (h : setting.Holds (values ++ [value]) arguments) :
    setting.Holds values (withoutLast setting arguments) ∧
      assign setting value (withoutLast setting arguments) = .ok arguments := by
  obtain ⟨inputs, externs, defines, createSourceMap, compilationLevel, warningLevel, languageIn,
    languageOut, processCommonJsModules, flagfile, compiler, externsDir, color, log⟩ := arguments
  cases setting with
  | externs =>
    cases h
    have nonempty : value ≠ [] := fun empty => named.externs (by simp [empty])
    simp [Setting.Holds, withoutLast, assign, pathValue_of_ne nonempty, Except.map]
  | defines =>
    obtain ⟨before, last, rfl, rfl, encoded⟩ := List.map_eq_append_iff.mp (Eq.symm h)
    obtain ⟨entry, rfl, rfl⟩ := List.map_eq_singleton_iff.mp encoded
    simp [Setting.Holds, withoutLast, assign, textValue_encode, Except.map]
  | compilationLevel =>
    have distinct : (CompilationLevel.spellings.map Prod.fst).Nodup := by decide
    obtain ⟨none, level, rfl, found⟩ := chosen_concat distinct .compilationLevel h
    exact ⟨none, by rw [assign, found]; rfl⟩
  | warningLevel =>
    have distinct : (WarningLevel.spellings.map Prod.fst).Nodup := by decide
    obtain ⟨none, level, rfl, found⟩ := chosen_concat distinct .warningLevel h
    exact ⟨none, by rw [assign, found]; rfl⟩
  | languageIn | languageOut =>
    have distinct : (LanguageMode.commandSpellings.map Prod.fst).Nodup := by decide
    obtain ⟨none, mode, rfl, found⟩ := chosen_concat distinct _ h
    exact ⟨none, by rw [assign, found]; rfl⟩
  | flagfile =>
    obtain ⟨rfl, rfl⟩ := toList_eq_concat h
    have nonempty : value ≠ [] := fun empty => named.flagfile (by simp [empty])
    exact ⟨rfl, by rw [assign, pathValue_of_ne nonempty]; rfl⟩
  | compiler =>
    cases compiler with
    | none => simp [Setting.Holds] at h
    | some command =>
      obtain ⟨rfl, rfl⟩ : values = [] ∧ value = Utf8.encode command := by
        simpa [Setting.Holds, List.append_eq_singleton_iff] using h
      exact ⟨rfl, by rw [assign, textValue_encode]; rfl⟩
  | externsDir =>
    obtain ⟨rfl, rfl⟩ := toList_eq_concat h
    have nonempty : value ≠ [] := fun empty => named.externsDir (by simp [empty])
    exact ⟨rfl, by rw [assign, pathValue_of_ne nonempty]; rfl⟩
  | color =>
    have distinct : (ColorMode.spellings.map Prod.fst).Nodup := by decide
    obtain ⟨choice, chosen, rfl⟩ := h
    obtain ⟨none, color, rfl, found⟩ := chosen_concat distinct .color chosen
    exact ⟨⟨_, none, rfl⟩, by rw [assign, found]; rfl⟩

/-- An option that may be given only once has no value before its last. -/
theorem eq_nil_of_holds (once : setting.repeatable = false)
    (h : setting.Holds (values ++ [value]) arguments) : values = [] := by
  have single : (values ++ [value]).length ≤ 1 := by
    cases setting with
    | externs | defines => exact absurd once (by decide)
    | compilationLevel | warningLevel | languageIn | languageOut => exact Chosen.length_le h
    | flagfile | externsDir => exact (congrArg List.length h).trans_le Option.length_toList_le
    | compiler =>
      have whole : values ++ [value] = arguments.compiler.toList.map Utf8.encode := h
      rw [whole, List.length_map]
      exact Option.length_toList_le
    | color =>
      obtain ⟨choice, chosen, -⟩ := h
      exact chosen.length_le
  exact List.eq_nil_of_length_eq_zero (by simpa using single)

end

section

variable {spellings : List Spelling} {last : Spelling} {setting : Setting} {value : Bytes}
  {arguments : Arguments}

theorem mem_see {seen : List String} {shown other : String} :
    other ∈ see seen shown ↔ other ∈ seen ∨ other = shown := by
  unfold see
  split
  · rename_i already
    exact ⟨.inl, fun h => h.elim id fun same => by simpa [same] using already⟩
  · simp

/-- The options that are spelled. -/
def optionsIn (spellings : List Spelling) : List CommandOption :=
  spellings.filterMap Spelling.option?

theorem valuesIn_ne_nil (h : .setting setting ∈ optionsIn spellings) :
    valuesIn setting spellings ≠ [] := by
  obtain ⟨spelling, member, given⟩ := List.mem_filterMap.mp h
  have value : ∃ value, spelling.valueOf? setting = some value := by
    cases spelling with
    | input path => cases given
    | attached other value | apart other value =>
      cases given
      exact ⟨value, if_pos rfl⟩
    | switch other => cases given
  obtain ⟨value, found⟩ := value
  exact List.ne_nil_of_mem (List.mem_filterMap.mpr ⟨spelling, member, found⟩)

theorem switch_mem {switch : Switch} (h : .switch switch ∈ optionsIn spellings) :
    .switch switch ∈ spellings := by
  obtain ⟨spelling, member, given⟩ := List.mem_filterMap.mp h
  cases spelling <;> cases given
  exact member

/-- A state that has taken in a row of spellings of these arguments. -/
structure Holding (spellings : List Spelling) (arguments : Arguments) (state : State) : Prop where
  arguments : state.arguments = arguments
  seen : ∀ option : CommandOption, option.shown ∈ state.seen → option ∈ optionsIn spellings

/-- Without the last of its spellings, a row spells arguments from which the last one makes up the
whole. -/
def MakesUp (spellings : List Spelling) (last : Spelling) (arguments : Arguments) : Prop :=
  ∃ earlier : Arguments, Spells spellings earlier ∧ earlier.NamesPaths ∧
    ∀ state, Holding spellings earlier state →
      ∃ reached, last.takenIn state = .ok reached ∧ Holding (spellings ++ [last]) arguments reached

theorem inputsIn_concat :
    inputsIn (spellings ++ [last]) = inputsIn spellings ++ last.path?.toList := by
  cases last <;> simp [inputsIn, Spelling.path?]

theorem valuesIn_concat :
    valuesIn setting (spellings ++ [last]) =
      valuesIn setting spellings ++ (last.valueOf? setting).toList := by
  unfold valuesIn
  rw [List.filterMap_append]
  cases found : last.valueOf? setting <;> simp [found]

theorem optionsIn_concat :
    optionsIn (spellings ++ [last]) = optionsIn spellings ++ last.option?.toList := by
  cases last <;> simp [optionsIn, Spelling.option?]

/-- The last input, added to the arguments without it, makes up the arguments. -/
theorem addInputs_withoutInput {paths : List Path} {path : Path} (nonempty : path ≠ [])
    (whole : paths ++ [path] = arguments.inputs) :
    addInputs [path] (withoutInput arguments) = .ok arguments := by
  have read : [path].mapM (fun value => pathValue value inputsShown) = .ok [path] := by
    simp only [List.mapM_cons, List.mapM_nil, pathValue_of_ne nonempty]
    rfl
  rw [addInputs, read]
  simp only [Except.map, withoutInput, ← whole, List.dropLast_concat]
  rw [whole]

theorem accept_of_assign {state : State} (h : assign setting value state.arguments = .ok arguments)
    (fresh : setting.repeatable = false → setting.shown ∉ state.seen) :
    accept setting (some value) state =
      ({ state with arguments, seen := see state.seen setting.shown }, none) := by
  have first : ¬(!setting.repeatable && state.seen.contains setting.shown) := by
    simpa using fresh
  simp only [accept, if_neg first, h, State.change]

theorem turnOn_of_unseen {switch : Switch} {state : State} (on : switch.isOn arguments = true)
    (h : state.arguments = withoutSwitch switch arguments) (fresh : switch.shown ∉ state.seen) :
    turnOn switch state = .ok { state with arguments, seen := state.seen ++ [switch.shown] } := by
  obtain ⟨state, seen, hasInputs, pending, trailing⟩ := state
  cases h
  obtain ⟨inputs, externs, defines, createSourceMap, compilationLevel, warningLevel, languageIn,
    languageOut, processCommonJsModules, flagfile, compiler, externsDir, color, log⟩ := arguments
  have unseen : seen.contains switch.shown = false := by simpa using fresh
  cases switch with
  | help | version => cases on
  | createSourceMap | processCommonJsModules | log =>
    cases on
    simp only [turnOn, unseen]
    rfl

/-- What a row spells, told apart by its last spelling. -/
theorem Spells.split (spelled : Spells (spellings ++ [last]) arguments) :
    (∀ spelling ∈ spellings, spelling.WellFormed) ∧
    inputsIn spellings ++ last.path?.toList = arguments.inputs ∧
    (∀ setting : Setting,
      setting.Holds (valuesIn setting spellings ++ (last.valueOf? setting).toList) arguments) ∧
    ∀ switch : Switch, spellings.count (.switch switch) + [last].count (.switch switch) =
      (switch.isOn arguments).toNat := by
  obtain ⟨wellFormed, inputs, settings, switches⟩ := spelled
  rw [inputsIn_concat] at inputs
  simp only [valuesIn_concat] at settings
  simp only [List.count_append] at switches
  exact ⟨fun spelling member => wellFormed spelling (List.mem_append_left _ member), inputs,
    settings, switches⟩

theorem mem_optionsIn_concat {state : State} {arguments : Arguments} {given option : CommandOption}
    (holding : Holding spellings arguments state) (named : last.option? = some given)
    (h : option.shown ∈ state.seen ∨ option.shown = given.shown) :
    option ∈ optionsIn (spellings ++ [last]) := by
  rw [optionsIn_concat, named, List.mem_append]
  obtain earlier | same := h
  · exact .inl (holding.seen option earlier)
  · rw [CommandOption.shown_injective same]
    exact .inr List.mem_cons_self

theorem makesUp_of_input {path : Path} (named : arguments.NamesPaths)
    (spelled : Spells (spellings ++ [.input path]) arguments) :
    MakesUp spellings (.input path) arguments := by
  obtain ⟨wellFormed, whole, settings, switches⟩ := spelled.split
  replace whole : inputsIn spellings ++ [path] = arguments.inputs := whole
  have nonempty : path ≠ [] := fun empty => named.inputs (by simp [← whole, empty])
  have fewer : [] ∉ arguments.inputs.dropLast := fun h => named.inputs (List.dropLast_subset _ h)
  refine ⟨withoutInput arguments, ⟨wellFormed, ?_, fun setting => ?_, fun switch => ?_⟩,
    ⟨fewer, named.externs, named.flagfile, named.externsDir⟩, fun state holding => ?_⟩
  · rw [withoutInput, ← whole, List.dropLast_concat]
  · have held := settings setting
    simp only [Spelling.valueOf?, Option.toList_none, List.append_nil] at held
    cases setting <;> exact held
  · have counted := switches switch
    cases switch <;> exact counted
  · obtain ⟨state, seen, hasInputs, pending, trailing⟩ := state
    obtain ⟨rfl, known⟩ := holding
    refine ⟨⟨arguments, seen, true, pending, trailing⟩, ?_, rfl, fun option shown => ?_⟩
    · rw [Spelling.takenIn, addInputs_withoutInput nonempty whole]
      rfl
    · rw [optionsIn_concat]
      exact List.mem_append_left _ (known option shown)

theorem makesUp_of_setting (named : arguments.NamesPaths)
    (spelled : Spells (spellings ++ [last]) arguments)
    (given : last = .attached setting value ∨ last = .apart setting value) :
    MakesUp spellings last arguments := by
  have path : last.path? = none := by rcases given with rfl | rfl <;> rfl
  have option : last.option? = some (.setting setting) := by rcases given with rfl | rfl <;> rfl
  have different (switch : Switch) : last ≠ .switch switch := by
    rcases given with rfl | rfl <;> nofun
  have taken (state : State) :
      last.takenIn state = complete (accept setting (some value) state) := by
    rcases given with rfl | rfl <;> rfl
  have valued (other : Setting) :
      last.valueOf? other = if setting = other then some value else none := by
    rcases given with rfl | rfl <;> rfl
  obtain ⟨wellFormed, inputs, settings, switches⟩ := spelled.split
  simp only [path, Option.toList_none, List.append_nil] at inputs
  have held : setting.Holds (valuesIn setting spellings ++ [value]) arguments := by
    simpa only [valued, if_pos, Option.toList_some] using settings setting
  obtain ⟨before, whole⟩ := assign_withoutLast named held
  refine ⟨withoutLast setting arguments, ⟨wellFormed, ?_, fun other => ?_, fun switch => ?_⟩,
    namesPaths_withoutLast named, fun state holding => ?_⟩
  · rw [inputs, inputs_withoutLast]
  · by_cases same : other = setting
    · exact same ▸ before
    · rw [holds_withoutLast_of_ne same]
      simpa only [valued, if_neg (Ne.symm same), Option.toList_none, List.append_nil] using
        settings other
  · have counted := switches switch
    rw [List.count_singleton, if_neg (by simpa using different switch)] at counted
    rw [isOn_withoutLast]
    exact counted
  · -- An option that is given once has no value before this one, so that it was not seen.
    have fresh (once : setting.repeatable = false) : setting.shown ∉ state.seen := fun shown =>
      valuesIn_ne_nil (holding.seen (.setting setting) shown) (eq_nil_of_holds once held)
    rw [taken, accept_of_assign (holding.arguments ▸ whole) fresh]
    exact ⟨_, rfl, rfl, fun other shown => mem_optionsIn_concat holding option (mem_see.mp shown)⟩

theorem makesUp_of_switch {switch : Switch} (named : arguments.NamesPaths)
    (spelled : Spells (spellings ++ [.switch switch]) arguments) :
    MakesUp spellings (.switch switch) arguments := by
  obtain ⟨wellFormed, inputs, settings, switches⟩ := spelled.split
  have counted := switches switch
  rw [List.count_singleton_self] at counted
  have on : switch.isOn arguments = true := by
    by_contra off
    rw [Bool.not_eq_true] at off
    rw [off] at counted
    cases counted
  have absent : spellings.count (.switch switch) = 0 := by
    rw [on] at counted
    exact Nat.succ.inj counted
  refine ⟨withoutSwitch switch arguments,
    ⟨wellFormed, ?_, fun setting => ?_, fun other => ?_⟩,
    namesPaths_withoutSwitch named, fun state holding => ?_⟩
  · rw [inputs_withoutSwitch, ← inputs]
    exact (List.append_nil _).symm
  · rw [holds_withoutSwitch]
    simpa only [Spelling.valueOf?, Option.toList_none, List.append_nil] using settings setting
  · by_cases same : other = switch
    · rw [same, absent, isOn_withoutSwitch_self]
      rfl
    · have counted := switches other
      rw [List.count_singleton, if_neg (by simpa using Ne.symm same)] at counted
      rw [isOn_withoutSwitch_of_ne same]
      exact counted
  · have fresh : switch.shown ∉ state.seen := fun shown =>
      List.count_eq_zero.mp absent (switch_mem (holding.seen (.switch switch) shown))
    refine ⟨_, turnOn_of_unseen on holding.arguments fresh, rfl, fun option shown => ?_⟩
    rw [List.mem_append, List.mem_singleton] at shown
    exact mem_optionsIn_concat holding rfl shown

/-- The last of the spellings makes up the arguments, from what those before it spell. -/
theorem makesUp_of_concat (named : arguments.NamesPaths)
    (spelled : Spells (spellings ++ [last]) arguments) : MakesUp spellings last arguments := by
  cases last with
  | input path => exact makesUp_of_input named spelled
  | attached setting value => exact makesUp_of_setting named spelled (.inl rfl)
  | apart setting value => exact makesUp_of_setting named spelled (.inr rfl)
  | switch given => exact makesUp_of_switch named spelled

/-- Nothing spells what an empty command line asks for. -/
theorem eq_blank_of_spells_nil (spelled : Spells [] arguments) : arguments = .blank := by
  obtain ⟨inputs, externs, defines, createSourceMap, compilationLevel, warningLevel, languageIn,
    languageOut, processCommonJsModules, flagfile, compiler, externsDir, color, log⟩ := arguments
  have off (switch : Switch) := spelled.switches switch
  have free (choice : Option Bytes) (h : [] = choice.toList) : choice = none := by
    simpa using h.symm
  obtain rfl : inputs = [] := spelled.inputs.symm
  obtain rfl : externs = [] := Eq.symm (spelled.settings .externs)
  obtain rfl : defines = [] := List.map_eq_nil_iff.mp (Eq.symm (spelled.settings .defines))
  obtain rfl : createSourceMap = false := Bool.toNat_eq_zero.mp (off .createSourceMap).symm
  obtain rfl : processCommonJsModules = false :=
    Bool.toNat_eq_zero.mp (off .processCommonJsModules).symm
  obtain rfl : log = false := Bool.toNat_eq_zero.mp (off .log).symm
  obtain rfl : compilationLevel = none := Chosen.eq_none (spelled.settings .compilationLevel)
  obtain rfl : warningLevel = none := Chosen.eq_none (spelled.settings .warningLevel)
  obtain rfl : languageIn = none := Chosen.eq_none (spelled.settings .languageIn)
  obtain rfl : languageOut = none := Chosen.eq_none (spelled.settings .languageOut)
  obtain rfl : flagfile = none := free flagfile (spelled.settings .flagfile)
  obtain rfl : compiler = none := by
    have given : [] = compiler.toList.map Utf8.encode := spelled.settings .compiler
    simpa using given.symm
  obtain rfl : externsDir = none := free externsDir (spelled.settings .externsDir)
  obtain ⟨choice, chosen, rfl⟩ := spelled.settings .color
  obtain rfl := Chosen.eq_none chosen
  rfl

/-- Spellings are taken in one by one until they have made up their arguments. -/
theorem foldlM_takenIn (named : arguments.NamesPaths) (spelled : Spells spellings arguments) :
    ∃ reached,
      spellings.foldlM (fun taken spelling => Spelling.takenIn spelling taken) State.start =
        .ok reached ∧ Holding spellings arguments reached := by
  -- From the last spelling on, since what an option may do depends on what stands before it.
  induction spellings using List.reverseRecOn generalizing arguments with
  | nil =>
    exact ⟨State.start, rfl, (eq_blank_of_spells_nil spelled).symm, nofun⟩
  | append_singleton spellings last ih =>
    obtain ⟨earlier, before, named, makes⟩ := makesUp_of_concat named spelled
    obtain ⟨state, taken, holding⟩ := ih named before
    obtain ⟨reached, given, whole⟩ := makes state holding
    refine ⟨reached, ?_, whole⟩
    rw [List.foldlM_append, taken]
    exact (congrArg (· >>= pure) given).trans rfl

/-- However arguments are spelled, a command line is understood as these arguments, and so the
options built from any two spellings are the same. -/
theorem parse_of_spells (named : arguments.NamesPaths) (spelled : Spells spellings arguments) :
    parse (spellings.flatMap Spelling.words) = .ok arguments ∧
      ∀ others : List Spelling, Spells others arguments → ∀ files : Files,
        (parse (others.flatMap Spelling.words)).map (FlagFile.build files) =
          (parse (spellings.flatMap Spelling.words)).map (FlagFile.build files) := by
  have parsed {row : List Spelling} (spelled : Spells row arguments) :
      parse (row.flatMap Spelling.words) = .ok arguments := by
    obtain ⟨reached, taken, holding⟩ := foldlM_takenIn named spelled
    rw [parse_words spelled.wellFormed, taken, ← holding.arguments]
    rfl
  exact ⟨parsed spelled, fun others same files => by rw [parsed same, parsed spelled]⟩

end

/-- Inputs among options, an option with a value like an option, and a dash for an input and for a
value. -/
def mixedSpellings : List Spelling :=
  [.input (Utf8.encode "a.js"), .apart .languageIn (Utf8.encode "ES2015"),
    .attached .externs (Utf8.encode "--x.js"), .input (Utf8.encode "-"),
    .switch .createSourceMap, .apart .defines (Utf8.encode "A=1"),
    .apart .compiler (Utf8.encode "-"), .attached .defines (Utf8.encode "B"),
    .apart .externs (Utf8.encode "y.js"), .attached .color (Utf8.encode "never")]

def mixedArguments : Arguments :=
  { Arguments.blank with
    inputs := [Utf8.encode "a.js", Utf8.encode "-"]
    externs := [Utf8.encode "--x.js", Utf8.encode "y.js"]
    defines := ["A=1", "B"]
    createSourceMap := true
    languageIn := some .es6
    compiler := some "-"
    color := .never }

theorem namesPaths_mixed : mixedArguments.NamesPaths :=
  ⟨by decide +kernel, by decide +kernel, by decide, by decide⟩

theorem spells_mixed : Spells mixedSpellings mixedArguments := by
  refine ⟨by decide +kernel, by decide +kernel, fun setting => ?_, fun switch => ?_⟩
  · cases setting with
    | externs | defines | flagfile | compiler | externsDir => exact rfl
    | compilationLevel | warningLevel | languageOut => exact .nothing
    | languageIn =>
      have known : ("ES2015", LanguageMode.es6) ∈ LanguageMode.commandSpellings := by decide
      exact .once known
    | color =>
      have known : ("never", ColorMode.never) ∈ ColorMode.spellings := by decide
      exact ⟨_, .once known, rfl⟩
  · cases switch <;> decide +kernel

theorem parse_mixed :
    mixedArguments.NamesPaths ∧ Spells mixedSpellings mixedArguments ∧
      parse (mixedSpellings.flatMap Spelling.words) = .ok mixedArguments :=
  ⟨namesPaths_mixed, spells_mixed, (parse_of_spells namesPaths_mixed spells_mixed).1⟩

end CommandLine

end CompilerDriver

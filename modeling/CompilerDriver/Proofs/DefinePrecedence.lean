import CompilerDriver.Proofs.DefineMap
import CompilerDriver.Proofs.LabelledArguments
import CompilerDriver.Proofs.ProgramOutcome
import CompilerDriver.Proofs.Utf8Order

namespace CompilerDriver

namespace LooseDefines

/-- The value that the last of several entries with a name gives to it. -/
def lastValue? (entries : List String) (name : String) : Option DefineValue :=
  (entries.map parseDefine).reverse.lookup name

/-- The value that constants give to a name, in whatever form they are. -/
def valueOf? : LooseDefines → String → Option DefineValue
  | one entry, name => lastValue? [entry] name
  | many entries, name => lastValue? entries name
  | typed defines, name => defines.get? name

/-- Constants that are written out as entries, or not given at all. -/
inductive WrittenAs : Option LooseDefines → List String → Prop
  | absent : WrittenAs none []
  | one (entry : String) : WrittenAs (some (.one entry)) [entry]
  | many (entries : List String) : WrittenAs (some (.many entries)) entries

theorem get?_parse (entries : List String) (name : String) :
    (Defines.parse entries).get? name = lastValue? entries name :=
  Defines.get?_ofList (entries.map parseDefine) name

theorem get?_normalize (defines : LooseDefines) (name : String) :
    defines.normalize.get? name = defines.valueOf? name := by
  cases defines with
  | one entry => exact get?_parse [entry] name
  | many entries => exact get?_parse entries name
  | typed defines => rfl

theorem get?_normalizeDefines (given : Option LooseDefines) (name : String) :
    (normalizeDefines given).get? name = given.bind (·.valueOf? name) := by
  cases given with
  | none => rfl
  | some defines => exact get?_normalize defines name

theorem normalizeDefines_of_writtenAs {given : Option LooseDefines} {entries : List String}
    (h : WrittenAs given entries) : normalizeDefines given = .parse entries := by
  cases h <;> rfl

end LooseDefines

namespace Defines

theorem parse_append (earlier later : List String) :
    parse (earlier ++ later) = (parse earlier).insertAll (later.map parseDefine) := by
  rw [parse, List.map_append, ofList_append]
  rfl

/-- The constants that have a value. -/
def valued (defines : Defines) : Defines where
  entries := defines.entries.filter (·.2 ≠ .undefined)
  sorted := defines.sorted.filter _

theorem mem_valued_iff (defines : Defines) (name : String) (value : DefineValue) :
    (name, value) ∈ defines.valued.entries ↔
      defines.get? name = some value ∧ value ≠ .undefined := by
  rw [valued, List.mem_filter, mem_entries_iff, decide_eq_true_eq]

theorem valued_precede (defines : Defines) :
    defines.valued.entries.Pairwise fun a b => Utf8.Precedes a.1 b.1 :=
  defines.valued.sorted.imp Utf8.precedes_of_lt

end Defines

namespace Invocation

/-- What is handed on about a constant that has a value. -/
def defineText (entry : String × DefineValue) : String :=
  entry.1 ++ "=" ++ entry.2.shown

theorem filterMap_defineText? (entries : List (String × DefineValue)) :
    entries.filterMap defineText? = (entries.filter (·.2 ≠ .undefined)).map defineText := by
  induction entries with
  | nil => rfl
  | cons entry entries ih =>
    by_cases bare : entry.2 = .undefined
    · rw [List.filterMap_cons_none (by rw [defineText?, if_pos bare]),
        List.filter_cons_of_neg (by simp [bare]), ih]
    · rw [List.filterMap_cons_some (by rw [defineText?, if_neg bare]),
        List.filter_cons_of_pos (by simp [bare]), List.map_cons, ih]
      rfl

/-- The arguments about constants are those of the constants that have a value, in their order. -/
theorem valuesOf_define (invocation : Invocation) (externFiles : List Path) :
    valuesOf "--define=" (invocation.arguments externFiles) =
      invocation.defines.valued.entries.map defineText := by
  have member : ("--define=", invocation.defines.entries.filterMap defineText?) ∈
      invocation.labelled externFiles := by
    simp [labelled]
  rw [valuesOf_arguments member, filterMap_defineText?]
  rfl

end Invocation

namespace FlagFile

open LooseDefines

variable {files : Files} {arguments : Arguments} {given : LooseFlags}

theorem normalize_overlayDefines (given : Option LooseDefines) (entries : List String) :
    normalizeDefines (overlayDefines given entries) =
      (normalizeDefines given).insertAll (entries.map parseDefine) := by
  cases entries with
  | nil => rfl
  | cons entry entries => rfl

theorem get?_overlayDefines (given : Option LooseDefines) (entries : List String)
    (name : String) :
    (normalizeDefines (overlayDefines given entries)).get? name =
      (lastValue? entries name).or (given.bind (·.valueOf? name)) := by
  rw [normalize_overlayDefines, Defines.get?_insertAll, get?_normalizeDefines]
  rfl

/-- The constants are those of the flag file under those of the command line, of which the last one
with a name counts, and the compiler is given those that have a value. -/
theorem build_defines (h : Given files arguments.flagfile given) :
    ∃ flags, (build files arguments).result = .ok flags ∧
      (∀ name, flags.normalize.defines.get? name =
        (lastValue? arguments.defines name).or (given.defines.bind (·.valueOf? name))) ∧
      (∀ entries, WrittenAs given.defines entries →
        flags.normalize.defines = .parse (entries ++ arguments.defines)) ∧
      ∀ defaults externFiles, ∃ emitted : List (String × DefineValue),
        valuesOf "--define="
            ((Invocation.ofFlags flags.normalize defaults).arguments externFiles) =
          emitted.map (fun entry => entry.1 ++ "=" ++ entry.2.shown) ∧
        emitted.Pairwise (fun a b => Utf8.Precedes a.1 b.1) ∧
        ∀ name value, (name, value) ∈ emitted ↔
          (lastValue? arguments.defines name).or (given.defines.bind (·.valueOf? name)) =
            some value ∧ value ≠ .undefined := by
  have looked := get?_overlayDefines given.defines arguments.defines
  refine ⟨overlay given arguments, build_result_eq_ok_iff.mpr ⟨given, h, rfl⟩, looked, ?_, ?_⟩
  · intro entries written
    rw [Defines.parse_append, ← normalizeDefines_of_writtenAs written]
    exact normalize_overlayDefines given.defines arguments.defines
  · intro defaults externFiles
    refine ⟨_, Invocation.valuesOf_define _ externFiles, Defines.valued_precede _, ?_⟩
    intro name value
    rw [Defines.mem_valued_iff, ← looked]
    rfl

/-- A value with an equals sign replaces a number, and a bare entry takes a constant away. -/
theorem build_defines_over_list :
    let text := "\x7b\"defines\":[\"A=1\",\"B=2\",\"C='c'\"]\x7d"
    let files : Files := ⟨fun _ => .ok text, fun _ => .error .notFound⟩
    let arguments : Arguments :=
      { Arguments.blank with flagfile := some [], defines := ["B", "A=x", "A=a=b"] }
    ∃ flags, (build files arguments).result = .ok flags ∧
      flags.normalize.defines.get? "A" = some (.text "a=b") ∧
      flags.normalize.defines.get? "B" = some .undefined ∧
      valuesOf "--define=" ((Invocation.ofFlags flags.normalize []).arguments []) =
        ["A=a=b", "C='c'"] := by
  intro text files arguments
  let given : LooseFlags :=
    { LooseFlags.blank with defines := some (.many ["A=1", "B=2", "C='c'"]) }
  have parsed : LooseFlags.ofDocument (Utf8.encode text) = .ok given := by decide +kernel
  have known : Given files arguments.flagfile given := ⟨text, rfl, parsed⟩
  obtain ⟨flags, built, looked, written, _⟩ := build_defines known
  refine ⟨flags, built, (looked "A").trans ?_, (looked "B").trans ?_, ?_⟩
  · decide +kernel
  · decide +kernel
  · rw [Invocation.valuesOf_define]
    show flags.normalize.defines.valued.entries.map _ = _
    rw [written _ (.many _)]
    decide +kernel

end FlagFile

end CompilerDriver

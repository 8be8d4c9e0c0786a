import CompilerDriver.Invocation
import Mathlib.Data.List.Infix

namespace CompilerDriver

/-- What stands behind a label in an argument that begins with it. -/
def behind? (label argument : String) : Option String :=
  (argument.toList.dropPrefix? label.toList).map String.ofList

/-- What the arguments with a label say, in their order. -/
def valuesOf (label : String) (arguments : List String) : List String :=
  arguments.filterMap (behind? label)

/-- No argument can begin with both labels. -/
def Apart (label other : String) : Prop :=
  ¬label.toList <+: other.toList ∧ ¬other.toList <+: label.toList
deriving Decidable

theorem behind?_append (label value : String) : behind? label (label ++ value) = some value := by
  rw [behind?, String.toList_append, List.dropPrefix?_append_of_beq]
  · simp
  · simp

theorem behind?_of_apart {label other : String} (apart : Apart label other) (value : String) :
    behind? label (other ++ value) = none := by
  cases h : (other.toList ++ value.toList).dropPrefix? label.toList with
  | none => rw [behind?, String.toList_append, h]; rfl
  | some rest =>
    obtain ⟨front, whole, same⟩ := List.dropPrefix?_eq_some_iff.mp h
    obtain rfl : front = label.toList := by simpa using same
    rcases List.prefix_or_prefix_of_prefix ⟨rest, whole.symm⟩
      (List.prefix_append other.toList value.toList) with left | right
    · exact absurd left apart.1
    · exact absurd right apart.2

theorem Apart.symm {label other : String} (apart : Apart label other) : Apart other label :=
  ⟨apart.2, apart.1⟩

theorem valuesOf_append (label : String) (left right : List String) :
    valuesOf label (left ++ right) = valuesOf label left ++ valuesOf label right :=
  List.filterMap_append

theorem valuesOf_map_self (label : String) (values : List String) :
    valuesOf label (values.map (label ++ ·)) = values := by
  rw [valuesOf, List.filterMap_map]
  have each : ∀ value ∈ values, (behind? label ∘ (label ++ ·)) value = some value :=
    fun value _ => behind?_append label value
  rw [List.filterMap_congr each, List.filterMap_some]

theorem valuesOf_map_of_apart {label other : String} (apart : Apart label other)
    (values : List String) : valuesOf label (values.map (other ++ ·)) = [] := by
  rw [valuesOf, List.filterMap_map, List.filterMap_eq_nil_iff]
  exact fun value _ => behind?_of_apart apart value

/-- Among arguments whose labels are pairwise apart, those with one label say its own values. -/
theorem valuesOf_of_mem {groups : List (String × List String)}
    (apart : (groups.map Prod.fst).Pairwise Apart) {label : String} {values : List String}
    (member : (label, values) ∈ groups) :
    valuesOf label (groups.flatMap fun group => group.2.map (group.1 ++ ·)) = values := by
  induction groups with
  | nil => cases member
  | cons group groups ih =>
    rw [List.map_cons, List.pairwise_cons] at apart
    obtain ⟨first, rest⟩ := apart
    rw [List.flatMap_cons, valuesOf_append]
    obtain rfl | later := List.mem_cons.mp member
    · have others :
          valuesOf label (groups.flatMap fun group => group.2.map (group.1 ++ ·)) = [] := by
        rw [valuesOf, List.filterMap_flatMap, List.flatMap_eq_nil_iff]
        intro other ho
        exact valuesOf_map_of_apart (first _ (List.mem_map_of_mem ho)) other.2
      rw [valuesOf_map_self, others, List.append_nil]
    · have foreign := (first _ (List.mem_map_of_mem later)).symm
      rw [valuesOf_map_of_apart foreign, ih rest later, List.nil_append]

namespace Invocation

/-- What stands behind the label of a constant; one without a value has no argument. -/
def defineText? (entry : String × DefineValue) : Option String :=
  if entry.2 = .undefined then none else some (entry.1 ++ "=" ++ entry.2.shown)

/-- The arguments by their labels. -/
def labelled (invocation : Invocation) (externFiles : List Path) :
    List (String × List String) := [
  ("--json_streams=", ["BOTH"]),
  ("--error_format=", ["JSON"]),
  ("--env=", if invocation.defaultExterns then ["CUSTOM"] else []),
  ("--language_in=", [invocation.languageIn.compilerName]),
  ("--language_out=", invocation.languageOut.toList.map LanguageMode.compilerName),
  ("--compilation_level=", invocation.compilationLevel.toList.map CompilationLevel.name),
  ("--warning_level=", invocation.warningLevel.toList.map WarningLevel.name),
  ("--define=", invocation.defines.entries.filterMap defineText?),
  ("--create_source_map=", if invocation.createSourceMap then ["%outname%.map"] else []),
  ("--process_common_js_modules", if invocation.processCommonJsModules then [""] else []),
  ("--externs=", externFiles.map Path.shown)]

theorem defineArgument?_eq (entry : String × DefineValue) :
    defineArgument? entry = (defineText? entry).map ("--define=" ++ ·) := by
  unfold defineArgument? defineText?
  split
  · rfl
  · simp [String.append_assoc]

theorem arguments_eq_labelled (invocation : Invocation) (externFiles : List Path) :
    invocation.arguments externFiles =
      (invocation.labelled externFiles).flatMap fun group => group.2.map (group.1 ++ ·) := by
  have whenever (b : Bool) (label value : String) :
      (if b then [label ++ value] else []) = (if b then [value] else []).map (label ++ ·) := by
    cases b <;> rfl
  have environment := whenever invocation.defaultExterns "--env=" "CUSTOM"
  have sourceMap := whenever invocation.createSourceMap "--create_source_map=" "%outname%.map"
  have modules := whenever invocation.processCommonJsModules "--process_common_js_modules" ""
  have defines : invocation.defines.entries.filterMap defineArgument? =
      (invocation.defines.entries.filterMap defineText?).map ("--define=" ++ ·) := by
    rw [List.map_filterMap]
    exact List.filterMap_congr fun entry _ => defineArgument?_eq entry
  simp only [labelled, List.flatMap_cons, List.flatMap_nil, ← environment, ← sourceMap, ← modules,
    ← defines, List.map_cons, List.map_nil, List.map_map, List.append_nil]
  simp only [arguments, List.append_assoc]
  rfl

theorem labels_apart (invocation : Invocation) (externFiles : List Path) :
    ((invocation.labelled externFiles).map Prod.fst).Pairwise Apart := by
  show List.Pairwise Apart ["--json_streams=", "--error_format=", "--env=", "--language_in=",
    "--language_out=", "--compilation_level=", "--warning_level=", "--define=",
    "--create_source_map=", "--process_common_js_modules", "--externs="]
  decide

theorem valuesOf_arguments {invocation : Invocation} {externFiles : List Path} {label : String}
    {values : List String} (member : (label, values) ∈ invocation.labelled externFiles) :
    valuesOf label (invocation.arguments externFiles) = values := by
  rw [arguments_eq_labelled]
  exact valuesOf_of_mem (invocation.labels_apart externFiles) member

end Invocation

end CompilerDriver

import CompilerDriver.Proofs.BufferReading
import CompilerDriver.Proofs.CompilerOutcome
import CompilerDriver.Proofs.LabelledArguments
import CompilerDriver.Proofs.WrittenText

namespace CompilerDriver

open JsonGrammar Utf8

namespace Invocation

/-- A buffer as the compiler is given it: under its display name. -/
def handed (buffer : Buffer) : Buffer :=
  ⟨some buffer.displayName, buffer.content⟩

def sourceValue (buffer : Buffer) : JsonValue :=
  .object [("path", .string buffer.displayName), ("src", .string buffer.content)]

theorem told_of_quoted {noun : String} {buffer : Buffer} {path content : List Char}
    (hp : Quoted buffer.displayName path) (hc : Quoted buffer.content content) :
    Buffer.Told noun [("path", path), ("src", content)] (handed buffer) where
  distinct := show ["path", "content"].Nodup by decide
  contented := show "content" ∈ ["path", "content"] by decide
  path := by
    refine ⟨fun member hm named => ?_, fun missing => absurd List.mem_cons_self missing⟩
    obtain rfl | hm := List.mem_cons.mp hm
    · exact .value hp
    · obtain rfl := List.mem_singleton.mp hm
      exact absurd named (show "content" ≠ "path" by decide)
  content := by
    refine ⟨fun member hm named => ?_, fun missing => absurd ?_ missing⟩
    · obtain rfl | hm := List.mem_cons.mp hm
      · exact absurd named (show "path" ≠ "content" by decide)
      · obtain rfl := List.mem_singleton.mp hm
        exact hc
    · exact show "content" ∈ ["path", "content"] by decide

theorem source_written (noun : String) (buffer : Buffer) :
    ∃ text, Buffer.Spells noun (handed buffer) text ∧ octets text = (sourceValue buffer).write := by
  have value {s : String} {text : List Char} (h : Quoted s text) : WellFormed .value text :=
    .scalar (.string h)
  obtain ⟨path, hp, pathWritten⟩ := JsonText.string_written buffer.displayName
  obtain ⟨content, hc, contentWritten⟩ := JsonText.string_written buffer.content
  have spelled : List.Forall₂ JsonText.Spelled
      [("path", .string buffer.displayName), ("src", .string buffer.content)]
      [("path", path), ("src", content)] :=
    .cons ⟨rfl, value hp, pathWritten⟩ (.cons ⟨rfl, value hc, contentWritten⟩ .nil)
  obtain ⟨text, object, written⟩ := JsonText.object_written spelled
  exact ⟨text, .object object (told_of_quoted hp hc), written⟩

/-- What the compiler reads are the sources, in their order, each under its display name. -/
theorem payload_reads (invocation : Invocation) :
    JsonReader.document (JsonReader.list Buffer.readSource) invocation.payload =
      .ok (invocation.jsCode.map handed) := by
  have each : ∀ buffer ∈ invocation.jsCode.map handed, ∃ text,
      Buffer.Spells "struct SourceBuffer" buffer text ∧
        octets text = (sourceValue buffer).write := by
    intro _ hm
    obtain ⟨buffer, _, rfl⟩ := List.mem_map.mp hm
    exact source_written _ buffer
  obtain ⟨text, listed, written⟩ := JsonText.list_written each
  have payload : invocation.payload = octets text := by
    rw [written, List.map_map]
    rfl
  rw [payload]
  exact JsonReader.document_list_reads listed fun buffer _ => Buffer.form_takes buffer

end Invocation

theorem LanguageMode.compilerName_injective : Function.Injective LanguageMode.compilerName := by
  intro a b same
  cases a <;> cases b <;> first | rfl | exact absurd same (by decide)

theorem CompilationLevel.name_injective : Function.Injective CompilationLevel.name := by
  intro a b same
  cases a <;> cases b <;> first | rfl | exact absurd same (by decide)

theorem WarningLevel.name_injective : Function.Injective WarningLevel.name := by
  intro a b same
  cases a <;> cases b <;> first | rfl | exact absurd same (by decide)

namespace CompilerCall

/-- Arguments of two calls that are the same, or that name the extern files of one place. -/
inductive SameArgument (a b : CompilerCall) : String → String → Prop
  | same (argument : String) : SameArgument a b argument argument
  | file {n : Nat} {left right : Path × Bytes} (hl : a.externs[n]? = some left)
      (hr : b.externs[n]? = some right) :
      SameArgument a b ("--externs=" ++ left.1.shown) ("--externs=" ++ right.1.shown)

/-- Two calls that differ at most in the paths of their extern files. -/
structure Alike (a b : CompilerCall) : Prop where
  stdin : a.stdin = b.stdin
  arguments : List.Forall₂ (SameArgument a b) a.arguments b.arguments
  externs : a.externs.map Prod.snd = b.externs.map Prod.snd

theorem SameArgument.behind?_eq {a b : CompilerCall} {left right : String}
    (h : SameArgument a b left right) {label : String} (apart : Apart label "--externs=") :
    behind? label left = behind? label right := by
  cases h with
  | same argument => rfl
  | file hl hr => rw [behind?_of_apart apart, behind?_of_apart apart]

theorem valuesOf_eq_of_same {a b : CompilerCall} {label : String} (apart : Apart label "--externs=")
    {left right : List String} (h : List.Forall₂ (SameArgument a b) left right) :
    valuesOf label left = valuesOf label right := by
  induction h with
  | nil => rfl
  | cons head tail ih =>
    unfold valuesOf at ih ⊢
    rw [List.filterMap_cons, List.filterMap_cons, head.behind?_eq apart, ih]

end CompilerCall

namespace Invocation

/-- Two invocations that differ at most in what the compiler is not told: which source has no path,
the paths of the externs, and which constants are behind the texts about constants. -/
structure SameHanded (a b : Invocation) : Prop where
  sources : a.jsCode.map handed = b.jsCode.map handed
  externs : a.externs.map Buffer.content = b.externs.map Buffer.content
  languageIn : a.languageIn = b.languageIn
  languageOut : a.languageOut = b.languageOut
  compilationLevel : a.compilationLevel = b.compilationLevel
  warningLevel : a.warningLevel = b.warningLevel
  defines : a.defines.entries.filterMap defineText? = b.defines.entries.filterMap defineText?
  createSourceMap : a.createSourceMap = b.createSourceMap
  processCommonJsModules : a.processCommonJsModules = b.processCommonJsModules
  defaultExterns : a.defaultExterns = b.defaultExterns

theorem sources_eq_of_payload_eq {a b : Invocation} (h : a.payload = b.payload) :
    a.jsCode.map handed = b.jsCode.map handed := by
  have read := a.payload_reads
  rw [h, b.payload_reads] at read
  exact (Except.ok.inj read).symm

end Invocation

namespace CompilerCommand

variable {command : CompilerCommand} {host otherHost : CompilerHost} {invocation other : Invocation}

theorem compile_calls_of_start {exit : CompilerExit}
    (started : host.startChecked (command.call host invocation) = .ok exit) :
    (command.compile host invocation).calls = [command.call host invocation] := by
  rw [Run.calls_eq_deeds, compile_deeds_of_start started]
  rfl

theorem eq_call_of_mem {call : CompilerCall}
    (made : call ∈ (command.compile host invocation).calls) :
    call = command.call host invocation := by
  cases started : host.startChecked (command.call host invocation) with
  | ok exit =>
    rw [compile_calls_of_start started] at made
    exact List.mem_singleton.mp made
  | error cause =>
    rw [Run.calls_eq_deeds, compile_deeds_of_refusal started] at made
    cases made

theorem call_externs_fst (command : CompilerCommand) (host : CompilerHost)
    (invocation : Invocation) :
    (command.call host invocation).externs.map Prod.fst = externPaths host invocation.externs := by
  refine List.map_fst_zip ?_
  simp [externPaths]

theorem call_externs_snd (command : CompilerCommand) (host : CompilerHost)
    (invocation : Invocation) :
    (command.call host invocation).externs.map Prod.snd =
      (invocation.externs.map Buffer.content).map encode := by
  rw [List.map_map]
  refine List.map_snd_zip ?_
  simp [externPaths]

theorem sameHanded_of_alike
    (h : (command.call host invocation).Alike (command.call otherHost other)) :
    invocation.SameHanded other := by
  -- Behind the same leading arguments, only those about externs can differ.
  have values (label : String) (apart : Apart label "--externs=") (place : Nat)
      {mine others : List String}
      (hm : (invocation.labelled (externPaths host invocation.externs))[place]? =
        some (label, mine))
      (ho : (other.labelled (externPaths otherHost other.externs))[place]? =
        some (label, others)) : mine = others := by
    have same := CompilerCall.valuesOf_eq_of_same apart h.arguments
    simp only [call, valuesOf_append] at same
    have same := List.append_cancel_left same
    rwa [Invocation.valuesOf_arguments (List.mem_of_getElem? hm),
      Invocation.valuesOf_arguments (List.mem_of_getElem? ho)] at same
  have optional {α : Type} {name : α → String} (injective : Function.Injective name)
      {mine others : Option α} (same : mine.toList.map name = others.toList.map name) :
      mine = others := by
    cases mine <;> cases others
    · rfl
    · cases same
    · cases same
    · exact congrArg some (injective (List.singleton_inj.mp same))
  have whether {mine others : Bool} {value : String}
      (same : (if mine then [value] else []) = if others then [value] else []) : mine = others := by
    cases mine <;> cases others <;> first | rfl | cases same
  constructor
  · exact Invocation.sources_eq_of_payload_eq h.stdin
  · have contents := h.externs
    rw [call_externs_snd, call_externs_snd] at contents
    exact encode_injective.list_map contents
  · have same := values "--language_in=" (by decide) 3 rfl rfl
    exact LanguageMode.compilerName_injective (List.singleton_inj.mp same)
  · exact optional LanguageMode.compilerName_injective
      (values "--language_out=" (by decide) 4 rfl rfl)
  · exact optional CompilationLevel.name_injective
      (values "--compilation_level=" (by decide) 5 rfl rfl)
  · exact optional WarningLevel.name_injective (values "--warning_level=" (by decide) 6 rfl rfl)
  · exact values "--define=" (by decide) 7 rfl rfl
  · exact whether (values "--create_source_map=" (by decide) 8 rfl rfl)
  · exact whether (values "--process_common_js_modules" (by decide) 9 rfl rfl)
  · exact whether (values "--env=" (by decide) 2 rfl rfl)

theorem call_arguments (command : CompilerCommand) (host : CompilerHost)
    (invocation : Invocation) :
    (command.call host invocation).arguments =
      command.leading ++ invocation.arguments [] ++
        (command.call host invocation).externs.map fun file => "--externs=" ++ file.1.shown := by
  have files :
      (command.call host invocation).externs.map (fun file => "--externs=" ++ file.1.shown) =
        (externPaths host invocation.externs).map fun path => "--externs=" ++ path.shown := by
    rw [← call_externs_fst command, List.map_map]
    rfl
  rw [files, call]
  simp [Invocation.arguments]

/-- The paths of the extern files are all that a host does to a call. -/
theorem alike_of_same (command : CompilerCommand) (host otherHost : CompilerHost)
    (payload : invocation.payload = other.payload)
    (arguments : invocation.arguments [] = other.arguments [])
    (externs : invocation.externs.map Buffer.content = other.externs.map Buffer.content) :
    (command.call host invocation).Alike (command.call otherHost other) := by
  have contents : (command.call host invocation).externs.map Prod.snd =
      (command.call otherHost other).externs.map Prod.snd := by
    rw [call_externs_snd, call_externs_snd, externs]
  refine ⟨payload, ?_, contents⟩
  rw [call_arguments, call_arguments, arguments]
  refine List.rel_append (List.forall₂_same.mpr fun argument _ => .same argument) ?_
  have lengths := congrArg List.length contents
  rw [List.length_map, List.length_map] at lengths
  rw [List.forall₂_map_left_iff, List.forall₂_map_right_iff, List.forall₂_iff_get]
  exact ⟨lengths, fun n hl hr =>
    .file (List.getElem?_eq_getElem hl) (List.getElem?_eq_getElem hr)⟩

/-- A call hands over what it is made for: the compiler reads every source under its display name
and finds every extern in a file of its own, and whatever the constants say, calls that differ at
most in the paths of those files are made for the same. -/
theorem compile_hands_over (command : CompilerCommand) (host : CompilerHost)
    (invocation : Invocation) {exit : CompilerExit}
    (started : host.startChecked (command.call host invocation) = .ok exit) :
    ∃ call, (command.compile host invocation).calls = [call] ∧
      JsonReader.document (JsonReader.list Buffer.readSource) call.stdin =
        .ok (invocation.jsCode.map fun buffer => ⟨some buffer.displayName, buffer.content⟩) ∧
      call.arguments = command.leading ++ invocation.arguments (call.externs.map Prod.fst) ∧
      valuesOf "--externs=" (invocation.arguments (call.externs.map Prod.fst)) =
        call.externs.map (·.1.shown) ∧
      (∀ file ∈ call.externs, ∀ text, file.1 = encode text → file.1 = encode file.1.shown) ∧
      call.externs.map Prod.snd = (invocation.externs.map Buffer.content).map encode ∧
      ∀ otherHost other, ∀ otherCall ∈ (command.compile otherHost other).calls,
        call.Alike otherCall → invocation.SameHanded other := by
  refine ⟨_, compile_calls_of_start started, invocation.payload_reads, ?_, ?_, ?_,
    call_externs_snd command host invocation, ?_⟩
  · rw [call_externs_fst]
    rfl
  · rw [Invocation.valuesOf_arguments (List.mem_of_getElem? (i := 10) rfl), List.map_map]
    rfl
  · intro file _ text path
    rw [Path.shown, path, decodeLossy_encode]
  · intro otherHost other otherCall made alike
    rw [eq_call_of_mem made] at alike
    exact sameHanded_of_alike alike

/-- A source without a path and one named for standard input, a truth value and the word for it:
the compiler is told the same, wherever the extern file lies. -/
theorem compile_hands_over_alike :
    let exit : CompilerExit := ⟨.code 0, [], []⟩
    let command : CompilerCommand := ⟨"compiler", ["--externs=own.js"]⟩
    let host : CompilerHost := ⟨fun _ => encode "here.js", fun _ => .ok exit⟩
    let otherHost : CompilerHost := ⟨fun _ => encode "there.js", fun _ => .ok exit⟩
    let content := "say(\"\\\x01😀\");"
    let invocation : Invocation := ⟨[⟨none, content⟩], [⟨none, "var w;"⟩],
      .ofList [("D", .bool true)], .es6, none, none, none, false, false, true⟩
    let other : Invocation := ⟨[⟨some "stdin", content⟩], [⟨some "w.js", "var w;"⟩],
      .ofList [("D", .text "true")], .es6, none, none, none, false, false, true⟩
    ∃ call otherCall, (command.compile host invocation).calls = [call] ∧
      (command.compile otherHost other).calls = [otherCall] ∧
      call.externs = [(encode "here.js", encode "var w;")] ∧
      otherCall.externs = [(encode "there.js", encode "var w;")] ∧
      JsonReader.document (JsonReader.list Buffer.readSource) call.stdin =
        .ok [⟨some "stdin", content⟩] ∧
      invocation.SameHanded other := by
  intro exit command host otherHost content invocation other
  have started : host.startChecked (command.call host invocation) = .ok exit := by
    rw [CompilerHost.startChecked, if_neg (by decide +kernel)]
  have otherStarted : otherHost.startChecked (command.call otherHost other) = .ok exit := by
    rw [CompilerHost.startChecked, if_neg (by decide +kernel)]
  obtain ⟨call, made, read, -, -, -, -, told⟩ := compile_hands_over command host invocation started
  have alike : (command.call host invocation).Alike (command.call otherHost other) :=
    alike_of_same command host otherHost rfl (by decide +kernel) rfl
  have otherMade := compile_calls_of_start otherStarted
  have own := eq_call_of_mem (made ▸ List.mem_singleton_self call)
  refine ⟨call, _, made, otherMade, ?_, rfl, read, ?_⟩
  · rw [own]
    rfl
  · exact told otherHost other _ (otherMade ▸ List.mem_singleton_self _) (own ▸ alike)

end CompilerCommand

end CompilerDriver

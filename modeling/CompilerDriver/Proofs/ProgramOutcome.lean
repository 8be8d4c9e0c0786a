import CompilerDriver.Program
import CompilerDriver.Proofs.CompilerOutcome
import CompilerDriver.Proofs.SystemReads
import CompilerDriver.Proofs.Utf8Text

namespace CompilerDriver

/-- The options that stand before those of the command line: none, or those of the flag file,
which has to be read and understood. -/
def FlagFile.Given (files : Files) : Option Path → LooseFlags → Prop
  | none, flags => flags = .blank
  | some path, flags =>
    ∃ text, files.readText path = .ok text ∧ LooseFlags.ofDocument (Utf8.encode text) = .ok flags

theorem FlagFile.build_result_eq_ok_iff {files : Files} {arguments : Arguments}
    {flags : LooseFlags} :
    (build files arguments).result = .ok flags ↔
      ∃ given, Given files arguments.flagfile given ∧ flags = overlay given arguments := by
  unfold build
  cases arguments.flagfile with
  | none =>
    constructor
    · intro h
      cases h
      exact ⟨.blank, rfl, rfl⟩
    · rintro ⟨_, rfl, rfl⟩
      rfl
  | some path =>
    simp only [Run.result_bind, Run.result_ofExcept, Given, load]
    cases read : files.readText path with
    | error cause => simp [Except.bind]
    | ok text =>
      cases parsed : LooseFlags.ofDocument (Utf8.encode text) with
      | error cause => simp [Except.bind, Except.mapError, parsed]
      | ok given =>
        simp only [parsed, Except.mapError, Except.bind, Run.result_logAll, Run.result_pure,
          Except.ok.injEq]
        constructor
        · rintro rfl
          exact ⟨given, ⟨text, rfl, parsed⟩, rfl⟩
        · rintro ⟨_, ⟨_, rfl, again⟩, rfl⟩
          rw [parsed] at again
          cases again
          rfl

theorem FlagFile.build_deeds (files : Files) (arguments : Arguments) :
    (build files arguments).deeds = [] := by
  unfold build
  cases arguments.flagfile with
  | none =>
    rw [Run.deeds_bind_ok (Run.result_pure LooseFlags.blank),
      Run.deeds_bind_ok (Run.result_logAll _)]
    simp
  | some path =>
    cases loaded : (Run.ofExcept (load files path)).result with
    | ok flags =>
      rw [Run.deeds_bind_ok loaded, Run.deeds_bind_ok (Run.result_logAll _)]
      simp
    | error fault =>
      rw [Run.deeds_bind_error loaded]
      rfl

/-- What stands behind the compiled code: the line with the source map, when there is one. -/
def CompiledText.trailer : Option String → String
  | none => ""
  | some sourceMap => if sourceMap = "" then "" else sourceMapComment sourceMap ++ "\n"

theorem CompiledText.text_eq (result : CompilationResult) :
    text result = Utf8.encode (result.code ++ "\n" ++ trailer result.sourceMap) := by
  unfold text pieces lines
  cases result.sourceMap with
  | none => simp [trailer]
  | some sourceMap =>
    by_cases empty : sourceMap = ""
    · simp [trailer, empty]
    · simp [trailer, empty, Utf8.encode_append, Option.filter_some]

/-- Every read takes effect, and only once. -/
def World.Fair (world : World) : Prop :=
  ∀ reads, (world.schedule reads).Perm reads

namespace Program

/-- What the stages before the compiler give. -/
structure Preparation where
  defaults : List Buffer
  given : LooseFlags
  sources : List Buffer
  externs : List Buffer

namespace Preparation

def flags (preparation : Preparation) (arguments : Arguments) : LooseFlags :=
  FlagFile.overlay preparation.given arguments

def invocation (preparation : Preparation) (arguments : Arguments) : Invocation :=
  .ofFlags
    (Compilation.extended (preparation.flags arguments) preparation.sources preparation.externs)
    preparation.defaults

/-- The one call of the compiler that these stages lead to. -/
def call (preparation : Preparation) (world : World) (arguments : Arguments) : CompilerCall :=
  (compiler world arguments).call world.host (preparation.invocation arguments)

/-- Every stage before the compiler goes well: the default externs load, the flag file is read and
understood, and every input and every extern is read. Standard input is the input when the command
line names none and the flag file holds no source. -/
structure Holds (world : World) (arguments : Arguments) (preparation : Preparation) : Prop where
  defaults : (DefaultExterns.load world.files (externsDirectory world arguments)).result =
    .ok preparation.defaults
  given : FlagFile.Given world.files arguments.flagfile preparation.given
  sources : List.Forall₂ ((Console.ofBytes world.stdin).Gives world.files.readText)
    (if arguments.inputs = [] ∧ preparation.given.jsCode = [] then [.stdin]
      else arguments.inputs.map .ofArgument) preparation.sources
  externs : List.Forall₂ ((Console.ofBytes world.stdin).Gives world.files.readText)
    (arguments.externs.map .ofArgument) preparation.externs

end Preparation

theorem sourcesToRead_overlay (given : LooseFlags) (arguments : Arguments) :
    Compilation.sourcesToRead (FlagFile.overlay given arguments).normalize
      (arguments.inputs.map .ofArgument) =
        if arguments.inputs = [] ∧ given.jsCode = [] then [.stdin]
        else arguments.inputs.map .ofArgument := by
  have kept : (FlagFile.overlay given arguments).jsCode = given.jsCode := rfl
  simp only [Compilation.sourcesToRead_normalize, kept, List.map_eq_nil_iff]

/-- The compiler ends without a complaint: its status is zero, no diagnostic found in its error
stream is an error, and its output can be made out. -/
structure CleanExit (exit : CompilerExit) (code : String) (sourceMap : Option String) : Prop where
  status : exit.status = .code 0
  noError : ∀ reported ∈ reportedDiagnostics (Utf8.decodeLossy exit.stderr),
    reported.level ≠ "error"
  printed : Printed exit.stdout code sourceMap

variable {world : World} {arguments : Arguments}

theorem run_of_unloaded {failure : Failure}
    (h : (DefaultExterns.load world.files (externsDirectory world arguments)).result =
      .error failure) :
    (run world arguments).result = .error (.build failure) ∧ (run world arguments).deeds = [] := by
  have unloaded : ((DefaultExterns.load world.files
      (externsDirectory world arguments)).mapError ProgramFault.build).result =
        .error (.build failure) := by
    rw [Run.result_mapError, h]
    rfl
  constructor
  · simp only [run, Run.result_bind, Run.result_log, Except.bind, unloaded]
  · rw [run, Run.deeds_bind_ok (Run.result_log ..), Run.deeds_log, List.nil_append,
      Run.deeds_bind_error unloaded, Run.deeds_mapError, DefaultExterns.load_deeds]

section

variable {defaults : List Buffer}
  (loaded : (DefaultExterns.load world.files (externsDirectory world arguments)).result =
    .ok defaults)

include loaded

theorem load_mapError_result :
    ((DefaultExterns.load world.files (externsDirectory world arguments)).mapError
      ProgramFault.build).result = .ok defaults := by
  rw [Run.result_mapError, loaded]
  rfl

theorem run_of_unflagged {fault : ProgramFault}
    (h : (FlagFile.build world.files arguments).result = .error fault) :
    (run world arguments).result = .error fault ∧ (run world arguments).deeds = [] := by
  constructor
  · simp only [run, Run.result_bind, Run.result_log, Except.bind, load_mapError_result loaded, h]
  · rw [run, Run.deeds_bind_ok (Run.result_log ..), Run.deeds_log, List.nil_append,
      Run.deeds_bind_ok (load_mapError_result loaded), Run.deeds_mapError,
      DefaultExterns.load_deeds, List.nil_append, Run.deeds_bind_error h, FlagFile.build_deeds]

/-- The part of a run behind the default externs and the flags. -/
def reading (world : World) (arguments : Arguments) (flags : LooseFlags) (defaults : List Buffer) :
    Run Failure Compilation :=
  Compilation.compileInputs ((compiler world arguments).compile world.host) (reader world)
    (arguments.inputs.map .ofArgument) (arguments.externs.map .ofArgument) flags defaults

variable {flags : LooseFlags} (built : (FlagFile.build world.files arguments).result = .ok flags)

include built

theorem run_result_of_flagged :
    (run world arguments).result =
      ((reading world arguments flags defaults).result.mapError ProgramFault.build).map
        fun compilation =>
          if compilation.result.hasFatalErrors then none
          else some (CompiledText.text compilation.result) := by
  simp only [run, Run.result_bind, Run.result_log, Except.bind, load_mapError_result loaded, built,
    Run.result_mapError]
  unfold reading
  cases (Compilation.compileInputs ((compiler world arguments).compile world.host) (reader world)
      (arguments.inputs.map .ofArgument) (arguments.externs.map .ofArgument) flags
      defaults).result with
  | error failure => rfl
  | ok compilation =>
    cases fatal : compilation.result.hasFatalErrors <;>
      simp [Except.mapError, Except.map, Except.bind, fatal]

theorem run_calls_of_flagged :
    (run world arguments).calls = (reading world arguments flags defaults).calls := by
  rw [Run.calls_eq_deeds, Run.calls_eq_deeds, run, Run.deeds_bind_ok (Run.result_log ..),
    Run.deeds_log, Run.deeds_bind_ok (load_mapError_result loaded), Run.deeds_mapError,
    DefaultExterns.load_deeds, Run.deeds_bind_ok built, FlagFile.build_deeds,
    Run.deeds_bind_ok (Run.result_log ..), Run.deeds_log]
  simp only [List.nil_append]
  cases ended : ((reading world arguments flags defaults).mapError ProgramFault.build).result with
  | error fault =>
    have silent := Run.deeds_mapError ProgramFault.build (reading world arguments flags defaults)
    exact congrArg _ ((Run.deeds_bind_error ended).trans silent)
  | ok compilation =>
    unfold reading at ended
    rw [Run.deeds_bind_ok ended, Run.deeds_bind_ok (Run.result_act _), Run.deeds_act rfl,
      Run.deeds_mapError, List.filterMap_append]
    cases compilation.result.hasFatalErrors <;>
      simp [reading, Run.deeds_bind_ok (Run.result_log ..), Action.call?]

end

section

variable (fair : world.Fair)

include fair

theorem acquireBoth_of_holds {preparation : Preparation}
    (holds : preparation.Holds world arguments) :
    (Acquisition.acquireBoth (reader world)
      (Compilation.sourcesToRead (preparation.flags arguments).normalize
        (arguments.inputs.map .ofArgument))
      (arguments.externs.map .ofArgument)).result =
        .ok (preparation.sources, preparation.externs) := by
  rw [Preparation.flags, sourcesToRead_overlay]
  exact (Acquisition.acquireBoth_ofSystem_iff fair).mpr ⟨holds.sources, holds.externs⟩

/-- Behind stages that went well, all that is left is what the compiler comes to. -/
theorem run_of_holds {preparation : Preparation} (holds : preparation.Holds world arguments) :
    (run world arguments).result =
        ((((compiler world arguments).compile world.host
          (preparation.invocation arguments)).result.mapError Failure.compiler).mapError
            ProgramFault.build).map (fun result =>
              if result.hasFatalErrors then none else some (CompiledText.text result)) ∧
      (run world arguments).calls =
        ((compiler world arguments).compile world.host
          (preparation.invocation arguments)).calls := by
  have acquired := acquireBoth_of_holds fair holds
  have built : (FlagFile.build world.files arguments).result = .ok (preparation.flags arguments) :=
    FlagFile.build_result_eq_ok_iff.mpr ⟨preparation.given, holds.given, rfl⟩
  have invoked : Invocation.ofFlags (Compilation.extended (preparation.flags arguments)
      preparation.sources preparation.externs) preparation.defaults =
        preparation.invocation arguments := rfl
  constructor
  · rw [run_result_of_flagged holds.defaults built, reading,
      Compilation.compileInputs_result_of_read acquired, invoked]
    cases ((compiler world arguments).compile world.host
      (preparation.invocation arguments)).result <;> rfl
  · rw [run_calls_of_flagged holds.defaults built, reading, Run.calls_eq_deeds,
      Compilation.compileInputs_deeds_of_read acquired, invoked, List.filterMap_append,
      Action.filterMap_requests_eq_nil fun _ => rfl, Run.calls_eq_deeds]
    rfl

/-- When an earlier stage fails, so does the run, and the compiler is not called. -/
theorem run_of_not_holds (h : ¬∃ preparation : Preparation, preparation.Holds world arguments) :
    (∃ fault, (run world arguments).result = .error fault) ∧ (run world arguments).calls = [] := by
  cases loaded : (DefaultExterns.load world.files (externsDirectory world arguments)).result with
  | error failure =>
    obtain ⟨result, deeds⟩ := run_of_unloaded loaded
    exact ⟨⟨_, result⟩, by rw [Run.calls_eq_deeds, deeds]; rfl⟩
  | ok defaults =>
    cases built : (FlagFile.build world.files arguments).result with
    | error fault =>
      obtain ⟨result, deeds⟩ := run_of_unflagged loaded built
      exact ⟨⟨_, result⟩, by rw [Run.calls_eq_deeds, deeds]; rfl⟩
    | ok flags =>
      obtain ⟨given, hgiven, rfl⟩ := FlagFile.build_result_eq_ok_iff.mp built
      cases acquired : (Acquisition.acquireBoth (reader world)
          (Compilation.sourcesToRead (FlagFile.overlay given arguments).normalize
            (arguments.inputs.map .ofArgument))
          (arguments.externs.map .ofArgument)).result with
      | ok found =>
        obtain ⟨sources, externs⟩ := (Acquisition.acquireBoth_ofSystem_iff fair).mp acquired
        rw [sourcesToRead_overlay] at sources
        exact absurd ⟨⟨defaults, given, found.1, found.2⟩, loaded, hgiven, sources, externs⟩ h
      | error failure =>
        constructor
        · refine ⟨.build failure, ?_⟩
          rw [run_result_of_flagged loaded built, reading,
            Compilation.compileInputs_result_of_refused acquired]
          rfl
        · rw [run_calls_of_flagged loaded built, reading, Run.calls_eq_deeds,
            Compilation.compileInputs_deeds_of_refused acquired,
            Action.filterMap_requests_eq_nil fun _ => rfl]

end

theorem finish_status (world : World) (arguments : Arguments) :
    (finish world arguments).status = 0 ↔
      ∃ text, (run world arguments).result = .ok (some text) := by
  simp only [finish]
  cases (run world arguments).result with
  | error fault => simp
  | ok output => cases output <;> simp

theorem finish_failed {world : World} {arguments : Arguments}
    (h : (finish world arguments).status ≠ 0) :
    (finish world arguments).status = 1 ∧ (finish world arguments).stdout = [] := by
  simp only [finish] at h ⊢
  cases result : (run world arguments).result with
  | error fault => simp
  | ok output => cases output <;> simp_all

/-- A compiler that ends cleanly ends the run with its text, and no other compiler does. -/
theorem compile_clean_iff {command : CompilerCommand} {host : CompilerHost}
    {invocation : Invocation} {code : String} {sourceMap : Option String} :
    (∃ exit, host.startChecked (command.call host invocation) = .ok exit ∧
        CleanExit exit code sourceMap) ↔
      ∃ result, (command.compile host invocation).result = .ok result ∧
        result.hasFatalErrors = false ∧ result.code = code ∧ result.sourceMap = sourceMap := by
  constructor
  · rintro ⟨exit, started, clean⟩
    have noErrors := (CompilerCommand.errors_eq_nil_iff host invocation _).mpr clean.noError
    refine ⟨_, (CompilerCommand.compile_result_of_start started).trans
      (CompilerCommand.outcome_eq_ok_iff.mpr
        ⟨code, sourceMap, clean.printed, rfl, .inl clean.status⟩), ?_, rfl, rfl⟩
    simp [CompilationResult.hasFatalErrors, noErrors]
  · rintro ⟨result, compiled, clean, rfl, rfl⟩
    cases started : host.startChecked (command.call host invocation) with
    | error cause =>
      rw [CompilerCommand.compile_result_of_refusal started] at compiled
      cases compiled
    | ok exit =>
      rw [CompilerCommand.compile_result_of_start started] at compiled
      obtain ⟨code, sourceMap, printed, rfl, verdict⟩ :=
        CompilerCommand.outcome_eq_ok_iff.mp compiled
      have noErrors : (CompilerCommand.diagnostics host invocation
          (Utf8.decodeLossy exit.stderr)).filter (·.severity = .error) = [] := by
        simpa [CompilationResult.hasFatalErrors] using clean
      exact ⟨exit, rfl, verdict.resolve_right fun errors => errors noErrors,
        (CompilerCommand.errors_eq_nil_iff host invocation _).mp noErrors, printed⟩

section

variable (fair : world.Fair)

include fair

theorem run_calls_of_start {preparation : Preparation} {exit : CompilerExit}
    (holds : preparation.Holds world arguments)
    (h : world.host.startChecked (preparation.call world arguments) = .ok exit) :
    (run world arguments).calls = [preparation.call world arguments] := by
  rw [(run_of_holds fair holds).2, Run.calls_eq_deeds, CompilerCommand.compile_deeds_of_start h]
  rfl

theorem run_calls_length_le : (run world arguments).calls.length ≤ 1 := by
  by_cases prepared : ∃ preparation : Preparation, preparation.Holds world arguments
  · obtain ⟨preparation, holds⟩ := prepared
    cases h : world.host.startChecked (preparation.call world arguments) with
    | ok exit => simp [run_calls_of_start fair holds h]
    | error cause =>
      rw [(run_of_holds fair holds).2, Run.calls_eq_deeds,
        CompilerCommand.compile_deeds_of_refusal h]
      simp
  · simp [(run_of_not_holds fair prepared).2]

theorem run_of_clean {preparation : Preparation} {exit : CompilerExit} {code : String}
    {sourceMap : Option String} (holds : preparation.Holds world arguments)
    (h : world.host.startChecked (preparation.call world arguments) = .ok exit)
    (clean : CleanExit exit code sourceMap) :
    (run world arguments).result =
      .ok (some (Utf8.encode (code ++ "\n" ++ CompiledText.trailer sourceMap))) := by
  obtain ⟨result, compiled, noErrors, rfl, rfl⟩ := compile_clean_iff.mp ⟨exit, h, clean⟩
  rw [(run_of_holds fair holds).1, compiled, ← CompiledText.text_eq]
  simp [Except.mapError, Except.map, noErrors]

/-- Text is only there to be written when every stage went well. -/
theorem exists_clean_of_run {text : Bytes}
    (result : (run world arguments).result = .ok (some text)) :
    ∃ (preparation : Preparation) (exit : CompilerExit) (code : String)
        (sourceMap : Option String),
      preparation.Holds world arguments ∧
        world.host.startChecked (preparation.call world arguments) = .ok exit ∧
        CleanExit exit code sourceMap := by
  by_cases prepared : ∃ preparation : Preparation, preparation.Holds world arguments
  · obtain ⟨preparation, holds⟩ := prepared
    rw [(run_of_holds fair holds).1] at result
    cases compiled : ((compiler world arguments).compile world.host
        (preparation.invocation arguments)).result with
    | error fault => simp [compiled, Except.mapError, Except.map] at result
    | ok found =>
      have noErrors : found.hasFatalErrors = false := by
        by_contra fatal
        simp [compiled, Except.mapError, Except.map, fatal] at result
      obtain ⟨exit, h, clean⟩ := compile_clean_iff.mpr ⟨found, compiled, noErrors, rfl, rfl⟩
      exact ⟨preparation, exit, _, _, holds, h, clean⟩
  · obtain ⟨fault, failed⟩ := (run_of_not_holds fair prepared).1
    simp [failed] at result

end

end Program

end CompilerDriver

import CompilerDriver.Proofs.JoinedReads
import CompilerDriver.Proofs.ReportedDiagnostics
import CompilerDriver.Proofs.ResolvedBuffers

namespace CompilerDriver

open Utf8

/-- A compilation that an engine came to with a default set: from flags as they are, or from inputs
that were read first. -/
inductive Compilation.MadeBy (engine : Engine) (defaults : List Buffer) : Compilation → Prop
  | ofFlags {flags : Flags} {result : CompilationResult}
      (h : (compileWith engine flags defaults).result = .ok result) :
      MadeBy engine defaults ⟨flags, result⟩
  | ofInputs {reader : Reader} {inputs externs : List InputSource} {loose : LooseFlags}
      {compilation : Compilation}
      (h : (compileInputs engine reader inputs externs loose defaults).result = .ok compilation) :
      MadeBy engine defaults compilation

variable {engine : Engine} {defaults : List Buffer} {compilation : Compilation}

namespace Compilation

/-- The result is what the engine made of the very flags that stand beside it. -/
theorem MadeBy.engine_result (made : compilation.MadeBy engine defaults) :
    (engine (.ofFlags compilation.flags defaults)).result = .ok compilation.result := by
  have ok {flags : Flags} {result : CompilationResult}
      (h : (engine (.ofFlags flags defaults)).result.mapError Failure.compiler = .ok result) :
      (engine (.ofFlags flags defaults)).result = .ok result := by
    cases ran : (engine (.ofFlags flags defaults)).result with
    | error fault => simp [ran, Except.mapError] at h
    | ok found => simpa [ran, Except.mapError] using h
  cases made with
  | ofFlags h => exact ok (compileWith_result .. ▸ h)
  | @ofInputs reader inputs externs loose _ h =>
    cases acquired : (Acquisition.acquireBoth reader
        (sourcesToRead loose.normalize inputs) externs).result with
    | error failure =>
      rw [compileInputs_result_of_refused acquired] at h
      cases h
    | ok buffers =>
      obtain ⟨sources, declarations⟩ := buffers
      rw [compileInputs_result_of_read acquired] at h
      cases ran : ((engine (.ofFlags (extended loose sources declarations)
          defaults)).result.mapError Failure.compiler) with
      | error failure => simp [ran, Except.map] at h
      | ok result =>
        rw [ran] at h
        cases h
        exact ok ran

/-- What a compilation through a compiler process shows, in each severity and in order, are the
entries that the compiler wrote. -/
theorem MadeBy.shows_reported {command : CompilerCommand} {host : CompilerHost}
    (made : compilation.MadeBy (command.compile host) defaults)
    (apart : host.TellsApart (compilation.flags.externs ++ defaults).length) :
    ∃ exit, host.startChecked (command.call host (.ofFlags compilation.flags defaults)) = .ok exit ∧
      List.Forall₂
        (CompilerCommand.Shows host (compilation.flags.externs ++ defaults) .error)
        ((reportedDiagnostics (decodeLossy exit.stderr)).filter (·.level = "error"))
        compilation.result.errors ∧
      List.Forall₂
        (CompilerCommand.Shows host (compilation.flags.externs ++ defaults) .warning)
        ((reportedDiagnostics (decodeLossy exit.stderr)).filter (·.level = "warning"))
        compilation.result.warnings := by
  have compiled := made.engine_result
  cases started : host.startChecked (command.call host (.ofFlags compilation.flags defaults)) with
  | error cause =>
    rw [CompilerCommand.compile_result_of_refusal started] at compiled
    cases compiled
  | ok exit =>
    rw [CompilerCommand.compile_result_of_start started] at compiled
    obtain ⟨code, sourceMap, _, result, _⟩ := CompilerCommand.outcome_eq_ok_iff.mp compiled
    have externs : (Invocation.ofFlags compilation.flags defaults).externs =
      compilation.flags.externs ++ defaults := rfl
    rw [result]
    simp only [CompilerCommand.diagnostics, externs]
    exact ⟨exit, rfl, CompilerCommand.forall₂_shows apart .error _,
      CompilerCommand.forall₂_shows apart .warning _⟩

/-- A compiler that prints no code makes a compilation of whatever diagnostics it reports, unless it
fails without an error. -/
theorem madeBy_of_silent {command : CompilerCommand} {host : CompilerHost} {flags : Flags}
    {exit : CompilerExit} (found : List Diagnostic)
    (started : host.startChecked (command.call host (.ofFlags flags defaults)) = .ok exit)
    (silent : exit.stdout = [])
    (reported : CompilerCommand.diagnostics host (.ofFlags flags defaults)
      (decodeLossy exit.stderr) = found)
    (verdict : exit.status = .code 0 ∨ found.filter (·.severity = .error) ≠ []) :
    MadeBy (command.compile host) defaults
      ⟨flags, ⟨"", none, found.filter (·.severity = .warning),
        found.filter (·.severity = .error)⟩⟩ := by
  have printed : Printed exit.stdout "" none := .blank (by simp [silent])
  have outcome := CompilerCommand.outcome_eq_ok_iff.mpr
    ⟨"", none, printed, rfl, by rwa [reported]⟩
  refine .ofFlags ?_
  rw [compileWith_result, CompilerCommand.compile_result_of_start started, outcome, reported]
  rfl

end Compilation

/-- A diagnostic is shown against the buffer at this place of the sources followed by the
externs. -/
def Report.ShownAgainst (flags : Flags) (diagnostic : Diagnostic) (place : Nat) (buffer : Buffer) :
    Prop :=
  place? diagnostic.file flags.jsCode flags.externs = some place ∧
    (flags.jsCode ++ flags.externs)[place]? = some buffer ∧
    resolve diagnostic.file flags.jsCode flags.externs = some buffer.content

namespace Compilation

/-- A diagnostic that the compiler reports about a source or about an extern with a path is shown
against that very buffer. -/
structure FindsBuffer (host : CompilerHost) (flags : Flags) (reported : ReportedDiagnostic)
    (diagnostic : Diagnostic) : Prop where
  source : ∀ i source, flags.jsCode[i]? = some source →
    reported.source = some source.displayName → Report.ShownAgainst flags diagnostic i source
  declaration : ∀ n declaration, flags.externs[n]? = some declaration → declaration.path ≠ none →
    reported.source = some (host.externPath n).shown →
      Report.ShownAgainst flags diagnostic (flags.jsCode.length + n) declaration

theorem shownAgainst_of_displayName {flags : Flags} {diagnostic : Diagnostic} {place : Nat}
    {buffer : Buffer}
    (distinct : ((flags.jsCode ++ flags.externs).map Buffer.displayName).Nodup)
    (h : (flags.jsCode ++ flags.externs)[place]? = some buffer)
    (file : diagnostic.file = some buffer.displayName) :
    Report.ShownAgainst flags diagnostic place buffer := by
  have found := Report.place?_displayName distinct h
  refine ⟨by rw [file, found], h, ?_⟩
  rw [file, Report.resolve_eq_place?, found, Option.bind_some, h]
  rfl

theorem findsBuffer_of_shows {host : CompilerHost} {flags : Flags} {severity : Severity}
    {reported : ReportedDiagnostic} {diagnostic : Diagnostic}
    (temporary : host.NamesApart (flags.externs ++ defaults).length)
    (named : ∀ source ∈ flags.jsCode, source.displayName ≠ "")
    (distinct : ((flags.jsCode ++ flags.externs).map Buffer.displayName).Nodup)
    (away : ∀ n < (flags.externs ++ defaults).length, ∀ source ∈ flags.jsCode,
      (host.externPath n).shown ≠ source.displayName)
    (shows : CompilerCommand.Shows host (flags.externs ++ defaults) severity reported diagnostic) :
    FindsBuffer host flags reported diagnostic := by
  constructor
  · intro i source at_i reportedSource
    have member := List.mem_of_getElem? at_i
    have file := shows.file.other source.displayName (named source member)
      (fun n hn => away n hn source member) reportedSource
    have bound := (List.getElem?_eq_some_iff.mp at_i).1
    exact shownAgainst_of_displayName distinct (by rwa [List.getElem?_append_left bound]) file
  · intro n declaration at_n path reportedSource
    have bound := (List.getElem?_eq_some_iff.mp at_n).1
    have whole : (flags.externs ++ defaults)[n]? = some declaration := by
      rwa [List.getElem?_append_left bound]
    have file := shows.file.temporary n declaration whole
      (temporary.named n (List.getElem?_eq_some_iff.mp whole).1) reportedSource
    have shown : CompilerCommand.externName n declaration = declaration.displayName := by
      obtain ⟨path, some_path⟩ := Option.ne_none_iff_exists'.mp path
      rw [CompilerCommand.externName, Buffer.displayName, some_path]
      rfl
    rw [shown] at file
    refine shownAgainst_of_displayName distinct ?_ file
    rwa [List.getElem?_append_right (Nat.le_add_right ..), Nat.add_sub_cancel_left]

/-- Whatever the compilation comes from and whatever the default set is, diagnostics about sources
and about externs with paths are shown against the buffers that they are about, provided that no two
of these have the same name. -/
theorem diagnostics_find_buffers {command : CompilerCommand} {host : CompilerHost}
    (made : compilation.MadeBy (command.compile host) defaults)
    (temporary : host.NamesApart (compilation.flags.externs ++ defaults).length)
    (named : ∀ source ∈ compilation.flags.jsCode, source.displayName ≠ "")
    (distinct : ((compilation.flags.jsCode ++ compilation.flags.externs).map
      Buffer.displayName).Nodup)
    (away : ∀ n < (compilation.flags.externs ++ defaults).length,
      ∀ source ∈ compilation.flags.jsCode, (host.externPath n).shown ≠ source.displayName) :
    ∃ exit, host.startChecked (command.call host (.ofFlags compilation.flags defaults)) = .ok exit ∧
      List.Forall₂ (FindsBuffer host compilation.flags)
        ((reportedDiagnostics (decodeLossy exit.stderr)).filter (·.level = "error"))
        compilation.result.errors ∧
      List.Forall₂ (FindsBuffer host compilation.flags)
        ((reportedDiagnostics (decodeLossy exit.stderr)).filter (·.level = "warning"))
        compilation.result.warnings := by
  obtain ⟨exit, started, errors, warnings⟩ := made.shows_reported temporary.apart
  exact ⟨exit, started,
    errors.imp fun _ _ => findsBuffer_of_shows temporary named distinct away,
    warnings.imp fun _ _ => findsBuffer_of_shows temporary named distinct away⟩

/-- An error in standard input and a warning in the second of two externs, next to a default set. -/
theorem diagnostics_find_stdin :
    let array := "[\x7b\"level\":\"error\",\"source\":\"stdin\"\x7d," ++
      "\x7b\"level\":\"warning\",\"source\":\"tt\"\x7d]"
    let exit : CompilerExit := ⟨.code 0, [], encode array⟩
    let flags : Flags := { LooseFlags.blank.normalize with
      jsCode := [⟨some "a.js", "a();"⟩, ⟨none, "b();"⟩]
      externs := [⟨some "lib.js", "var lib;"⟩, ⟨some "dom.js", "var dom;"⟩] }
    ∃ error warning,
      MadeBy (CompilerCommand.usual.compile (.ending exit)) [.unnamed "var window;"]
        ⟨flags, ⟨"", none, [warning], [error]⟩⟩ ∧
      Report.ShownAgainst flags error 1 ⟨none, "b();"⟩ ∧
      Report.ShownAgainst flags warning 3 ⟨some "dom.js", "var dom;"⟩ := by
  intro array exit flags
  let host := CompilerHost.ending exit
  have shown (n : Nat) : (host.externPath n).shown = String.ofList (List.replicate (n + 1) 't') :=
    CompilerHost.ending_shown exit n
  have started : host.startChecked (CompilerCommand.usual.call host
      (.ofFlags flags [.unnamed "var window;"])) = .ok exit :=
    CompilerHost.ending_startChecked exit (by decide +kernel)
  have reported : reportedDiagnostics (decodeLossy exit.stderr) =
      [⟨"error", "", some "stdin", none, none, none⟩,
        ⟨"warning", "", some "tt", none, none, none⟩] := by
    decide +kernel
  have made := madeBy_of_silent
    [⟨.error, "error", "", some "stdin", -1, -1⟩, ⟨.warning, "warning", "", some "dom.js", -1, -1⟩]
    started rfl (by rw [CompilerCommand.diagnostics, reported]; decide +kernel) (.inl rfl)
  have away : ∀ n < (flags.externs ++ [Buffer.unnamed "var window;"]).length,
      ∀ source ∈ flags.jsCode, (host.externPath n).shown ≠ source.displayName := by
    simp only [shown]
    decide
  obtain ⟨other, startedOther, errors, warnings⟩ := diagnostics_find_buffers made
    (CompilerHost.ending_namesApart exit _) (by decide) (by decide) away
  obtain rfl : exit = other := Except.ok.inj (started.symm.trans startedOther)
  rw [reported] at errors warnings
  obtain ⟨inStdin, _⟩ := List.forall₂_cons.mp errors
  obtain ⟨inDom, _⟩ := List.forall₂_cons.mp warnings
  refine ⟨_, _, made, inStdin.source 1 _ rfl rfl, inDom.declaration 1 _ rfl (by simp) ?_⟩
  rw [shown]
  rfl

end Compilation

end CompilerDriver

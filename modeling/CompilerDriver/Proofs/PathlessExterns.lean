import CompilerDriver.Proofs.RenderedDiagnostics

namespace CompilerDriver

open Utf8

/-- The context of a diagnostic, if it is shown with any, is taken from the buffer at this place of
the sources followed by the externs. -/
def Report.ContextOnlyFrom (flags : Flags) (diagnostic : Diagnostic) (place : Nat) : Prop :=
  ∀ found, place? diagnostic.file flags.jsCode flags.externs = some found → found = place

namespace CompilerCommand

/-- The name that stands for an extern without a path is not the one of standard input. -/
theorem externName_ne_stdin {n : Nat} {declaration : Buffer} (pathless : declaration.path = none) :
    externName n declaration ≠ Buffer.stdinName := by
  rw [externName, pathless]
  intro same
  have letters := congrArg String.toList same
  simp [Buffer.stdinName] at letters

theorem displayName_eq_externName_iff {n : Nat} {declaration buffer : Buffer}
    (pathless : declaration.path = none) :
    buffer.displayName = externName n declaration ↔
      buffer.path = some (externName n declaration) := by
  rw [Buffer.displayName]
  cases buffer.path with
  | some path => simp
  | none => simpa using (externName_ne_stdin pathless).symm

end CompilerCommand

namespace Compilation

open CompilerCommand Report

variable {flags : Flags} {defaults : List Buffer} {diagnostic : Diagnostic} {n : Nat}
  {declaration : Buffer}

/-- No buffer of the user can be taken for an extern without a path: none but the extern itself is
the only one there is, and none has the path that stands for the extern. -/
structure Unmistakable (flags : Flags) (n : Nat) (declaration : Buffer) : Prop where
  lone : (flags.jsCode ++ flags.externs).length = 1 → flags.jsCode = [] ∧ n = 0
  named : ∀ buffer ∈ flags.jsCode ++ flags.externs, buffer.path ≠ some (externName n declaration)

theorem Unmistakable.contextOnlyFrom (h : Unmistakable flags n declaration)
    (pathless : declaration.path = none)
    (file : diagnostic.file = some (externName n declaration)) :
    ContextOnlyFrom flags diagnostic (flags.jsCode.length + n) := by
  intro found place
  rw [file] at place
  by_cases lone : (flags.jsCode ++ flags.externs).length = 1
  · rw [place?, Option.bind_some, if_pos lone] at place
    obtain ⟨noSource, rfl⟩ := h.lone lone
    rw [noSource]
    exact (Option.some.inj place).symm
  · obtain ⟨buffer, there, name⟩ := displayName_of_place? lone place
    exact absurd ((displayName_eq_externName_iff pathless).mp name)
      (h.named buffer (List.mem_of_getElem? there))

theorem eq_extern_of_place {buffer : Buffer}
    (there : (flags.externs ++ defaults)[n]? = some declaration)
    (h : (flags.jsCode ++ flags.externs)[flags.jsCode.length + n]? = some buffer) :
    buffer = declaration := by
  rw [List.getElem?_append_right (Nat.le_add_right ..), Nat.add_sub_cancel_left] at h
  have bound := (List.getElem?_eq_some_iff.mp h).1
  rw [List.getElem?_append_left bound, h] at there
  exact Option.some.inj there

theorem unmistakable_of_contextOnlyFrom (there : (flags.externs ++ defaults)[n]? = some declaration)
    (pathless : declaration.path = none) (file : diagnostic.file = some (externName n declaration))
    (h : ContextOnlyFrom flags diagnostic (flags.jsCode.length + n)) :
    Unmistakable flags n declaration := by
  have named {place : Nat} {buffer : Buffer}
      (found : place? diagnostic.file flags.jsCode flags.externs = some place)
      (at_place : (flags.jsCode ++ flags.externs)[place]? = some buffer) :
      buffer.path ≠ some (externName n declaration) := by
    obtain rfl := h place found
    rw [eq_extern_of_place there at_place, pathless]
    simp
  by_cases lone : (flags.jsCode ++ flags.externs).length = 1
  · have found : place? diagnostic.file flags.jsCode flags.externs = some 0 := by
      rw [file, place?, Option.bind_some, if_pos lone]
    refine ⟨fun _ => ?_, fun buffer member => ?_⟩
    · have first := h 0 found
      exact ⟨List.length_eq_zero_iff.mp (by omega), by omega⟩
    · obtain ⟨only, single⟩ := List.length_eq_one_iff.mp lone
      rw [single, List.mem_singleton] at member
      rw [member]
      exact named found (by rw [single]; rfl)
  · refine ⟨fun one => absurd one lone, fun buffer member path => ?_⟩
    have name := (displayName_eq_externName_iff pathless).mpr path
    cases found : place? (some (externName n declaration)) flags.jsCode flags.externs with
    | none => exact (place?_eq_none_iff.mp found).2 buffer member name
    | some place =>
      obtain ⟨other, at_place, same⟩ := displayName_of_place? lone found
      exact named (file ▸ found) at_place ((displayName_eq_externName_iff pathless).mp same)

/-- A diagnostic whose context is only taken from an extern is shown with lines of that extern or
with none. -/
theorem block_of_contextOnlyFrom (there : (flags.externs ++ defaults)[n]? = some declaration)
    (h : ContextOnlyFrom flags diagnostic (flags.jsCode.length + n)) (mode : ColorMode) :
    block mode flags.jsCode flags.externs diagnostic =
        [header diagnostic, diagnostic.description, ""] ∨
      block mode flags.jsCode flags.externs diagnostic =
        [header diagnostic, diagnostic.description] ++
          context mode diagnostic declaration.content ++ [""] := by
  rw [block, resolve_eq_place?]
  cases found : place? diagnostic.file flags.jsCode flags.externs with
  | none => exact .inl rfl
  | some place =>
    rw [h place found, Option.bind_some]
    cases at_place : (flags.jsCode ++ flags.externs)[flags.jsCode.length + n]? with
    | none => exact .inl rfl
    | some buffer =>
      rw [eq_extern_of_place there at_place]
      exact .inr rfl

/-- A diagnostic that the compiler reports about an extern without a path is kept apart from all
other buffers exactly when none of them can be taken for the extern. Then it is shown with lines of
the extern or with none. -/
def KeepsApart (host : CompilerHost) (flags : Flags) (defaults : List Buffer)
    (reported : ReportedDiagnostic) (diagnostic : Diagnostic) : Prop :=
  ∀ n declaration, (flags.externs ++ defaults)[n]? = some declaration → declaration.path = none →
    reported.source = some (host.externPath n).shown →
      (ContextOnlyFrom flags diagnostic (flags.jsCode.length + n) ↔
        Unmistakable flags n declaration) ∧
      (Unmistakable flags n declaration → ∀ mode,
        block mode flags.jsCode flags.externs diagnostic =
            [header diagnostic, diagnostic.description, ""] ∨
          block mode flags.jsCode flags.externs diagnostic =
            [header diagnostic, diagnostic.description] ++
              context mode diagnostic declaration.content ++ [""])

theorem keepsApart_of_shows {host : CompilerHost} {severity : Severity}
    {reported : ReportedDiagnostic}
    (temporary : host.NamesApart (flags.externs ++ defaults).length)
    (shows : Shows host (flags.externs ++ defaults) severity reported diagnostic) :
    KeepsApart host flags defaults reported diagnostic := by
  intro n declaration there pathless reportedSource
  have file := shows.file.temporary n declaration there
    (temporary.named n (List.getElem?_eq_some_iff.mp there).1) reportedSource
  have apart (h : Unmistakable flags n declaration) := h.contextOnlyFrom pathless file
  exact ⟨⟨unmistakable_of_contextOnlyFrom there pathless file, apart⟩,
    fun h => block_of_contextOnlyFrom there (apart h)⟩

/-- Diagnostics about externs without paths, be they of the user or of the default set, are kept
apart from all other buffers exactly when none of those can be taken for the extern. -/
theorem pathless_externs_kept_apart {command : CompilerCommand} {host : CompilerHost}
    {compilation : Compilation} (made : compilation.MadeBy (command.compile host) defaults)
    (temporary : host.NamesApart (compilation.flags.externs ++ defaults).length) :
    ∃ exit, host.startChecked (command.call host (.ofFlags compilation.flags defaults)) = .ok exit ∧
      List.Forall₂ (KeepsApart host compilation.flags defaults)
        ((reportedDiagnostics (decodeLossy exit.stderr)).filter (·.level = "error"))
        compilation.result.errors ∧
      List.Forall₂ (KeepsApart host compilation.flags defaults)
        ((reportedDiagnostics (decodeLossy exit.stderr)).filter (·.level = "warning"))
        compilation.result.warnings := by
  obtain ⟨exit, started, errors, warnings⟩ := made.shows_reported temporary.apart
  exact ⟨exit, started, errors.imp fun _ _ => keepsApart_of_shows temporary,
    warnings.imp fun _ _ => keepsApart_of_shows temporary⟩

/-- Next to two sources, an error in an extern from standard input and a warning in the default set
are shown without any context. -/
theorem pathless_externs_kept_apart_from_two :
    let array := "[\x7b\"level\":\"error\",\"source\":\"t\",\"line\":1\x7d," ++
      "\x7b\"level\":\"warning\",\"source\":\"tt\",\"line\":1\x7d]"
    let exit : CompilerExit := ⟨.code 1, [], encode array⟩
    let flags : Flags := { LooseFlags.blank.normalize with
      jsCode := [⟨some "a.js", "a();"⟩, ⟨some "stdin", "b();"⟩]
      externs := [⟨none, "var lib;"⟩] }
    ∃ error warning,
      MadeBy (CompilerCommand.usual.compile (.ending exit)) [.unnamed "var window;"]
        ⟨flags, ⟨"", none, [warning], [error]⟩⟩ ∧
      ContextOnlyFrom flags error 2 ∧ ContextOnlyFrom flags warning 3 ∧
      block .never flags.jsCode flags.externs error = ["default-extern-0.js:1 (error)", "", ""] ∧
      block .never flags.jsCode flags.externs warning =
        ["default-extern-1.js:1 (warning)", "", ""] := by
  intro array exit flags
  let host := CompilerHost.ending exit
  have shown (n : Nat) : (host.externPath n).shown = String.ofList (List.replicate (n + 1) 't') :=
    CompilerHost.ending_shown exit n
  have started : host.startChecked (CompilerCommand.usual.call host
      (.ofFlags flags [.unnamed "var window;"])) = .ok exit :=
    CompilerHost.ending_startChecked exit (by decide +kernel)
  have reported : reportedDiagnostics (decodeLossy exit.stderr) =
      [⟨"error", "", some "t", some 1, none, none⟩,
        ⟨"warning", "", some "tt", some 1, none, none⟩] := by
    decide +kernel
  have made := madeBy_of_silent
    [⟨.error, "error", "", some "default-extern-0.js", 1, -1⟩,
      ⟨.warning, "warning", "", some "default-extern-1.js", 1, -1⟩]
    started rfl (by rw [diagnostics, reported]; decide +kernel) (.inr (by decide))
  obtain ⟨other, startedOther, errors, warnings⟩ :=
    pathless_externs_kept_apart made (CompilerHost.ending_namesApart exit _)
  obtain rfl : exit = other := Except.ok.inj (started.symm.trans startedOther)
  rw [reported] at errors warnings
  obtain ⟨inStdin, _⟩ := List.forall₂_cons.mp errors
  obtain ⟨inDefault, _⟩ := List.forall₂_cons.mp warnings
  have stdin := inStdin 0 ⟨none, "var lib;"⟩ rfl rfl (by rw [shown]; rfl)
  have window := inDefault 1 (.unnamed "var window;") rfl rfl (by rw [shown]; rfl)
  exact ⟨_, _, made, stdin.1.mpr ⟨by decide, by decide⟩, window.1.mpr ⟨by decide, by decide⟩,
    rfl, rfl⟩

/-- A source that is alone before the report is shown with an error that is about the default set,
although the compiler was given both. -/
theorem lone_source_mistaken_for_extern :
    let array := "[\x7b\"level\":\"error\",\"source\":\"t\",\"line\":1\x7d]"
    let exit : CompilerExit := ⟨.code 1, [], encode array⟩
    let flags : Flags := { LooseFlags.blank.normalize with
      jsCode := [⟨some "a.js", "var secret;"⟩] }
    ∃ error,
      MadeBy (CompilerCommand.usual.compile (.ending exit)) [.unnamed "var window;"]
        ⟨flags, ⟨"", none, [], [error]⟩⟩ ∧
      error.file = some (externName 0 (.unnamed "var window;")) ∧
      ¬ContextOnlyFrom flags error 1 ∧
      block .never flags.jsCode flags.externs error =
        ["default-extern-0.js:1 (error)", "", "var secret;", "^", ""] := by
  intro array exit flags
  let host := CompilerHost.ending exit
  have started : host.startChecked (CompilerCommand.usual.call host
      (.ofFlags flags [.unnamed "var window;"])) = .ok exit :=
    CompilerHost.ending_startChecked exit (by decide +kernel)
  have made := madeBy_of_silent [⟨.error, "error", "", some "default-extern-0.js", 1, -1⟩]
    started rfl (by decide +kernel) (.inr (by decide))
  refine ⟨_, made, by decide, ?_, by decide +kernel⟩
  intro only
  exact absurd (only 0 rfl) (by decide)

end Compilation

end CompilerDriver

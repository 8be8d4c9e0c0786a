import CompilerDriver.Proofs.PathlessExterns

namespace CompilerDriver

open Utf8

namespace Compilation

open CompilerCommand Report

variable {flags : Flags} {defaults : List Buffer} {diagnostic : Diagnostic} {n : Nat}
  {declaration : Buffer}

/-- An extern of the user is the only buffer that diagnostics can be shown against. -/
def Alone (flags : Flags) (declaration : Buffer) : Prop :=
  flags.jsCode = [] ∧ flags.externs = [declaration]

theorem alone_of_length (there : flags.externs[n]? = some declaration)
    (one : (flags.jsCode ++ flags.externs).length = 1) : Alone flags declaration := by
  have member := List.mem_of_getElem? there
  have some_extern := List.length_pos_of_mem member
  rw [List.length_append] at one
  obtain ⟨only, single⟩ := List.length_eq_one_iff.mp (by omega : flags.externs.length = 1)
  rw [single, List.mem_singleton] at member
  exact ⟨List.length_eq_zero_iff.mp (by omega), by rw [single, member]⟩

/-- Among several buffers, the name that stands for an extern without a path is only the name of
buffers that have it for their path. -/
theorem resolve_externName (pathless : declaration.path = none)
    (many : (flags.jsCode ++ flags.externs).length ≠ 1) :
    resolve (some (externName n declaration)) flags.jsCode flags.externs =
      ((flags.jsCode ++ flags.externs).find?
        (·.path = some (externName n declaration))).map Buffer.content := by
  rw [resolve_of_many many]
  congr 2
  funext buffer
  rw [Bool.eq_iff_iff, Buffer.isNamed_iff, displayName_eq_externName_iff pathless,
    decide_eq_true_iff]

theorem shownAgainst_of_alone (there : flags.externs[n]? = some declaration)
    (file : diagnostic.file = some (externName n declaration)) (alone : Alone flags declaration) :
    ShownAgainst flags diagnostic (flags.jsCode.length + n) declaration := by
  obtain ⟨noSource, single⟩ := alone
  have first : n = 0 := by
    have bound := (List.getElem?_eq_some_iff.mp there).1
    rw [single, List.length_singleton] at bound
    omega
  rw [ShownAgainst, file, noSource, single, first]
  exact ⟨rfl, rfl, rfl⟩

theorem alone_of_shownAgainst (there : flags.externs[n]? = some declaration)
    (pathless : declaration.path = none) (file : diagnostic.file = some (externName n declaration))
    (shown : ShownAgainst flags diagnostic (flags.jsCode.length + n) declaration) :
    Alone flags declaration := by
  by_cases one : (flags.jsCode ++ flags.externs).length = 1
  · exact alone_of_length there one
  · obtain ⟨found, at_place, -⟩ := shown
    rw [file] at found
    obtain ⟨buffer, at_found, name⟩ := displayName_of_place? one found
    obtain rfl : declaration = buffer := Option.some.inj (at_place.symm.trans at_found)
    rw [displayName_eq_externName_iff pathless, pathless] at name
    cases name

/-- A diagnostic that the compiler reports about an extern of the user without a path is shown
against it exactly when there is no other buffer. Next to others it is shown against the first that
has the name standing for the extern as its path, and bare if none has. -/
def ShownWhenAlone (host : CompilerHost) (flags : Flags) (reported : ReportedDiagnostic)
    (diagnostic : Diagnostic) : Prop :=
  ∀ n declaration, flags.externs[n]? = some declaration → declaration.path = none →
    reported.source = some (host.externPath n).shown →
      (ShownAgainst flags diagnostic (flags.jsCode.length + n) declaration ↔
        Alone flags declaration) ∧
      (¬Alone flags declaration →
        resolve diagnostic.file flags.jsCode flags.externs =
          ((flags.jsCode ++ flags.externs).find?
            (·.path = some (externName n declaration))).map Buffer.content ∧
        ((∀ buffer ∈ flags.jsCode ++ flags.externs,
            buffer.path ≠ some (externName n declaration)) → ∀ mode,
          block mode flags.jsCode flags.externs diagnostic =
            [header diagnostic, diagnostic.description, ""]))

theorem shownWhenAlone_of_shows {host : CompilerHost} {severity : Severity}
    {reported : ReportedDiagnostic}
    (temporary : host.NamesApart (flags.externs ++ defaults).length)
    (shows : Shows host (flags.externs ++ defaults) severity reported diagnostic) :
    ShownWhenAlone host flags reported diagnostic := by
  intro n declaration there pathless reportedSource
  have bound := (List.getElem?_eq_some_iff.mp there).1
  have whole : (flags.externs ++ defaults)[n]? = some declaration := by
    rwa [List.getElem?_append_left bound]
  have file := shows.file.temporary n declaration whole
    (temporary.named n (List.getElem?_eq_some_iff.mp whole).1) reportedSource
  refine ⟨⟨alone_of_shownAgainst there pathless file, shownAgainst_of_alone there file⟩, ?_⟩
  intro accompanied
  have many : (flags.jsCode ++ flags.externs).length ≠ 1 :=
    fun one => accompanied (alone_of_length there one)
  have resolved := resolve_externName (n := n) pathless many
  refine ⟨by rw [file, resolved], fun unnamed mode => ?_⟩
  have nowhere : (flags.jsCode ++ flags.externs).find?
      (·.path = some (externName n declaration)) = none :=
    List.find?_eq_none.mpr fun buffer member => by simpa using unnamed buffer member
  rw [block, file, resolved, nowhere]
  rfl

/-- Whatever a compilation comes from and whatever its default set is, diagnostics about externs of
the user without paths are shown against them exactly when there are no other buffers. -/
theorem pathless_externs_shown_alone {command : CompilerCommand} {host : CompilerHost}
    {compilation : Compilation} (made : compilation.MadeBy (command.compile host) defaults)
    (temporary : host.NamesApart (compilation.flags.externs ++ defaults).length) :
    ∃ exit, host.startChecked (command.call host (.ofFlags compilation.flags defaults)) = .ok exit ∧
      List.Forall₂ (ShownWhenAlone host compilation.flags)
        ((reportedDiagnostics (decodeLossy exit.stderr)).filter (·.level = "error"))
        compilation.result.errors ∧
      List.Forall₂ (ShownWhenAlone host compilation.flags)
        ((reportedDiagnostics (decodeLossy exit.stderr)).filter (·.level = "warning"))
        compilation.result.warnings := by
  obtain ⟨exit, started, errors, warnings⟩ := made.shows_reported temporary.apart
  exact ⟨exit, started, errors.imp fun _ _ => shownWhenAlone_of_shows temporary,
    warnings.imp fun _ _ => shownWhenAlone_of_shows temporary⟩

/-- An extern without a path that has only the default set beside it is shown with its error. -/
theorem pathless_externs_shown_beside_defaults :
    let array := "[\x7b\"level\":\"error\",\"source\":\"t\",\"line\":1\x7d]"
    let exit : CompilerExit := ⟨.code 1, [], encode array⟩
    let lib : Buffer := ⟨none, "var lib;"⟩
    let flags : Flags := { LooseFlags.blank.normalize with externs := [lib] }
    ∃ error,
      MadeBy (CompilerCommand.usual.compile (.ending exit)) [.unnamed "var window;"]
        ⟨flags, ⟨"", none, [], [error]⟩⟩ ∧
      ShownAgainst flags error 0 lib := by
  intro array exit lib flags
  let host := CompilerHost.ending exit
  have started : host.startChecked (CompilerCommand.usual.call host
      (.ofFlags flags [.unnamed "var window;"])) = .ok exit :=
    CompilerHost.ending_startChecked exit (by decide +kernel)
  have reported : reportedDiagnostics (decodeLossy exit.stderr) =
      [⟨"error", "", some "t", some 1, none, none⟩] := by
    decide +kernel
  have made := madeBy_of_silent [⟨.error, "error", "", some "default-extern-0.js", 1, -1⟩]
    started rfl (by rw [diagnostics, reported]; decide +kernel) (.inr (by decide))
  obtain ⟨other, startedOther, errors, -⟩ :=
    pathless_externs_shown_alone made (CompilerHost.ending_namesApart exit _)
  obtain rfl : exit = other := Except.ok.inj (started.symm.trans startedOther)
  rw [reported] at errors
  obtain ⟨first, -⟩ := List.forall₂_cons.mp errors
  have source : some "t" = some (host.externPath 0).shown := by
    rw [CompilerHost.ending_shown]
    rfl
  exact ⟨_, made, (first 0 lib rfl rfl source).1.mpr ⟨rfl, rfl⟩⟩

/-- Next to a source with another name, an extern without a path is not shown with its error. -/
theorem pathless_extern_hidden_beside_source :
    let array := "[\x7b\"level\":\"error\",\"source\":\"t\",\"line\":1\x7d]"
    let exit : CompilerExit := ⟨.code 1, [], encode array⟩
    let lib : Buffer := ⟨none, "var lib;"⟩
    let flags : Flags := { LooseFlags.blank.normalize with
      jsCode := [⟨some "a.js", "a();"⟩]
      externs := [lib] }
    ∃ error,
      MadeBy (CompilerCommand.usual.compile (.ending exit)) []
        ⟨flags, ⟨"", none, [], [error]⟩⟩ ∧
      ((flags.jsCode ++ flags.externs).map Buffer.displayName).Nodup ∧
      error.file = some (externName 0 lib) ∧
      resolve error.file flags.jsCode flags.externs ≠ some lib.content ∧
      block .never flags.jsCode flags.externs error =
        ["default-extern-0.js:1 (error)", "", ""] := by
  intro array exit lib flags
  let host := CompilerHost.ending exit
  have started : host.startChecked (CompilerCommand.usual.call host (.ofFlags flags [])) =
      .ok exit :=
    CompilerHost.ending_startChecked exit (by decide +kernel)
  have made := madeBy_of_silent [⟨.error, "error", "", some "default-extern-0.js", 1, -1⟩]
    started rfl (by decide +kernel) (.inr (by decide))
  exact ⟨_, made, by decide, by decide, by decide +kernel, by decide +kernel⟩

end Compilation

end CompilerDriver

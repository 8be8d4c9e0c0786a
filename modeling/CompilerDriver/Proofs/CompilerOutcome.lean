import CompilerDriver.CompilerRun
import CompilerDriver.Proofs.Deeds
import CompilerDriver.Proofs.ReaderSteps

namespace CompilerDriver

/-- What a compiler has produced that writes this to its standard output: nothing when the output
is blank, else what its records hold. -/
inductive Printed : Bytes → String → Option String → Prop
  | blank {stdout : Bytes} (h : ∀ b ∈ stdout, isAsciiBlank b = true) : Printed stdout "" none
  | records {stdout : Bytes} {pieces : List OutputRecord}
      (h : JsonReader.document (JsonReader.list OutputRecord.form.read) stdout = .ok pieces) :
      Printed stdout (OutputRecord.joined pieces) (OutputRecord.lastSourceMap pieces)

theorem isAsciiBlank_bracket : isAsciiBlank (ascii '[') = false := by
  decide

/-- Blank output is no list of records. -/
theorem exists_not_blank_of_document {α : Type} {item : JsonReader α} {stdout : Bytes}
    {found : List α} (h : JsonReader.document (JsonReader.list item) stdout = .ok found) :
    ¬∀ b ∈ stdout, isAsciiBlank b = true := by
  unfold JsonReader.document JsonReader.front JsonReader.whole at h
  cases read : JsonReader.list item stdout with
  | error fault => simp [read] at h
  | ok result =>
    intro blank
    have opens := JsonReader.list_opens read
    have member : ascii '[' ∈ stdout :=
      (List.dropWhile_sublist _).subset (List.mem_of_mem_head? opens)
    exact absurd (blank _ member) (Bool.eq_false_iff.mp isAsciiBlank_bracket)

theorem readOutput_eq_ok_iff {stdout : Bytes} {code : String} {sourceMap : Option String} :
    readOutput stdout = .ok (code, sourceMap) ↔ Printed stdout code sourceMap := by
  unfold readOutput
  constructor
  · intro h
    split at h
    next blank =>
      cases h
      exact .blank (List.all_eq_true.mp blank)
    · cases read : JsonReader.document (JsonReader.list OutputRecord.form.read) stdout with
      | error cause => simp [read, Except.map] at h
      | ok pieces =>
        simp only [read, Except.map, Except.ok.injEq, Prod.mk.injEq] at h
        obtain ⟨rfl, rfl⟩ := h
        exact .records read
  · intro h
    cases h with
    | blank blank => rw [if_pos (List.all_eq_true.mpr blank)]
    | records read =>
      rw [if_neg fun blank => exists_not_blank_of_document read (List.all_eq_true.mp blank), read]
      rfl

theorem ReportedDiagnostic.severity?_eq_some_iff {reported : ReportedDiagnostic}
    {severity : Severity} :
    reported.severity? = some severity ↔ reported.level = severity.name := by
  unfold severity?
  cases severity with
  | error =>
    by_cases error : reported.level = "error"
    · simp [error, Severity.name]
    · by_cases warning : reported.level = "warning" <;> simp [error, warning, Severity.name]
  | warning =>
    by_cases error : reported.level = "error"
    · simp [error, Severity.name]
    · by_cases warning : reported.level = "warning" <;> simp [error, warning, Severity.name]

namespace CompilerCommand

variable {command : CompilerCommand} {host : CompilerHost} {invocation : Invocation}
  {exit : CompilerExit} {result : CompilationResult}

theorem errors_eq_nil_iff (host : CompilerHost) (invocation : Invocation) (stderr : String) :
    (diagnostics host invocation stderr).filter (·.severity = .error) = [] ↔
      ∀ reported ∈ reportedDiagnostics stderr, reported.level ≠ "error" := by
  rw [List.filter_eq_nil_iff]
  simp only [diagnostics, List.mem_filterMap, ReportedDiagnostic.toDiagnostic?,
    Option.map_eq_some_iff, decide_eq_true_eq]
  constructor
  · intro h reported member isError
    have severity : reported.severity? = some .error :=
      ReportedDiagnostic.severity?_eq_some_iff.mpr isError
    exact h _ ⟨reported, member, .error, severity, rfl⟩ rfl
  · rintro h diagnostic ⟨reported, member, severity, found, rfl⟩ isError
    have level := ReportedDiagnostic.severity?_eq_some_iff.mp found
    rw [show severity = .error from isError] at level
    exact h reported member level

theorem outcome_eq_ok_iff :
    outcome host invocation exit = .ok result ↔
      ∃ code sourceMap, Printed exit.stdout code sourceMap ∧
        result = {
          code, sourceMap
          warnings := (diagnostics host invocation (Utf8.decodeLossy exit.stderr)).filter
            (·.severity = .warning)
          errors := (diagnostics host invocation (Utf8.decodeLossy exit.stderr)).filter
            (·.severity = .error) } ∧
        (exit.status = .code 0 ∨ result.errors ≠ []) := by
  simp only [← readOutput_eq_ok_iff]
  unfold outcome
  simp only
  split
  next failed =>
    simp only [Bool.and_eq_true, Bool.not_eq_true', List.isEmpty_iff, ExitStatus.success,
      decide_eq_false_iff_not] at failed
    simp only [reduceCtorEq, false_iff]
    rintro ⟨code, sourceMap, _, rfl, success | errors⟩
    · exact failed.1 success
    · simp only at errors
      exact errors failed.2
  next passed =>
    have verdict : exit.status = .code 0 ∨
        (diagnostics host invocation (Utf8.decodeLossy exit.stderr)).filter
          (·.severity = .error) ≠ [] := by
      simpa [ExitStatus.success, Decidable.or_iff_not_imp_left] using passed
    cases read : readOutput exit.stdout with
    | error cause => simp
    | ok found =>
      obtain ⟨code, sourceMap⟩ := found
      simp only [Except.ok.injEq, Prod.mk.injEq]
      constructor
      · rintro rfl
        refine ⟨code, sourceMap, ⟨rfl, rfl⟩, rfl, ?_⟩
        simp only
        exact verdict
      · rintro ⟨_, _, ⟨rfl, rfl⟩, rfl, _⟩
        rfl

theorem compile_result_of_start
    (h : host.startChecked (command.call host invocation) = .ok exit) :
    (command.compile host invocation).result = outcome host invocation exit := by
  simp only [compile, Run.result_bind, Run.result_logAll, Run.result_log, Except.bind, h,
    Run.result_act, Run.result_ofExcept, Run.result_pure]
  cases outcome host invocation exit <;> rfl

theorem compile_result_of_refusal {cause : IoFault}
    (h : host.startChecked (command.call host invocation) = .error cause) :
    (command.compile host invocation).result = .error (.spawn command.program cause) := by
  simp only [compile, Run.result_bind, Run.result_logAll, Run.result_log, Except.bind, h,
    Run.result_fail]

theorem compile_deeds_of_start
    (h : host.startChecked (command.call host invocation) = .ok exit) :
    (command.compile host invocation).deeds = [.start (command.call host invocation)] := by
  rw [compile, Run.deeds_bind_ok (Run.result_logAll _), Run.deeds_bind_ok (Run.result_log ..)]
  simp only [h, Run.deeds_logAll, Run.deeds_log, List.nil_append]
  rw [Run.deeds_bind_ok (Run.result_act _), Run.deeds_bind_ok (Run.result_logAll _),
    Run.deeds_act rfl, Run.deeds_logAll]
  cases ended : (Run.ofExcept (outcome host invocation exit)).result with
  | ok result =>
    rw [Run.deeds_bind_ok ended, Run.deeds_bind_ok (Run.result_log ..)]
    rfl
  | error fault =>
    rw [Run.deeds_bind_error ended]
    rfl

theorem compile_deeds_of_refusal {cause : IoFault}
    (h : host.startChecked (command.call host invocation) = .error cause) :
    (command.compile host invocation).deeds = [] := by
  rw [compile, Run.deeds_bind_ok (Run.result_logAll _), Run.deeds_bind_ok (Run.result_log ..)]
  simp [h]

end CompilerCommand

end CompilerDriver

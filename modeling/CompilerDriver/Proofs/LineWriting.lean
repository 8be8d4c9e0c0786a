import CompilerDriver.CompiledText
import CompilerDriver.Report

namespace CompilerDriver

namespace Writing

theorem bind_apply {α β : Type} (writing : Writing α) (next : α → Writing β) (sink : Sink) :
    (writing >>= next) sink =
      match writing sink with
      | (.ok a, behind) => next a behind
      | (.error cause, behind) => (.error cause, behind) := by
  simp only [bind, ExceptT.bind, ExceptT.bindCont, ExceptT.mk, StateT.bind]
  obtain ⟨_ | _, behind⟩ := writing sink <;> rfl

/-- Puts in a row stop where a list of pieces does: induction on the pieces. -/
theorem forM_put (pieces : List Bytes) (sink : Sink) :
    pieces.forM put sink = sink.putAll pieces := by
  induction pieces generalizing sink with
  | nil => rfl
  | cons piece more ih =>
    show (put piece >>= fun _ => more.forM put) sink = _
    rw [bind_apply, Sink.putAll, put]
    obtain ⟨_ | _, behind⟩ := sink.put piece
    · rfl
    · exact ih behind

theorem forM_put_flush (pieces : List Bytes) (sink : Sink) :
    (pieces.forM put >>= fun _ => flush) sink = sink.putAllFlushed pieces := by
  rw [bind_apply, forM_put, Sink.putAllFlushed]
  obtain ⟨_ | _, behind⟩ := sink.putAll pieces <;> rfl

theorem forM_flatMap {α β : Type} (items : List α) (parts : α → List β) (write : β → Writing Unit) :
    (items.flatMap parts).forM write = items.forM fun item => (parts item).forM write := by
  simp only [List.forM_eq_forM]
  induction items with
  | nil => rfl
  | cons item items ih => rw [List.flatMap_cons, List.forM_append, List.forM_cons, ih]

/-- A line is one piece. -/
theorem forM_line (lines : List String) :
    lines.forM line = (lines.map fun line => Utf8.encode (line ++ "\n")).forM put := by
  rw [List.forM_eq_forM, List.forM_eq_forM, List.forM_map]
  rfl

end Writing

namespace Report

variable (mode : ColorMode) (sources externs : List Buffer)

theorem writeContext_eq_forM (diagnostic : Diagnostic) (content : String) :
    writeContext mode diagnostic content = (context mode diagnostic content).forM Writing.line := by
  simp [writeContext, context]

theorem writeDiagnostic_eq_forM (diagnostic : Diagnostic) :
    writeDiagnostic mode sources externs diagnostic =
      (block mode sources externs diagnostic).forM Writing.line := by
  rw [writeDiagnostic, block]
  cases resolve diagnostic.file sources externs with
  | none => simp
  | some content => simp [writeContext_eq_forM]

/-- Writing a diagnostic site by site is putting its lines, up to the first that is refused. -/
theorem writeDiagnostic_eq_putAll (diagnostic : Diagnostic) (sink : Sink) :
    writeDiagnostic mode sources externs diagnostic sink =
      sink.putAll (written (block mode sources externs diagnostic)) := by
  rw [writeDiagnostic_eq_forM, Writing.forM_line, Writing.forM_put]
  rfl

/-- Writing a report diagnostic by diagnostic is putting all its lines and flushing behind them. -/
theorem write_eq_putAllFlushed (result : CompilationResult) (sink : Sink) :
    write mode sources externs result sink =
      sink.putAllFlushed (written (lines mode sources externs result)) := by
  have each : writeDiagnostic mode sources externs = fun diagnostic =>
      (block mode sources externs diagnostic).forM Writing.line :=
    funext (writeDiagnostic_eq_forM mode sources externs)
  rw [write, each, ← Writing.forM_flatMap, Writing.forM_line, Writing.forM_put_flush]
  rfl

/-- A verdict is given where a report has been written. -/
theorem judge_eq (result : CompilationResult) (sink : Sink) :
    judge mode sources externs result sink =
      ((write mode sources externs result sink).1.map fun _ => result.hasFatalErrors,
        (write mode sources externs result sink).2) := by
  rw [judge, Writing.bind_apply]
  obtain ⟨_ | _, behind⟩ := write mode sources externs result sink <;> rfl

end Report

namespace CompiledText

/-- Writing compiled code site by site is putting its lines and flushing behind them. -/
theorem write_eq_putAllFlushed (result : CompilationResult) (sink : Sink) :
    write result sink = sink.putAllFlushed (pieces result) := by
  have all : write result = (lines result).forM Writing.line >>= fun _ => Writing.flush := by
    rw [write, lines]
    cases result.sourceMap.filter (· ≠ "") <;> simp
  rw [all, Writing.forM_line, Writing.forM_put_flush]
  rfl

end CompiledText

end CompilerDriver

import CompilerDriver.Proofs.ContextWindow

namespace CompilerDriver

namespace Report

/-- These lines stand in a text right before the line with this number, counted from one. That line
need not be there. -/
def StandBefore (before lines : List String) (number : Int) : Prop :=
  ∃ far near, lines = far ++ before ++ near ∧ (far.length + before.length + 1 : Int) = number

/-- The lines that lead up to the one with this number are as many as context has and stand right
before it, or there are none. -/
def AllOrNothing (before lines : List String) (number : Int) : Prop :=
  before = [] ∨ before.length = contextLines ∧ StandBefore before lines number

/-- The number of a line so little behind the end of a text that the lines before it would still
reach into the text, though not with all of them. -/
def JustBeyond (lines : List String) (number : Int) : Prop :=
  contextLines < number ∧ lines.length + 1 < number ∧ number ≤ lines.length + contextLines

section

variable {lines : List String} {number : Nat}

theorem leading_of_few (few : number ≤ contextLines) : leading lines number = [] := by
  unfold contextLines at few
  rw [leading, if_neg (by omega)]

theorem leading_of_many (many : contextLines < number) :
    leading lines number = (lines.take (number - 1)).drop (number - 1 - contextLines) := by
  unfold contextLines at many ⊢
  rw [leading, if_pos (by omega), between]
  congr 1

theorem length_leading (lines : List String) (many : contextLines < number) :
    (leading lines number).length =
      min contextLines (lines.length + contextLines + 1 - number) := by
  rw [leading_of_many many, List.length_drop, List.length_take]
  omega

theorem leading_standBefore (many : contextLines < number) (near : number ≤ lines.length + 1) :
    StandBefore (leading lines number) lines number := by
  have whole : lines = lines.take (number - 1 - contextLines) ++ leading lines number ++
      lines.drop (number - 1) := by
    have front : lines.take (number - 1 - contextLines) =
        (lines.take (number - 1)).take (number - 1 - contextLines) := by
      rw [List.take_take, Nat.min_eq_left (Nat.sub_le ..)]
    rw [leading_of_many many, front, List.take_append_drop, List.take_append_drop]
  refine ⟨_, _, whole, ?_⟩
  rw [length_leading lines many, List.length_take]
  omega

theorem leading_suffix (many : contextLines < number) (beyond : lines.length < number) :
    leading lines number <:+ lines := by
  rw [leading_of_many many, List.take_of_length_le (by omega)]
  exact List.drop_suffix _ _

/-- What leads up to a line is all or nothing unless the line is just beyond the end. -/
theorem leading_allOrNothing_iff :
    AllOrNothing (leading lines number) lines number ↔ ¬JustBeyond lines number := by
  unfold AllOrNothing JustBeyond
  rw [← List.length_eq_zero_iff]
  by_cases many : contextLines < number
  · have count := length_leading lines many
    have four : contextLines = 4 := rfl
    constructor
    · rintro (none | ⟨all, -⟩) <;> omega
    · intro inside
      by_cases near : number ≤ lines.length + 1
      · exact .inr ⟨by omega, leading_standBefore many near⟩
      · exact .inl (by omega)
  · rw [leading_of_few (Nat.le_of_not_lt many)]
    exact ⟨fun _ beyond => by omega, fun _ => .inl rfl⟩

/-- Just beyond the end, what is left to lead up to a line is the end of the text. -/
theorem leading_of_justBeyond (beyond : JustBeyond lines number) :
    0 < (leading lines number).length ∧ (leading lines number).length < contextLines ∧
      leading lines number <:+ lines ∧ ¬StandBefore (leading lines number) lines number := by
  obtain ⟨many, past, near⟩ := beyond
  have count : (leading lines number).length =
      min contextLines (lines.length + contextLines + 1 - number) :=
    length_leading lines (by omega)
  refine ⟨by omega, by omega, leading_suffix (by omega) (by omega), ?_⟩
  rintro ⟨far, close, whole, place⟩
  have total := congrArg List.length whole
  simp only [List.length_append] at total
  omega

end

/-- The lines that are written before the offending one are all or nothing exactly when its number
is not just beyond the end of the content. There they are the last lines of the content, fewer than
context has, and do not reach up to the line, which is shown empty. Words of 64 bits are wide enough
for it. -/
theorem leading_context_iff (mode : ColorMode) {diagnostic : Diagnostic}
    {sources externs : List Buffer} {content : String}
    (resolved : resolve diagnostic.file sources externs = some content)
    (low : Int64.minValue.toInt < diagnostic.line)
    (high : diagnostic.line ≤ Int64.maxValue.toInt) :
    let lines := splitLines content
    let before := linesBefore lines (lineIndex diagnostic)
    let offending := offendingLine lines (lineIndex diagnostic)
    let window := before ++
      [paint mode (severityColor diagnostic.severity) offending,
        paint mode caretColor (Caret.lead offending diagnostic.column ++ "^")] ++
      linesAfter lines (lineIndex diagnostic)
    Sink.whole (writeDiagnostic mode sources externs diagnostic) =
      (header diagnostic :: diagnostic.description :: (window ++ [""])).flatMap
        (fun line => Utf8.encode (line ++ "\n")) ∧
    contextInWords? mode diagnostic content = some window ∧
    (AllOrNothing before lines diagnostic.line ↔ ¬JustBeyond lines diagnostic.line) ∧
    (JustBeyond lines diagnostic.line →
      offending = "" ∧ 0 < before.length ∧ before.length < contextLines ∧ before <:+ lines ∧
        ¬StandBefore before lines diagnostic.line) := by
  intro lines before offending window
  have lead : before = leading lines diagnostic.line.toNat := linesBefore_lineIndex lines diagnostic
  refine ⟨?_, contextInWords?_eq low high _ _, ?_⟩
  · rw [whole_writeDiagnostic, block, resolved, written, ← List.flatMap_def]
    rfl
  rw [lead]
  by_cases counted : 0 ≤ diagnostic.line
  · rw [← Int.toNat_of_nonneg counted]
    refine ⟨leading_allOrNothing_iff, fun beyond => ⟨?_, leading_of_justBeyond beyond⟩⟩
    obtain ⟨many, past, near⟩ := beyond
    have missing : lines[diagnostic.line.toNat - 1]? = none :=
      List.getElem?_eq_none (by omega)
    show offendingLine lines (lineIndex diagnostic) = ""
    rw [lineIndex_of_pos (by omega), offendingLine, Option.bind_some, missing]
    rfl
  · have none : leading lines diagnostic.line.toNat = [] := leading_of_few (by omega)
    rw [none]
    have inside : ¬JustBeyond lines diagnostic.line := fun beyond => by
      have many := beyond.1
      omega
    exact ⟨⟨fun _ => inside, fun _ => .inl rfl⟩, fun beyond => absurd beyond inside⟩

/-- Right behind the last of five lines, four stand before the line that is not there. -/
theorem leading_context_behind_last :
    let source : Buffer := ⟨some "a.js", "a\nb\nc\nd\ne"⟩
    let diagnostic : Diagnostic := ⟨.warning, "W", "end", some "a.js", 6, 0⟩
    AllOrNothing ["b", "c", "d", "e"] ["a", "b", "c", "d", "e"] 6 ∧
    Sink.whole (writeDiagnostic .never [source] [] diagnostic) =
      ["a.js:6 (W)", "end", "b", "c", "d", "e", "", "^", ""].flatMap
        fun line => Utf8.encode (line ++ "\n") := by
  intro source diagnostic
  have resolved : resolve diagnostic.file [source] [] = some source.content := rfl
  obtain ⟨written, -, whole, -⟩ :=
    leading_context_iff .never resolved (by decide) (by decide)
  have lines : splitLines source.content = ["a", "b", "c", "d", "e"] := by decide +kernel
  rw [lines] at written whole
  refine ⟨whole.mpr ?_, written.trans (by decide +kernel)⟩
  exact fun beyond => absurd beyond.2.1 (by decide)

/-- Two lines are written before the fifth of a text that has no more than these two. -/
theorem leading_context_of_two :
    let source : Buffer := ⟨some "a.js", "one\ntwo"⟩
    let diagnostic : Diagnostic := ⟨.error, "E", "far", some "a.js", 5, 0⟩
    resolve diagnostic.file [source] [] = some source.content ∧
    linesBefore (splitLines source.content) (lineIndex diagnostic) = ["one", "two"] ∧
    ¬AllOrNothing ["one", "two"] (splitLines source.content) diagnostic.line ∧
    Sink.whole (writeDiagnostic .never [source] [] diagnostic) =
      ["a.js:5 (E)", "far", "one", "two", "", "^", ""].flatMap
        fun line => Utf8.encode (line ++ "\n") := by
  intro source diagnostic
  refine ⟨rfl, by decide +kernel, ?_, by decide +kernel⟩
  rintro (none | ⟨four, -⟩)
  · cases none
  · cases four

end Report

end CompilerDriver

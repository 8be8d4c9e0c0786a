import CompilerDriver.Proofs.CaretColumns
import CompilerDriver.Proofs.ContextWindow
import CompilerDriver.Proofs.ResolvedBuffers
import CompilerDriver.Proofs.Utf8Text

namespace CompilerDriver

namespace Report

open Utf8

/-- What goes on with a colour sequence behind its escape sign, and the rest of the text: a bracket,
some digits and an `m`. -/
def colorBehind? : Bytes → Option (Bytes × Bytes)
  | [] => none
  | bracket :: rest =>
    match rest.takeWhile isDigit, rest.dropWhile isDigit with
    | digit :: digits, last :: more =>
      if bracket = ascii '[' ∧ last = ascii 'm' then
        some (bracket :: digit :: (digits ++ [last]), more)
      else none
    | _, _ => none

theorem colorBehind?_length {bytes found more : Bytes}
    (h : colorBehind? bytes = some (found, more)) : more.length < bytes.length := by
  unfold colorBehind? at h
  split at h
  · cases h
  next bracket rest =>
    split at h
    next digit digits last left taken dropped =>
      split at h
      · simp only [Option.some.injEq, Prod.mk.injEq] at h
        have shorter := (List.dropWhile_suffix (l := rest) isDigit).length_le
        rw [dropped] at shorter
        simp only [← h.2, List.length_cons] at shorter ⊢
        omega
      · cases h
    · cases h

/-- The colour sequences of a text in order, and the text without them. -/
def takeColors : Bytes → List Bytes × Bytes
  | [] => ([], [])
  | b :: rest =>
    match _h : colorBehind? rest with
    | some (behind, more) =>
      if b = ascii '\x1b' then ((b :: behind) :: (takeColors more).1, (takeColors more).2)
      else ((takeColors rest).1, b :: (takeColors rest).2)
    | none => ((takeColors rest).1, b :: (takeColors rest).2)
termination_by bytes => bytes.length
decreasing_by
  · have := colorBehind?_length _h
    simp only [List.length_cons]
    omega
  · simp
  · simp

/-- The text without its colour sequences. -/
def withoutColors (bytes : Bytes) : Bytes :=
  (takeColors bytes).2

/-- The colour sequences of a text. -/
def colorsOf (bytes : Bytes) : List Bytes :=
  (takeColors bytes).1

theorem takeColors_plain {b : UInt8} (h : b ≠ ascii '\x1b') (rest : Bytes) :
    takeColors (b :: rest) = ((takeColors rest).1, b :: (takeColors rest).2) := by
  rw [takeColors]
  split
  · rw [if_neg h]
  · rfl

theorem takeColors_sequence {behind rest more : Bytes} (h : colorBehind? rest = some (behind, more)) :
    takeColors (ascii '\x1b' :: rest) =
      ((ascii '\x1b' :: behind) :: (takeColors more).1, (takeColors more).2) := by
  rw [takeColors]
  split <;> simp_all

/-- Octets that hold these colour sequences and, without them, that text, whatever follows. -/
def Colored (octets : Bytes) (colors : List Bytes) (plain : Bytes) : Prop :=
  ∀ rest, takeColors (octets ++ rest) = (colors ++ (takeColors rest).1, plain ++ (takeColors rest).2)

theorem Colored.takeColors {octets plain : Bytes} {colors : List Bytes}
    (h : Colored octets colors plain) : takeColors octets = (colors, plain) := by
  have whole := h []
  simp only [List.append_nil] at whole
  rw [whole, Report.takeColors]
  simp

theorem Colored.append {a b plainA plainB : Bytes} {colorsA colorsB : List Bytes}
    (ha : Colored a colorsA plainA) (hb : Colored b colorsB plainB) :
    Colored (a ++ b) (colorsA ++ colorsB) (plainA ++ plainB) := by
  intro rest
  rw [List.append_assoc, ha, hb, List.append_assoc, List.append_assoc]

theorem colored_plain {octets : Bytes} (h : ascii '\x1b' ∉ octets) : Colored octets [] octets := by
  intro rest
  induction octets with
  | nil => rfl
  | cons b octets ih =>
    have apart : b ≠ ascii '\x1b' := fun same => h (same ▸ List.mem_cons_self)
    rw [List.cons_append, takeColors_plain apart,
      ih fun member => h (List.mem_cons_of_mem b member)]
    rfl

theorem colored_sequence (digits : Bytes) (nonempty : digits ≠ [])
    (all : digits.all isDigit = true) :
    Colored (ascii '\x1b' :: ascii '[' :: (digits ++ [ascii 'm']))
      [ascii '\x1b' :: ascii '[' :: (digits ++ [ascii 'm'])] [] := by
  intro rest
  have h := List.all_eq_true.mp all
  have behind : colorBehind? (ascii '[' :: (digits ++ ascii 'm' :: rest)) =
      some (ascii '[' :: (digits ++ [ascii 'm']), rest) := by
    obtain ⟨digit, more, rfl⟩ := List.exists_cons_of_ne_nil nonempty
    have taken : ((digit :: more) ++ ascii 'm' :: rest).takeWhile isDigit = digit :: more := by
      rw [List.takeWhile_append_of_pos h, List.takeWhile_cons_of_neg (by decide), List.append_nil]
    have dropped : ((digit :: more) ++ ascii 'm' :: rest).dropWhile isDigit = ascii 'm' :: rest := by
      rw [List.dropWhile_append_of_pos h, List.dropWhile_cons_of_neg (by decide)]
    rw [colorBehind?, taken, dropped]
    simp
  have whole : ascii '\x1b' :: ascii '[' :: (digits ++ [ascii 'm']) ++ rest =
      ascii '\x1b' :: ascii '[' :: (digits ++ ascii 'm' :: rest) := by simp
  rw [whole, takeColors_sequence behind]
  rfl

theorem colored_flatMap {diagnostics : List Diagnostic} {octets plain : Diagnostic → Bytes}
    {colors : Diagnostic → List Bytes}
    (h : ∀ diagnostic ∈ diagnostics,
      Colored (octets diagnostic) (colors diagnostic) (plain diagnostic)) :
    Colored (diagnostics.flatMap octets) (diagnostics.flatMap colors) (diagnostics.flatMap plain) := by
  induction diagnostics with
  | nil => exact colored_plain (List.not_mem_nil)
  | cons diagnostic more ih =>
    exact (h diagnostic List.mem_cons_self).append
      (ih fun other member => h other (List.mem_cons_of_mem diagnostic member))

/-- A text in which no colour sequence begins. -/
def Plain (text : String) : Prop :=
  '\x1b' ∉ text.toList
deriving Decidable

theorem plain_append {a b : String} : Plain (a ++ b) ↔ Plain a ∧ Plain b := by
  simp [Plain]

theorem plain_toString (n : Int) : Plain (toString n) := by
  have natural (n : Nat) : Plain (String.ofList (Nat.toDigits 10 n)) := by
    intro member
    rw [String.toList_ofList] at member
    exact absurd (Nat.isDigit_of_mem_toDigits (by decide) (by decide) member) (by decide)
  cases n with
  | ofNat n => exact natural n
  | negSucc n => exact plain_append.mpr ⟨by simp [Plain], natural (n + 1)⟩

theorem plain_lead (line : String) (column : Int) : Plain (Caret.lead line column) := by
  intro member
  rw [Caret.toList_lead] at member
  obtain ⟨unit, -, same⟩ := List.mem_map.mp member
  unfold Caret.below at same
  split at same <;> cases same

/-- The colour sequences of a diagnostic with a context: one pair around the line, one around the
caret. -/
def contextColors (severity : Severity) : List String :=
  [severityColor severity, reset, caretColor, reset]

theorem colored_reset : Colored (encode reset) [encode reset] [] :=
  colored_sequence [0x30] (by decide) (by decide)

theorem colored_caret : Colored (encode caretColor) [encode caretColor] [] :=
  colored_sequence [0x39, 0x32] (by decide) (by decide)

theorem colored_severity (severity : Severity) :
    Colored (encode (severityColor severity)) [encode (severityColor severity)] [] := by
  cases severity with
  | error => exact colored_sequence [0x39, 0x31] (by decide) (by decide)
  | warning => exact colored_sequence [0x39, 0x33] (by decide) (by decide)

theorem colored_text {text : String} (h : Plain text) : Colored (encode text) [] (encode text) :=
  colored_plain (not_mem_octets (by decide) h)

/-- Whatever stands in a painted line, only the two sequences around it are taken out. -/
theorem colored_painted {color text : String} (h : Plain text)
    (colored : Colored (encode color) [encode color] []) :
    Colored (encode (paint .always color text ++ "\n")) [encode color, encode reset]
      (encode (paint .never color text ++ "\n")) := by
  have whole : encode (paint .always color text ++ "\n") =
      encode color ++ encode text ++ encode reset ++ encode "\n" := by
    simp [paint, ColorMode.enabled, encode_append]
  have bare : encode (paint .never color text ++ "\n") = encode text ++ encode "\n" := by
    simp [paint, ColorMode.enabled, encode_append]
  have feed : Colored (encode "\n") [] (encode "\n") := colored_text (by decide)
  rw [whole, bare]
  simpa using ((colored.append (colored_text h)).append colored_reset).append feed

theorem colored_lines {lines : List String} (h : ∀ line ∈ lines, Plain line) :
    Colored (written lines).flatten [] (written lines).flatten := by
  induction lines with
  | nil => exact colored_plain List.not_mem_nil
  | cons line more ih =>
    have feed : Plain (line ++ "\n") := plain_append.mpr ⟨h line List.mem_cons_self, by decide⟩
    exact (colored_text feed).append (ih fun other member => h other (List.mem_cons_of_mem line member))

theorem mem_linesBefore {lines : List String} {index : Option Nat} {line : String}
    (h : line ∈ linesBefore lines index) : line ∈ lines := by
  unfold linesBefore at h
  split at h
  · cases h
  · split at h
    · cases h
    · exact List.mem_of_mem_drop (List.mem_of_mem_take h)

theorem mem_linesAfter {lines : List String} {index : Option Nat} {line : String}
    (h : line ∈ linesAfter lines index) : line ∈ lines := by
  unfold linesAfter at h
  split at h
  · cases h
  · exact List.mem_of_mem_drop (List.mem_of_mem_take h)

theorem plain_offendingLine {lines : List String} (h : ∀ line ∈ lines, Plain line)
    (index : Option Nat) : Plain (offendingLine lines index) := by
  unfold offendingLine
  cases found : index.bind (lines[·]?) with
  | none => decide
  | some line =>
    obtain ⟨place, -, there⟩ := Option.bind_eq_some_iff.mp found
    exact h line (List.mem_of_getElem? there)

theorem colored_context {content : String} (h : Plain content) (diagnostic : Diagnostic) :
    Colored (written (context .always diagnostic content)).flatten
      ((contextColors diagnostic.severity).map encode)
      (written (context .never diagnostic content)).flatten := by
  have plain : ∀ line ∈ splitLines content, Plain line := fun line member hc =>
    h (mem_of_mem_splitLines member hc).1
  have before : ∀ line ∈ linesBefore (splitLines content) (lineIndex diagnostic), Plain line :=
    fun line member => plain line (mem_linesBefore member)
  have after : ∀ line ∈ linesAfter (splitLines content) (lineIndex diagnostic), Plain line :=
    fun line member => plain line (mem_linesAfter member)
  have offending := plain_offendingLine plain (lineIndex diagnostic)
  have caret : Plain (Caret.lead (offendingLine (splitLines content) (lineIndex diagnostic))
      diagnostic.column ++ "^") := plain_append.mpr ⟨plain_lead _ _, by decide⟩
  have painted := (colored_painted offending (colored_severity diagnostic.severity)).append
    (colored_painted caret colored_caret)
  have all := ((colored_lines before).append painted).append (colored_lines after)
  simpa [context, written, contextColors] using all

theorem exists_buffer_of_resolve {file : Option String} {sources externs : List Buffer}
    {content : String} (h : resolve file sources externs = some content) :
    ∃ buffer ∈ sources ++ externs, buffer.content = content := by
  rw [resolve_eq_place?] at h
  obtain ⟨place, -, there⟩ := Option.bind_eq_some_iff.mp h
  obtain ⟨buffer, found, same⟩ := Option.map_eq_some_iff.mp there
  exact ⟨buffer, List.mem_of_getElem? found, same⟩

/-- The texts of a diagnostic hold no escape sign. -/
structure PlainDiagnostic (diagnostic : Diagnostic) : Prop where
  kind : Plain diagnostic.kind
  description : Plain diagnostic.description
  file : ∀ file ∈ diagnostic.file, Plain file

theorem plain_header {diagnostic : Diagnostic} (h : PlainDiagnostic diagnostic) :
    Plain (header diagnostic) := by
  have file : Plain (diagnostic.file.getD "null") := by
    cases named : diagnostic.file with
    | none => decide
    | some file => exact h.file file named
  unfold header
  split
  · exact h.kind
  · simp only [plain_append]
    exact ⟨⟨⟨⟨⟨file, by decide⟩, plain_toString _⟩, by decide⟩, h.kind⟩, by decide⟩

section

variable {sources externs : List Buffer}

/-- The colour sequences of what is written about a diagnostic: those of its context, if it has
one. -/
def blockColors (sources externs : List Buffer) (diagnostic : Diagnostic) : List Bytes :=
  if (resolve diagnostic.file sources externs).isSome then
    (contextColors diagnostic.severity).map encode
  else []

theorem colored_block (contents : ∀ buffer ∈ sources ++ externs, Plain buffer.content)
    {diagnostic : Diagnostic} (h : PlainDiagnostic diagnostic) :
    Colored (Sink.whole (writeDiagnostic .always sources externs diagnostic))
      (blockColors sources externs diagnostic)
      (Sink.whole (writeDiagnostic .never sources externs diagnostic)) := by
  have front : ∀ line ∈ [header diagnostic, diagnostic.description], Plain line := by
    simp only [List.mem_cons, List.not_mem_nil, or_false]
    rintro line (rfl | rfl)
    · exact plain_header h
    · exact h.description
  have last : ∀ line ∈ [""], Plain line := by decide
  rw [whole_writeDiagnostic, whole_writeDiagnostic, block, block, blockColors]
  cases resolved : resolve diagnostic.file sources externs with
  | none => simpa [written] using (colored_lines front).append (colored_lines last)
  | some content =>
    obtain ⟨buffer, member, rfl⟩ := exists_buffer_of_resolve resolved
    have middle := colored_context (contents buffer member) diagnostic
    simpa [written] using ((colored_lines front).append middle).append (colored_lines last)

theorem judge_unlimited (mode : ColorMode) (result : CompilationResult) {sink : Sink}
    (h : sink.limit = none) :
    judge mode sources externs result sink =
      (sink.flush.map fun _ => result.hasFatalErrors,
        { sink with stored := sink.stored ++ text mode sources externs result }) := by
  have fits : sink.Fits (written (lines mode sources externs result)).flatten := by
    simp [Sink.Fits, h]
  rw [judge_eq, write_eq_putAllFlushed, Sink.putAllFlushed_of_fits fits, Sink.filled, h]
  rfl

end

end Report

end CompilerDriver

import CompilerDriver.Proofs.TruncatedOutput
import Mathlib.Data.Int.Init
import Mathlib.Data.List.Basic

namespace CompilerDriver

namespace Report

/-- The lines from the one numbered `first` to the one numbered `last`, counted from one. -/
def between (lines : List String) (first last : Nat) : List String :=
  (lines.take last).drop (first - 1)

/-- The lines that lead up to the one with this number: the four before it, or none. -/
def leading (lines : List String) (number : Nat) : List String :=
  if 5 ≤ number then between lines (number - 4) (number - 1) else []

/-- The lines that follow the one with this number, four at most. -/
def trailing (lines : List String) (number : Nat) : List String :=
  between lines (number + 1) (min (number + 4) lines.length)

theorem intercalate_splitLines (content : String) :
    "\n".intercalate (splitLines content) = content := by
  apply String.toList_injective
  rw [String.toList_intercalate, splitLines, List.map_map]
  have same : String.toList ∘ String.ofList = id := funext fun _ => String.toList_ofList
  rw [same, List.map_id]
  exact List.intercalate_splitOn '\n'

/-- A piece of a text holds characters of the text, but none that divides it. -/
theorem mem_of_mem_splitOn {text piece : List Char} {c d : Char} (h : piece ∈ text.splitOn d)
    (hc : c ∈ piece) : c ∈ text ∧ c ≠ d := by
  induction text generalizing piece with
  | nil => simp_all
  | cons e rest ih =>
    rw [List.splitOn_cons_eq_if_modifyHead] at h
    by_cases same : e = d
    · have cut : piece = [] ∨ piece ∈ rest.splitOn d := by simpa [same] using h
      rcases cut with rfl | later
      · cases hc
      · exact (ih later hc).imp_left (List.mem_cons_of_mem e)
    · obtain ⟨first, more, split⟩ := List.exists_cons_of_ne_nil (List.splitOn_ne_nil d rest)
      rw [split] at h ih
      have cut : piece = e :: first ∨ piece ∈ more := by simpa [same] using h
      rcases cut with rfl | later
      · rcases List.mem_cons.mp hc with rfl | inside
        · exact ⟨List.mem_cons_self, same⟩
        · exact (ih List.mem_cons_self inside).imp_left (List.mem_cons_of_mem e)
      · exact (ih (List.mem_cons_of_mem _ later) hc).imp_left (List.mem_cons_of_mem e)

theorem mem_of_mem_splitLines {content line : String} {c : Char} (h : line ∈ splitLines content)
    (hc : c ∈ line.toList) : c ∈ content.toList ∧ c ≠ '\n' := by
  obtain ⟨piece, member, rfl⟩ := List.mem_map.mp h
  rw [String.toList_ofList] at hc
  exact mem_of_mem_splitOn member hc

theorem not_mem_of_mem_splitLines {content line : String} (h : line ∈ splitLines content) :
    '\n' ∉ line.toList := fun hc =>
  (mem_of_mem_splitLines h hc).2 rfl

section

variable {diagnostic : Diagnostic} {lines : List String}

theorem between_append {first middle last : Nat} (high : first ≤ middle)
    (more : middle ≤ last + 1) :
    between lines first (middle - 1) ++ between lines middle last = between lines first last := by
  have upTo : lines.take (middle - 1) = (lines.take last).take (middle - 1) := by
    rw [List.take_take, Nat.min_eq_left (by omega)]
  unfold between
  rw [upTo]
  generalize lines.take last = part
  by_cases short : part.length ≤ middle - 1
  · rw [List.take_of_length_le short, List.drop_of_length_le short, List.append_nil]
  · have inside : first - 1 ≤ (part.take (middle - 1)).length := by
      rw [List.length_take]
      omega
    rw [← List.drop_append_of_le_length inside, List.take_append_drop]

theorem between_self {number : Nat} {line : String} (some : 1 ≤ number)
    (h : lines[number - 1]? = Option.some line) : between lines number number = [line] := by
  obtain ⟨bound, rfl⟩ := List.getElem?_eq_some_iff.mp h
  have here : number - 1 + 1 = number := by omega
  rw [between, List.drop_take, List.drop_eq_getElem_cons bound, show number - (number - 1) = 1 by omega]
  rfl

theorem linesBefore_lineIndex (lines : List String) (diagnostic : Diagnostic) :
    linesBefore lines (lineIndex diagnostic) = leading lines diagnostic.line.toNat := by
  unfold lineIndex linesBefore leading
  by_cases named : 1 ≤ diagnostic.line
  · have place : (diagnostic.line - 1).toNat = diagnostic.line.toNat - 1 := by omega
    rw [if_pos named, place]
    by_cases enough : 5 ≤ diagnostic.line.toNat
    · have room : ¬diagnostic.line.toNat - 1 < contextLines := by
        unfold contextLines
        omega
      have start : diagnostic.line.toNat - 1 - contextLines = diagnostic.line.toNat - 4 - 1 := by
        unfold contextLines
        omega
      have count : diagnostic.line.toNat - 1 - (diagnostic.line.toNat - 4 - 1) = contextLines := by
        unfold contextLines
        omega
      simp only [if_neg room, if_pos enough, between, List.drop_take, start, count]
    · have room : diagnostic.line.toNat - 1 < contextLines := by
        unfold contextLines
        omega
      simp only [if_pos room, if_neg enough]
  · have few : ¬5 ≤ diagnostic.line.toNat := by omega
    rw [if_neg named, if_neg few]

theorem linesAfter_lineIndex (inside : 1 ≤ diagnostic.line) :
    linesAfter lines (lineIndex diagnostic) = trailing lines diagnostic.line.toNat := by
  unfold lineIndex linesAfter trailing
  have place : (diagnostic.line - 1).toNat + 1 = diagnostic.line.toNat := by omega
  rw [if_pos inside]
  simp only [place, between, List.drop_take, Nat.add_sub_cancel]
  rw [List.take_eq_take_iff, List.length_drop]
  unfold contextLines
  omega

theorem lineIndex_of_pos (h : 1 ≤ diagnostic.line) :
    lineIndex diagnostic = some (diagnostic.line.toNat - 1) := by
  rw [lineIndex, if_pos h]
  congr 1
  omega

/-- The lines around the offending one, with it, stand in the text as they are shown. -/
theorem leading_trailing {number : Nat} {offending : String} (low : 1 ≤ number)
    (there : lines[number - 1]? = some offending) :
    leading lines number ++ [offending] ++ trailing lines number =
      between lines (if 5 ≤ number then number - 4 else number)
        (min (number + 4) lines.length) := by
  have bound := (List.getElem?_eq_some_iff.mp there).1
  have behind : between lines number number ++ trailing lines number =
      between lines number (min (number + 4) lines.length) := by
    have next : number ≤ number + 1 := by omega
    exact between_append next (by omega)
  rw [List.append_assoc, ← between_self low there, behind, leading]
  by_cases enough : 5 ≤ number
  · rw [if_pos enough, if_pos enough]
    exact between_append (by omega) (by omega)
  · rw [if_neg enough, if_neg enough, List.nil_append]

theorem length_leading_trailing (lines : List String) (number : Nat) (offending : String) :
    (leading lines number ++ [offending] ++ trailing lines number).length ≤ 9 := by
  have before : (leading lines number).length ≤ 4 := by
    unfold leading
    split
    · rw [between, List.length_drop, List.length_take]
      omega
    · exact Nat.zero_le _
  have behind : (trailing lines number).length ≤ 4 := by
    rw [trailing, between, List.length_drop, List.length_take]
    omega
  simp only [List.length_append, List.length_singleton]
  omega

end

theorem context_never (diagnostic : Diagnostic) (content : String) :
    context .never diagnostic content =
      linesBefore (splitLines content) (lineIndex diagnostic) ++
        [offendingLine (splitLines content) (lineIndex diagnostic),
          Caret.lead (offendingLine (splitLines content) (lineIndex diagnostic))
            diagnostic.column ++ "^"] ++
        linesAfter (splitLines content) (lineIndex diagnostic) := rfl

/-- The context of a diagnostic in a line that the content has. -/
theorem context_inside {diagnostic : Diagnostic} {content offending : String}
    (low : 1 ≤ diagnostic.line)
    (there : (splitLines content)[diagnostic.line.toNat - 1]? = some offending) :
    context .never diagnostic content =
      leading (splitLines content) diagnostic.line.toNat ++
        [offending, Caret.lead offending diagnostic.column ++ "^"] ++
        trailing (splitLines content) diagnostic.line.toNat := by
  have line : offendingLine (splitLines content) (lineIndex diagnostic) = offending := by
    rw [lineIndex_of_pos low, offendingLine, Option.bind_some, there]
    rfl
  rw [context_never, linesBefore_lineIndex, linesAfter_lineIndex low, line]

/-- The context of a diagnostic in a line that the content does not have. -/
theorem context_outside {diagnostic : Diagnostic} {content : String}
    (h : diagnostic.line < 1 ∨ (splitLines content).length < diagnostic.line) :
    context .never diagnostic content =
      leading (splitLines content) diagnostic.line.toNat ++ ["", "^"] := by
  have empty : offendingLine (splitLines content) (lineIndex diagnostic) = "" ∧
      linesAfter (splitLines content) (lineIndex diagnostic) = [] := by
    by_cases low : 1 ≤ diagnostic.line
    · have beyond : (splitLines content).length ≤ diagnostic.line.toNat - 1 := by omega
      rw [lineIndex_of_pos low]
      constructor
      · rw [offendingLine, Option.bind_some, List.getElem?_eq_none beyond]
        rfl
      · rw [linesAfter, List.drop_of_length_le (by omega), List.take_nil]
    · rw [lineIndex, if_neg low]
      exact ⟨rfl, rfl⟩
  have bare : Caret.lead "" diagnostic.column = "" := by simp [Caret.lead, Caret.blanks]
  rw [context_never, linesBefore_lineIndex, empty.1, empty.2, List.append_nil, bare]
  rfl

theorem signedWord?_of_range {n : Int} (low : Int64.minValue.toInt ≤ n)
    (high : n ≤ Int64.maxValue.toInt) : ∃ word, signedWord? n = some word ∧ word.toInt = n := by
  refine ⟨Int64.ofInt n, by rw [signedWord?, if_pos ⟨low, high⟩], ?_⟩
  apply Int64.toInt_ofInt_of_le
  · exact low
  · have top : Int64.maxValue.toInt = 9223372036854775807 := by decide
    omega

theorem word?_of_range {n : Nat} (h : n < UInt64.size) :
    ∃ word, word? n = some word ∧ word.toNat = n := by
  refine ⟨UInt64.ofNat n, ?_, UInt64.toNat_ofNat_of_lt' h⟩
  rw [word?, if_pos ⟨Int.natCast_nonneg n, Int.ofNat_lt.mpr h⟩]
  rfl

theorem word?_of_neg {n : Int} (h : n < 0) : word? n = none :=
  if_neg fun range => absurd range.1 (by omega)

theorem linesBeforeWord_eq (lines : List String) (index : Option UInt64) :
    linesBeforeWord lines index = linesBefore lines (index.map UInt64.toNat) := by
  cases index with
  | none => rfl
  | some index =>
    unfold linesBeforeWord linesBefore
    rw [Option.bind_some, Option.map_some]
    by_cases few : index.toNat < contextLines
    · rw [word?_of_neg (by omega)]
      simp only [if_pos few, Option.elim_none]
    · have bound := index.toNat_lt_size
      obtain ⟨start, found, start_eq⟩ :=
        word?_of_range (n := index.toNat - contextLines) (by omega)
      have difference : ((index.toNat - contextLines : Nat) : Int) =
          (index.toNat : Int) - contextLines := by omega
      rw [← difference, found]
      simp only [if_neg few, Option.elim_some, start_eq]

theorem linesAfterWord?_eq {index : Option UInt64}
    (h : ∀ place ∈ index, place.toNat + 1 < UInt64.size) (lines : List String) :
    linesAfterWord? lines index = some (linesAfter lines (index.map UInt64.toNat)) := by
  cases index with
  | none => rfl
  | some index =>
    obtain ⟨next, found, next_eq⟩ := word?_of_range (h index rfl)
    have sum : ((index.toNat + 1 : Nat) : Int) = (index.toNat : Int) + 1 := by omega
    rw [linesAfterWord?, ← sum, found, Option.map_some, next_eq]
    rfl

/-- No line number but the least word makes the arithmetic of a context go beyond words. -/
theorem contextInWords?_eq {diagnostic : Diagnostic}
    (low : Int64.minValue.toInt < diagnostic.line)
    (high : diagnostic.line ≤ Int64.maxValue.toInt) (mode : ColorMode) (content : String) :
    contextInWords? mode diagnostic content = some (context mode diagnostic content) := by
  have top : Int64.maxValue.toInt = 9223372036854775807 := by decide
  have size : UInt64.size = 18446744073709551616 := rfl
  obtain ⟨number, found, number_eq⟩ := signedWord?_of_range (Int.le_of_lt low) high
  obtain ⟨place, below, place_eq⟩ :=
    signedWord?_of_range (n := number.toInt - 1) (by omega) (by omega)
  have index : (word? place.toInt).map UInt64.toNat = lineIndex diagnostic := by
    by_cases named : 1 ≤ diagnostic.line
    · obtain ⟨index, same, index_eq⟩ :=
        word?_of_range (n := diagnostic.line.toNat - 1) (by omega)
      have whole : place.toInt = ((diagnostic.line.toNat - 1 : Nat) : Int) := by omega
      rw [whole, same, lineIndex_of_pos named, Option.map_some, index_eq]
    · rw [word?_of_neg (by omega), lineIndex, if_neg named]
      rfl
  have room : ∀ index ∈ word? place.toInt, index.toNat + 1 < UInt64.size := by
    intro word member
    have known : lineIndex diagnostic = some word.toNat := by
      rw [← index, member]
      rfl
    unfold lineIndex at known
    split at known
    · have same := Option.some.inj known
      omega
    · cases known
  rw [contextInWords?, found]
  simp only [Option.bind_eq_bind, Option.bind_some, below]
  rw [linesAfterWord?_eq room, index, Option.bind_some, linesBeforeWord_eq, index]
  rfl

/-- What is written about a diagnostic whose content is known: its header and its description, then
a window of the lines of that content with the caret in it, then an empty line. The window holds the
offending line with the four lines before it, if there are so many, and up to four behind it, all
of them as they stand in the content; a line that the content does not have is shown empty. Words
of 64 bits are wide enough for it. -/
theorem context_window {diagnostic : Diagnostic} {sources externs : List Buffer} {content : String}
    (resolved : resolve diagnostic.file sources externs = some content)
    (low : Int64.minValue.toInt < diagnostic.line)
    (high : diagnostic.line ≤ Int64.maxValue.toInt) :
    let lines := splitLines content
    let number := diagnostic.line.toNat
    "\n".intercalate lines = content ∧ (∀ line ∈ lines, '\n' ∉ line.toList) ∧
    ∃ window : List String,
      Sink.whole (writeDiagnostic .never sources externs diagnostic) =
        (header diagnostic :: diagnostic.description :: (window ++ [""])).flatMap
          (fun line => Utf8.encode (line ++ "\n")) ∧
      contextInWords? .never diagnostic content = some window ∧
      (1 ≤ diagnostic.line → diagnostic.line ≤ lines.length →
        ∃ offending, lines[number - 1]? = some offending ∧
          window = leading lines number ++
            [offending, Caret.lead offending diagnostic.column ++ "^"] ++ trailing lines number ∧
          leading lines number ++ [offending] ++ trailing lines number =
            between lines (if 5 ≤ number then number - 4 else number)
              (min (number + 4) lines.length) ∧
          (leading lines number ++ [offending] ++ trailing lines number).length ≤ 9) ∧
      (diagnostic.line < 1 ∨ lines.length < diagnostic.line →
        window = leading lines number ++ ["", "^"]) := by
  intro lines number
  refine ⟨intercalate_splitLines content, fun line => not_mem_of_mem_splitLines,
    context .never diagnostic content, ?_, contextInWords?_eq low high _ _, ?_,
    context_outside⟩
  · rw [whole_writeDiagnostic, block, resolved]
    rw [written, ← List.flatMap_def]
    simp
  · intro first last
    have bound : number - 1 < lines.length := by omega
    have there : lines[number - 1]? = some lines[number - 1] := List.getElem?_eq_getElem bound
    exact ⟨_, there, context_inside first there, leading_trailing (by omega) there,
      length_leading_trailing lines number _⟩

/-- Four lines stand before the fifth one of six, and one behind it. -/
theorem context_window_of_fifth :
    let source : Buffer := ⟨some "a.js", "a\nb\nc\nd\ne\nf"⟩
    let diagnostic : Diagnostic := ⟨.error, "E", "bad", some "b.js", 5, 1⟩
    Sink.whole (writeDiagnostic .never [source] [] diagnostic) =
      ["b.js:5 (E)", "bad", "a", "b", "c", "d", "e", " ^", "f", ""].flatMap
        fun line => Utf8.encode (line ++ "\n") := by
  intro source diagnostic
  have resolved : resolve diagnostic.file [source] [] = some source.content := rfl
  obtain ⟨-, -, window, written, -, inside, -⟩ :=
    context_window resolved (by decide) (by decide)
  have lines : splitLines source.content = ["a", "b", "c", "d", "e", "f"] := by decide +kernel
  rw [lines] at inside
  obtain ⟨offending, there, rfl, -⟩ := inside (by decide) (by decide)
  obtain rfl : "e" = offending := Option.some.inj there
  rw [written]
  decide +kernel

end Report

end CompilerDriver

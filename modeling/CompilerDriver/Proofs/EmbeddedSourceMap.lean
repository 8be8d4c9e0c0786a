import CompilerDriver.Proofs.Base64Decoding
import CompilerDriver.Proofs.ProgramOutcome
import CompilerDriver.Proofs.TruncatedOutput

namespace CompilerDriver

namespace CompiledText

open Utf8

/-- The last line of a text that ends in a line feed. -/
def lastLine (text : Bytes) : Bytes :=
  (text.dropLast.reverse.takeWhile (· ≠ ascii '\n')).reverse

/-- The source map that the last line of a text carries; absent where it carries none. -/
def embeddedSourceMap? (text : Bytes) : Option String := do
  let line ← (decode (lastLine text)).toOption
  let digits ← sourceMapStart.toList.isPrefixOf? line.toList
  let octets ← Base64.decode? digits
  (decode octets).toOption

theorem whole_write (result : CompilationResult) : Sink.whole (write result) = text result :=
  Sink.whole_of_putAllFlushed (write_eq_putAllFlushed result)

/-- Visible characters of the basic set, and the blank. -/
def isPrintable (c : Char) : Bool :=
  0x20 ≤ c.toNat && c.toNat < 0x7F

theorem all_alphabet : Base64.alphabet.all isPrintable = true := by
  decide

theorem all_sourceMapStart : sourceMapStart.toList.all isPrintable = true := by
  decide

/-- A line is the last one when a line feed stands before it and another behind it. -/
theorem lastLine_encode {before line : String} (h : '\n' ∉ line.toList) :
    lastLine (encode (before ++ "\n" ++ line ++ "\n")) = encode line := by
  have feed : encode "\n" = [ascii '\n'] := by decide
  have inside : ∀ b ∈ (encode line).reverse, decide (b ≠ ascii '\n') = true := by
    intro b member
    rw [decide_eq_true_eq]
    rintro rfl
    exact not_mem_octets (by decide) h (List.mem_reverse.mp member)
  rw [encode_append, encode_append, encode_append, feed, lastLine, List.dropLast_concat,
    List.reverse_append, List.reverse_append, List.takeWhile_append_of_pos inside,
    List.reverse_singleton, List.singleton_append, List.takeWhile_cons_of_neg (by simp),
    List.append_nil, List.reverse_reverse]

theorem isPrefixOf?_append (a b : List Char) : a.isPrefixOf? (a ++ b) = some b := by
  induction a with
  | nil => rfl
  | cons c a ih => simp [List.isPrefixOf?, ih]

theorem all_sourceMapComment (sourceMap : String) :
    (sourceMapComment sourceMap).toList.all isPrintable = true := by
  obtain ⟨digits, filling, same, -, each⟩ := Base64.exists_digits (encode sourceMap)
  have digit : digits.all isPrintable = true := List.all_eq_true.mpr fun c member =>
    List.all_eq_true.mp all_alphabet c (each c member)
  have filled : (List.replicate filling '=').all isPrintable = true :=
    List.all_eq_true.mpr fun c member => List.eq_of_mem_replicate member ▸ rfl
  rw [sourceMapComment, String.toList_append, String.toList_ofList, same, List.all_append,
    List.all_append, all_sourceMapStart, digit, filled]
  rfl

theorem feed_not_mem (sourceMap : String) : '\n' ∉ (sourceMapComment sourceMap).toList :=
  fun member => absurd (List.all_eq_true.mp (all_sourceMapComment sourceMap) _ member) (by decide)

/-- A comment gives its source map back, whatever stands on the lines before it. -/
theorem embeddedSourceMap?_comment (before sourceMap : String) :
    embeddedSourceMap? (encode (before ++ "\n" ++ sourceMapComment sourceMap ++ "\n")) =
      some sourceMap := by
  rw [embeddedSourceMap?, lastLine_encode (feed_not_mem sourceMap), decode_encode]
  simp [sourceMapComment, isPrefixOf?_append, Base64.decode?_encode, decode_encode,
    Except.toOption]

theorem sourceMapComment_injective : Function.Injective sourceMapComment := by
  intro a b same
  have back := embeddedSourceMap?_comment "" a
  rw [same, embeddedSourceMap?_comment] at back
  exact (Option.some.inj back).symm

/-- With a source map the text that is written is the code on lines of its own and one more line,
which begins with the words of a comment and goes on with digits, filled up to a multiple of four,
that stand for the octets of the source map. Two source maps never give the same line, and the
line by itself gives the source map back, whatever the code is. -/
theorem source_map_on_last_line :
    (∀ (result : CompilationResult) (sourceMap : String), result.sourceMap = some sourceMap →
      sourceMap ≠ "" → ∃ (digits : List Char) (filling : Nat),
        let coded := digits ++ List.replicate filling '='
        let line := sourceMapStart ++ String.ofList coded
        Sink.whole (write result) = encode (result.code ++ "\n" ++ line ++ "\n") ∧
          line.toList.all isPrintable = true ∧ (∀ c ∈ digits, c ∈ Base64.alphabet) ∧
          filling ≤ 2 ∧ 4 ∣ coded.length ∧ Base64.decode? coded = some (encode sourceMap) ∧
          lastLine (Sink.whole (write result)) = encode line ∧
          embeddedSourceMap? (Sink.whole (write result)) = some sourceMap) ∧
    Function.Injective sourceMapComment := by
  refine ⟨fun result sourceMap h nonempty => ?_, sourceMapComment_injective⟩
  obtain ⟨digits, filling, encoded, few, each⟩ := Base64.exists_digits (encode sourceMap)
  refine ⟨digits, filling, ?_⟩
  intro coded line
  have same : coded = Base64.encode (encode sourceMap) := encoded.symm
  have comment : line = sourceMapComment sourceMap := by rw [sourceMapComment, ← same]
  have written : Sink.whole (write result) =
      encode (result.code ++ "\n" ++ sourceMapComment sourceMap ++ "\n") := by
    rw [whole_write, text_eq, h, trailer, if_neg nonempty]
    simp only [String.append_assoc]
  rw [comment, written]
  refine ⟨rfl, all_sourceMapComment sourceMap, each, few, ?_, ?_,
    lastLine_encode (feed_not_mem sourceMap), embeddedSourceMap?_comment result.code sourceMap⟩
  · rw [same, Base64.length_encode]
    exact Nat.dvd_mul_right 4 _
  · rw [same, Base64.decode?_encode]

/-- The code may end in a comment of the same kind. -/
theorem source_map_behind_comment :
    let code := "var x;\n" ++ sourceMapComment "other" ++ "\n"
    let result : CompilationResult := ⟨code, some "\x7b\x7d", [], []⟩
    sourceMapComment "\x7b\x7d" = "//# sourceMappingURL=data:application/json;base64,e30=" ∧
      embeddedSourceMap? (Sink.whole (write result)) = some "\x7b\x7d" := by
  intro code result
  obtain ⟨digits, filling, -, -, -, -, -, -, -, embedded⟩ :=
    source_map_on_last_line.1 result "\x7b\x7d" rfl (by decide)
  refine ⟨?_, embedded⟩
  decide +kernel

end CompiledText

end CompilerDriver

import CompilerDriver.Proofs.DefinePrecedence
import CompilerDriver.Proofs.NumeralText
import Mathlib.Data.List.TakeWhile

namespace CompilerDriver

theorem Double.text_ne {word : String} (h : ofString? word = none) (x : Double) :
    x.text ≠ word := by
  rintro rfl
  rw [ofString?_text] at h
  cases h

namespace DefineValue

theorem classify_text (x : Double) : classify x.text = .number x := by
  have apart : x.text ≠ "true" ∧ x.text ≠ "false" :=
    ⟨Double.text_ne (by decide) x, Double.text_ne (by decide) x⟩
  rw [classify, if_neg apart.1, if_neg apart.2, Double.ofString?_text]

/-- A value that a text writes is written by what the command line shows of it. -/
theorem classify_shown (raw : String) : classify (classify raw).shown = classify raw := by
  by_cases yes : raw = "true"
  · subst yes
    rfl
  by_cases no : raw = "false"
  · subst no
    rfl
  cases read : Double.ofString? raw with
  | some x =>
    have number : classify raw = .number x := by rw [classify, if_neg yes, if_neg no, read]
    rw [number]
    exact classify_text x
  | none =>
    have plain : classify raw = .text raw := by rw [classify, if_neg yes, if_neg no, read]
    rw [plain]
    exact plain

end DefineValue

/-- An entry can give this value to this name: the name ends before the first equals sign, and the
value is what its text writes. -/
def Writable (entry : String × DefineValue) : Prop :=
  '=' ∉ entry.1.toList ∧ DefineValue.classify entry.2.shown = entry.2

theorem writable_parseDefine {entry : String} (h : (parseDefine entry).2 ≠ .undefined) :
    Writable (parseDefine entry) := by
  cases rest : entry.toList.dropWhile (· != '=') with
  | nil =>
    have bare : parseDefine entry = (entry, .undefined) := by
      rw [parseDefine, List.span_eq_takeWhile_dropWhile, rest]
    exact absurd (congrArg Prod.snd bare) h
  | cons sign raw =>
    have split : parseDefine entry = (String.ofList (entry.toList.takeWhile (· != '=')),
        .classify (String.ofList raw)) := by
      rw [parseDefine, List.span_eq_takeWhile_dropWhile, rest]
    rw [split]
    refine ⟨fun inside => ?_, DefineValue.classify_shown _⟩
    rw [String.toList_ofList] at inside
    simpa using List.mem_takeWhile_imp inside

theorem parseDefine_defineText {entry : String × DefineValue} (h : Writable entry) :
    parseDefine (Invocation.defineText entry) = entry := by
  have before : ∀ c ∈ entry.1.toList, (c != '=') = true := by
    intro c inside
    rw [bne_iff_ne]
    rintro rfl
    exact h.1 inside
  have chars : (Invocation.defineText entry).toList =
      entry.1.toList ++ '=' :: entry.2.shown.toList := by
    simp [Invocation.defineText]
  have front : (entry.1.toList ++ '=' :: entry.2.shown.toList).span (· != '=') =
      (entry.1.toList, '=' :: entry.2.shown.toList) := by
    rw [List.span_eq_takeWhile_dropWhile, List.takeWhile_append_of_pos before,
      List.dropWhile_append_of_pos before]
    simp
  rw [parseDefine, chars, front]
  simp only [String.ofList_toList, h.2]

namespace Defines

theorem writable_of_mem_valued {entries : List String} {entry : String × DefineValue}
    (h : entry ∈ (parse entries).valued.entries) : Writable entry := by
  obtain ⟨name, value⟩ := entry
  obtain ⟨found, some⟩ := (mem_valued_iff _ name value).mp h
  rw [LooseDefines.get?_parse] at found
  obtain ⟨later, earlier, entries_eq, _⟩ := List.lookup_eq_some_iff.mp found
  have member : (name, value) ∈ entries.map parseDefine := by
    rw [← List.mem_reverse, entries_eq]
    simp
  obtain ⟨text, _, parsed⟩ := List.mem_map.mp member
  rw [← parsed]
  exact writable_parseDefine (by rwa [parsed])

theorem parse_defineText (entries : List String) :
    parse ((parse entries).valued.entries.map Invocation.defineText) = (parse entries).valued := by
  have each : ∀ entry ∈ (parse entries).valued.entries,
      (parseDefine ∘ Invocation.defineText) entry = entry :=
    fun entry member => parseDefine_defineText (writable_of_mem_valued member)
  rw [parse, List.map_map, List.map_congr_left each, List.map_id'', ofList_entries]
  exact fun _ => rfl

end Defines

/-- What the compiler is given of constants is read back as the constants that have a value, and a
value alone as itself. -/
theorem Invocation.arguments_parse_back (invocation : Invocation) (externFiles : List Path)
    (entries : List String) :
    Defines.parse (valuesOf "--define="
        ({ invocation with defines := .parse entries }.arguments externFiles)) =
      (Defines.parse entries).valued ∧
    ∀ raw, DefineValue.classify (DefineValue.classify raw).shown = DefineValue.classify raw := by
  refine ⟨?_, DefineValue.classify_shown⟩
  rw [Invocation.valuesOf_define]
  exact Defines.parse_defineText entries

end CompilerDriver

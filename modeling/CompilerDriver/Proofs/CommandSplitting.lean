import CompilerDriver.CompilerProcess
import CompilerDriver.Proofs.Utf8Text
import Mathlib.Data.List.TakeWhile

namespace CompilerDriver

namespace Blank

/-- A run of blanks, or nothing. -/
def Gap (text : List Char) : Prop :=
  ∀ c ∈ text, isBlank c = true

/-- What can be told from the blanks around it. -/
def IsWord (word : String) : Prop :=
  word ≠ "" ∧ ∀ c ∈ word.toList, isBlank c = false

instance (text : List Char) : Decidable (Gap text) :=
  decidable_of_iff (text.all isBlank = true) List.all_eq_true

instance (word : String) : Decidable (IsWord word) :=
  decidable_of_iff (word ≠ "" ∧ word.toList.all (fun c => !isBlank c) = true) (by simp [IsWord])

/-- Words with a run of blanks between each two of them. -/
inductive Joined : List String → List Char → Prop
  | one (word : String) : Joined [word] word.toList
  | cons (word : String) {gap text : List Char} {words : List String} (hg : Gap gap)
      (apart : gap ≠ []) (tail : Joined words text) :
      Joined (word :: words) (word.toList ++ gap ++ text)

theorem words_ofList (text : List Char) :
    words (String.ofList text) =
      ((text.splitOnP isBlank).filter fun word => !word.isEmpty).map String.ofList := by
  rw [words, String.toList_ofList]

/-- A blank divides the words before it from those behind it. -/
theorem words_cut {c : Char} (h : isBlank c = true) (before after : List Char) :
    words (String.ofList (before ++ c :: after)) =
      words (String.ofList before) ++ words (String.ofList after) := by
  simp only [words_ofList, List.splitOnP_append_cons before after h, List.filter_append,
    List.map_append]

theorem words_nil : words (String.ofList []) = [] := by
  rw [words_ofList, List.splitOnP_nil]
  rfl

theorem words_gap_append {gap : List Char} (h : Gap gap) (text : List Char) :
    words (String.ofList (gap ++ text)) = words (String.ofList text) := by
  induction gap with
  | nil => rfl
  | cons c gap ih =>
    have front := words_cut (h c List.mem_cons_self) [] (gap ++ text)
    rw [words_nil, List.nil_append, List.nil_append] at front
    rw [List.cons_append, front]
    exact ih fun d hd => h d (List.mem_cons_of_mem c hd)

theorem words_gap {gap : List Char} (h : Gap gap) : words (String.ofList gap) = [] := by
  have all := words_gap_append h []
  rwa [List.append_nil, words_nil] at all

theorem words_append_gap {gap : List Char} (h : Gap gap) (text : List Char) :
    words (String.ofList (text ++ gap)) = words (String.ofList text) := by
  cases gap with
  | nil => rw [List.append_nil]
  | cons c gap =>
    have none := words_gap fun d hd => h d (List.mem_cons_of_mem c hd)
    rw [words_cut (h c List.mem_cons_self), none, List.append_nil]

/-- A run of blanks between two texts divides their words. -/
theorem words_apart {gap : List Char} (h : Gap gap) (apart : gap ≠ [])
    (before after : List Char) :
    words (String.ofList (before ++ gap ++ after)) =
      words (String.ofList before) ++ words (String.ofList after) := by
  obtain ⟨c, gap, rfl⟩ := List.exists_cons_of_ne_nil apart
  have later : Gap gap := fun d hd => h d (List.mem_cons_of_mem c hd)
  rw [List.append_assoc, List.cons_append, words_cut (h c List.mem_cons_self),
    words_gap_append later]

theorem words_word {word : String} (h : IsWord word) :
    words (String.ofList word.toList) = [word] := by
  have some : word.toList.isEmpty = false := by
    rw [List.isEmpty_eq_false_iff]
    exact fun empty => h.1 (String.toList_injective empty)
  rw [words_ofList, List.splitOnP_eq_singleton h.2,
    List.filter_cons_of_pos (by rw [some]; rfl), List.filter_nil, List.map_singleton,
    String.ofList_toList]

/-- Splitting gives the words that were joined, by induction on how they were. -/
theorem words_joined {list : List String} {text : List Char} (h : Joined list text)
    (each : ∀ word ∈ list, IsWord word) : words (String.ofList text) = list := by
  induction h with
  | one word => exact words_word (each word List.mem_cons_self)
  | @cons word gap text list hg apart tail ih =>
    have first := words_word (each word List.mem_cons_self)
    have others := ih fun other ho => each other (List.mem_cons_of_mem word ho)
    rw [words_apart hg apart, first, others]
    rfl

/-- What is not blank belongs to a word. -/
theorem words_ne_nil {c : Char} (h : isBlank c = false) (text : List Char) :
    words (String.ofList (c :: text)) ≠ [] := by
  obtain ⟨first, others, split⟩ :=
    List.exists_cons_of_ne_nil (List.splitOnP_ne_nil isBlank text)
  rw [words_ofList, List.splitOnP_cons_eq_if_modifyHead, h, split]
  simp

theorem gap_of_words {text : List Char} (h : words (String.ofList text) = []) : Gap text := by
  induction text with
  | nil =>
    intro c hc
    cases hc
  | cons c text ih =>
    cases blank : isBlank c with
    | false => exact absurd h (words_ne_nil blank text)
    | true =>
      have front : Gap [c] := fun d hd => List.mem_singleton.mp hd ▸ blank
      have later := ih ((words_gap_append front text).symm.trans h)
      intro d hd
      rcases List.mem_cons.mp hd with rfl | hd
      · exact blank
      · exact later d hd

theorem trim_of_gap {text : String} (h : Gap text.toList) : trim text = "" := by
  have all : text.toList.dropWhile isBlank = [] := List.dropWhile_eq_nil_iff.mpr h
  rw [trim, all]
  rfl

/-- Only blanks are trimmed away to nothing. -/
theorem gap_of_trim {text : String} (h : trim text = "") : Gap text.toList := by
  have none := String.ofList_eq_empty_iff.mp h
  rw [List.reverse_eq_nil_iff, List.dropWhile_eq_nil_iff] at none
  intro c hc
  rw [← List.takeWhile_append_dropWhile (p := isBlank) (l := text.toList)] at hc
  rcases List.mem_append.mp hc with front | back
  · exact List.mem_takeWhile_imp front
  · exact none c (List.mem_reverse.mpr back)

/-- Trimming and splitting agree on what is blank. -/
theorem trim_eq_empty_iff (text : String) : trim text = "" ↔ words text = [] := by
  have same : words (String.ofList text.toList) = words text := by rw [String.ofList_toList]
  rw [← same]
  exact ⟨fun trimmed => words_gap (gap_of_trim trimmed),
    fun none => trim_of_gap (gap_of_words none)⟩

end Blank

namespace CompilerCommand

open Blank

theorem ofLine_of_gap {line : String} (h : Gap line.toList) : ofLine line = usual := by
  have none := words_gap h
  rw [String.ofList_toList] at none
  rw [ofLine, none]
  rfl

/-- A value of the environment counts as none just where splitting it leaves no word. -/
theorem ofEnvironment_encode (line : String) :
    ofEnvironment (some (Utf8.encode line)) = ofLine line := by
  simp only [ofEnvironment, Utf8.decode_encode]
  split
  next trimmed => rw [ofLine_of_gap (gap_of_trim trimmed)]
  next => rfl

/-- Splitting a command line undoes joining it, whatever blanks stand between the words and around
them; a line of blanks names the usual command, from the environment as elsewhere. -/
theorem ofLine_undoes_joining :
    (∀ (program : String) (leading : List String) (before line after : List Char),
      (∀ word ∈ program :: leading, IsWord word) → Joined (program :: leading) line →
      Gap before → Gap after →
        ofLine (String.ofList (before ++ line ++ after)) = ofWords (program :: leading) ∧
        ofLine (String.ofList (before ++ line ++ after)) = ⟨program, leading⟩) ∧
      (∀ line : String, Gap line.toList → ofLine line = usual) ∧
        ∀ line : String, ofEnvironment (some (Utf8.encode line)) = ofLine line ∧
          (trim line = "" ↔ words line = []) := by
  refine ⟨fun program leading before line after each joined hb ha => ?_,
    fun line => ofLine_of_gap, fun line => ⟨ofEnvironment_encode line, trim_eq_empty_iff line⟩⟩
  have split : words (String.ofList (before ++ line ++ after)) = program :: leading := by
    rw [words_append_gap ha, words_gap_append hb, words_joined joined each]
  exact ⟨congrArg ofWords split, congrArg ofWords split⟩

/-- Three words between blanks of several kinds, and a line of nothing else. -/
theorem ofLine_undoes_wide_blanks :
    ((∀ word ∈ ["java", "-jar", "compiler.jar"], IsWord word) ∧
      Joined ["java", "-jar", "compiler.jar"] "java\u2003-jar \tcompiler.jar".toList ∧
      Gap ['\n'] ∧ Gap ['\u3000', ' ']) ∧
      ofLine "\njava\u2003-jar \tcompiler.jar\u3000 " = ⟨"java", ["-jar", "compiler.jar"]⟩ ∧
        ofLine "\u3000 " = usual := by
  have each : ∀ word ∈ ["java", "-jar", "compiler.jar"], IsWord word := by decide
  have wide : Gap ['\u2003'] := by decide
  have two : Gap [' ', '\t'] := by decide
  have joined : Joined ["java", "-jar", "compiler.jar"] "java\u2003-jar \tcompiler.jar".toList :=
    .cons "java" wide (by decide) (.cons "-jar" two (by decide) (.one "compiler.jar"))
  have before : Gap ['\n'] := by decide
  have after : Gap ['\u3000', ' '] := by decide
  obtain ⟨splits, blank, _⟩ := ofLine_undoes_joining
  exact ⟨⟨each, joined, before, after⟩, (splits _ _ _ _ _ each joined before after).2,
    blank "\u3000 " after⟩

end CompilerCommand

end CompilerDriver

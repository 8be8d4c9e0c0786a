import CompilerDriver.Proofs.CompilerOutcome
import CompilerDriver.Proofs.SettledReaders
import CompilerDriver.Proofs.SteadyRecords
import Mathlib.Data.List.Induction
import Mathlib.Data.List.Nodup
import Mathlib.Data.List.TakeWhile

namespace CompilerDriver

open JsonGrammar Utf8 JsonReader

namespace OutputRecord

/-- What the members under some keys say: one of them at most, and a default without any. -/
inductive Said {β : Type} (keys : List String) (spells : β → List Char → Prop) (absent : β)
    (members : List (String × List Char)) : β → Prop
  | absent (h : ∀ member ∈ members, member.1 ∉ keys) : Said keys spells absent members absent
  | once {key : String} {text : List Char} {b : β}
      (only : members.filter (·.1 ∈ keys) = [(key, text)]) (h : spells b text) :
      Said keys spells absent members b

/-- A record as the text of an object, its source map under either key. Members under other keys
do not matter. -/
inductive Spells : OutputRecord → List Char → Prop
  | object {record : OutputRecord} {members : List (String × List Char)} {text : List Char}
      (h : Object members text) (src : Said ["src"] Quoted "" members record.src)
      (sourceMap : Said ["source_map", "sourceMap"] (Nullable Quoted) none members
        record.sourceMap) : Spells record text

/-- A member that a record can have: a code that is a string, a source map that is one or
`null`, or anything under another key. -/
structure Fits (member : String × List Char) : Prop where
  src : member.1 = "src" → ∃ s, Quoted s member.2
  sourceMap : member.1 = "source_map" ∨ member.1 = "sourceMap" →
    ∃ sourceMap, Nullable Quoted sourceMap member.2

/-- The last source map of some records that is not empty. -/
inductive LastMap : List OutputRecord → Option String → Prop
  | none {records : List OutputRecord}
      (h : ∀ record ∈ records, ∀ sourceMap ∈ record.sourceMap, sourceMap = "") :
      LastMap records none
  | some {earlier later : List OutputRecord} {record : OutputRecord} {sourceMap : String}
      (h : record.sourceMap = some sourceMap) (nonempty : sourceMap ≠ "")
      (last : ∀ record ∈ later, ∀ sourceMap ∈ record.sourceMap, sourceMap = "") :
      LastMap (earlier ++ record :: later) (some sourceMap)

/-- The codes of some records behind each other, less the line ends that they end with. -/
inductive Trimmed (records : List OutputRecord) : String → Prop
  | trimmed {code ends : String} (h : String.join (records.map OutputRecord.src) = code ++ ends)
      (lineEnds : ∀ c ∈ ends.toList, c = '\n' ∨ c = '\r')
      (kept : ∀ c ∈ code.toList.getLast?, c ≠ '\n' ∧ c ≠ '\r') : Trimmed records code

/-- An output that cannot be read. It makes the compilation fail even where the compiler says that
it succeeded. -/
def Malformed (stdout : Bytes) : Prop :=
  ∃ cause, readOutput stdout = .error cause ∧ ∀ host invocation stderr,
    CompilerCommand.outcome host invocation ⟨.code 0, stdout, stderr⟩ = .error (.protocol cause)

theorem Said.few {β : Type} {keys : List String} {spells : β → List Char → Prop} {absent b : β}
    {members : List (String × List Char)} (h : Said keys spells absent members b) :
    (members.filter (·.1 ∈ keys)).length ≤ 1 := by
  cases h with
  | absent h =>
    have none : members.filter (·.1 ∈ keys) = [] :=
      List.filter_eq_nil_iff.mpr fun member hm => by simpa using h member hm
    rw [none]
    exact Nat.zero_le 1
  | once only h =>
    rw [only]
    exact Nat.le_refl 1

/-- What the members under the keys of a field say is what the members of the field say. -/
theorem Said.tells {β : Type} {keys : List String} {spells : β → List Char → Prop} {absent b : β}
    {members : List (String × List Char)} (h : Said keys spells absent members b) {name : String}
    (named : ∀ key, form.nameOf key = name ↔ key ∈ keys) :
    form.Tells members name spells absent b := by
  cases h with
  | absent h =>
    exact ⟨fun member hm found => absurd ((named member.1).mp found) (h member hm), fun _ => rfl⟩
  | @once key text b only h =>
    have listed : (key, text) ∈ members.filter (·.1 ∈ keys) := only ▸ List.mem_singleton_self _
    obtain ⟨hm, known⟩ := List.mem_filter.mp listed
    constructor
    · intro member hm found
      have same : member ∈ members.filter (·.1 ∈ keys) :=
        List.mem_filter.mpr ⟨hm, decide_eq_true ((named member.1).mp found)⟩
      rw [only, List.mem_singleton] at same
      exact same ▸ h
    · intro missing
      have found : form.nameOf key = name := (named key).mpr (of_decide_eq_true known)
      exact absurd (List.mem_map.mpr ⟨(key, text), hm, found⟩) missing

theorem field?_name (key : String) :
    (form.field? key).map JsonField.name =
      if key = "src" then some "src"
      else if key ∈ ["source_map", "sourceMap"] then some "source_map" else none := by
  by_cases src : key = "src"
  · subst src
    rfl
  by_cases snake : key = "source_map"
  · subst snake
    rfl
  by_cases camel : key = "sourceMap"
  · subst camel
    rfl
  simp [JsonRecord.field?, form, JsonField.required, JsonField.optional, Ne.symm src,
    Ne.symm snake, src, snake, camel]

theorem nameOf_eq_src (key : String) : form.nameOf key = "src" ↔ key ∈ ["src"] := by
  rw [JsonRecord.nameOf, field?_name]
  by_cases src : key = "src"
  · simp [src]
  · rw [if_neg src]
    split <;> simp [src]

theorem nameOf_eq_sourceMap (key : String) :
    form.nameOf key = "source_map" ↔ key ∈ ["source_map", "sourceMap"] := by
  rw [JsonRecord.nameOf, field?_name]
  by_cases src : key = "src"
  · simp [src]
  · rw [if_neg src]
    split
    next named => exact iff_of_true rfl named
    next other => exact iff_of_false (fun same => other (by simp [show key = _ from same])) other

/-- No field is seen twice, though other keys may repeat. -/
theorem once {members : List (String × List Char)} {record : OutputRecord}
    (src : Said ["src"] Quoted "" members record.src)
    (sourceMap : Said ["source_map", "sourceMap"] (Nullable Quoted) none members
      record.sourceMap) : (form.gathered members []).Nodup := by
  rw [JsonRecord.gathered_eq, List.append_nil, List.nodup_reverse, List.nodup_iff_count_le_one]
  intro name
  have count {keys : List String} (few : (members.filter (·.1 ∈ keys)).length ≤ 1)
      (named : ∀ key, (form.field? key).map JsonField.name = some name → key ∈ keys) :
      (members.filterMap fun member => (form.field? member.1).map JsonField.name).count name ≤
        1 := by
    rw [List.count_filterMap]
    rw [← List.countP_eq_length_filter] at few
    refine Nat.le_trans (List.countP_mono_left fun member _ found => ?_) few
    exact decide_eq_true (named member.1 (eq_of_beq found))
  by_cases isSrc : name = "src"
  · refine count src.few fun key found => ?_
    rw [field?_name] at found
    split at found <;> simp_all
  · refine count sourceMap.few fun key found => ?_
    rw [field?_name] at found
    split at found
    · exact absurd (Option.some.inj found).symm isSrc
    · split at found
      next named => exact named
      · cases found

/-- A record of which only the members of some names are known. -/
def held (record : OutputRecord) (seen : List String) : OutputRecord where
  src := if "src" ∈ seen then record.src else ""
  sourceMap := if "source_map" ∈ seen then record.sourceMap else none

theorem form_takes (record : OutputRecord) (text : List Char) (h : Spells record text) :
    Takes form.read text record ∧ BeginsApart (ascii ']') text := by
  obtain @⟨members, _, object, src, sourceMap⟩ := h
  have srcTells := src.tells nameOf_eq_src
  have mapTells := sourceMap.tells nameOf_eq_sourceMap
  have absorbs : ∀ member ∈ members, form.Absorbs (held record) member := by
    intro ⟨key, text⟩ hm
    have quoted (s : String) (text : List Char) (h : Quoted s text) := (quoted_takes s text h).1
    have quotedOrNull (s : Option String) (text : List Char) (h : Nullable Quoted s text) :=
      nullable_takes h quoted_takes
    by_cases src : key = "src"
    · subst src
      exact srcTells.absorbs hm rfl rfl rfl (quoted _) (by simp [held])
    by_cases snake : key = "source_map"
    · subst snake
      exact mapTells.absorbs hm rfl rfl rfl (quotedOrNull _) (by simp [held])
    by_cases camel : key = "sourceMap"
    · subst camel
      exact mapTells.absorbs hm rfl rfl rfl (quotedOrNull _) (by simp [held])
    · have unknown := field?_name key
      rw [if_neg src, if_neg (by simp [snake, camel]), Option.map_eq_none_iff] at unknown
      exact .unknown unknown
  have whole : held record (form.gathered members []) = record := by
    rw [held, srcTells.kept rfl, mapTells.kept rfl]
  exact JsonRecord.object_takes object absorbs (once src sourceMap) rfl rfl whole

/-- A record is read to its end or refused, and refused for a member that does not fit. -/
theorem form_settles {members : List (String × List Char)} {text : List Char}
    (h : Object members text) :
    Settles form.read text (∀ member ∈ members, Fits member) ∧ BeginsApart (ascii ']') text := by
  let fit (field : JsonField OutputRecord) (text : List Char) : Prop :=
    (field.name = "src" → ∃ s, Quoted s text) ∧
      (field.name = "source_map" → ∃ sourceMap, Nullable Quoted sourceMap text)
  have settles : ∀ field ∈ form.fields, ∀ text, WellFormed .value text →
      Settles field.read text (fit field text) := by
    intro field hf text value
    obtain rfl | rfl : field = _ ∨ field = _ := by simpa [form] using hf
    · have settled := (string_settles value).map fun src (record : OutputRecord) =>
        { record with src }
      exact settled.imp fun spelled => ⟨fun _ => spelled, fun same => absurd same (by decide)⟩
    · have settled := (nullable_string_settles value).map fun sourceMap (record : OutputRecord) =>
        { record with sourceMap }
      exact settled.imp fun spelled => ⟨fun same => absurd same (by decide), fun _ => spelled⟩
  obtain ⟨settled, begins⟩ := JsonRecord.object_settles h settles
  refine ⟨settled.imp fun fits member hm => ?_, begins⟩
  constructor
  · intro src
    have named : (form.field? member.1).map JsonField.name = some "src" := by
      rw [field?_name, if_pos src]
    obtain ⟨field, found, named⟩ := Option.map_eq_some_iff.mp named
    exact (fits member hm field found).1 named
  · intro isMap
    have noSrc : member.1 ≠ "src" := by
      rintro same
      simp [same] at isMap
    have named : (form.field? member.1).map JsonField.name = some "source_map" := by
      rw [field?_name, if_neg noSrc, if_pos (by simpa using isMap)]
    obtain ⟨field, found, named⟩ := Option.map_eq_some_iff.mp named
    exact (fits member hm field found).2 named

theorem trimmed_joined (records : List OutputRecord) : Trimmed records (joined records) := by
  let lineEnd (c : Char) : Bool := c = '\n' || c = '\r'
  let text := (String.join (records.map OutputRecord.src)).toList
  let ends := String.ofList (text.reverse.takeWhile lineEnd).reverse
  have parts : text = (text.reverse.dropWhile lineEnd).reverse ++
      (text.reverse.takeWhile lineEnd).reverse := by
    rw [← List.reverse_append, List.takeWhile_append_dropWhile, List.reverse_reverse]
  have whole : String.join (records.map OutputRecord.src) = joined records ++ ends := by
    rw [joined, trimLineEnds, ← String.ofList_append]
    exact String.toList_injective (by rw [String.toList_ofList]; exact parts)
  refine .trimmed whole ?_ ?_
  · intro c hc
    rw [String.toList_ofList, List.mem_reverse] at hc
    simpa [lineEnd] using List.mem_takeWhile_imp hc
  · intro c hc
    rw [joined, trimLineEnds, String.toList_ofList, List.getLast?_reverse] at hc
    have not := List.head?_dropWhile_not lineEnd text.reverse
    rw [Option.mem_def.mp hc] at not
    simpa [lineEnd] using not

theorem LastMap.concat {records : List OutputRecord} {sourceMap : Option String}
    (h : LastMap records sourceMap) {record : OutputRecord}
    (empty : ∀ sourceMap ∈ record.sourceMap, sourceMap = "") :
    LastMap (records ++ [record]) sourceMap := by
  cases h with
  | none h => exact .none (List.forall_mem_append.mpr ⟨h, List.forall_mem_singleton.mpr empty⟩)
  | @some earlier later other sourceMap h nonempty last =>
    rw [List.append_assoc, List.cons_append]
    exact .some h nonempty
      (List.forall_mem_append.mpr ⟨last, List.forall_mem_singleton.mpr empty⟩)

theorem lastSourceMap_concat (records : List OutputRecord) (record : OutputRecord) :
    lastSourceMap (records ++ [record]) =
      (record.sourceMap.filter (· ≠ "")).or (lastSourceMap records) := by
  rw [lastSourceMap, List.filterMap_append, List.filter_append, List.getLast?_append]
  congr 1
  cases h : record.sourceMap with
  | none => simp [h]
  | some sourceMap => by_cases empty : sourceMap = "" <;> simp [h, empty, Option.filter]

theorem lastMap_lastSourceMap (records : List OutputRecord) :
    LastMap records (lastSourceMap records) := by
  induction records using List.reverseRecOn with
  | nil => exact .none (by simp)
  | append_singleton records record ih =>
    rw [lastSourceMap_concat]
    cases found : record.sourceMap.filter (· ≠ "") with
    | none =>
      refine ih.concat fun sourceMap hm => ?_
      simpa using Option.filter_eq_none_iff.mp found sourceMap hm
    | some sourceMap =>
      obtain ⟨kept, nonempty⟩ := Option.filter_eq_some_iff.mp found
      exact .some kept (by simpa using nonempty) (by simp)

end OutputRecord

namespace JsonReader

variable {α : Type}

theorem document_eq_ok_iff {value : JsonReader α} {bytes : Bytes} {a : α} :
    document value bytes = .ok a ↔
      ∃ rest, value bytes = .ok (a, rest) ∧ ∀ b ∈ rest, isSpace b = true := by
  unfold document front whole
  cases read : value bytes with
  | error fault => simp
  | ok found =>
    obtain ⟨b, rest⟩ := found
    cases shown : rest.dropWhile isSpace with
    | nil =>
      have blank := List.dropWhile_eq_nil_iff.mp shown
      simp only [shown, Except.ok.injEq, Prod.mk.injEq]
      constructor
      · rintro rfl
        exact ⟨rest, ⟨rfl, rfl⟩, blank⟩
      · rintro ⟨_, ⟨rfl, _⟩, _⟩
        rfl
    | cons c tail =>
      simp only [shown, reduceCtorEq, Except.ok.injEq, Prod.mk.injEq, false_iff]
      rintro ⟨_, ⟨_, rfl⟩, blank⟩
      rw [List.dropWhile_eq_nil_iff.mpr blank] at shown
      cases shown

end JsonReader

namespace OutputRecord

theorem malformed_of_not_printed {stdout : Bytes}
    (h : ∀ code sourceMap, ¬Printed stdout code sourceMap) : Malformed stdout := by
  cases read : readOutput stdout with
  | ok found => exact absurd (readOutput_eq_ok_iff.mp read) (h found.1 found.2)
  | error cause =>
    refine ⟨cause, read, fun host invocation stderr => ?_⟩
    simp [CompilerCommand.outcome, ExitStatus.success, read]

/-- Output with a bracket has to be a list of records, and nothing but white space behind it. -/
theorem malformed_of_not_read {stdout : Bytes} (opened : ascii '[' ∈ stdout)
    (h : ∀ pieces rest, list form.read stdout = .ok (pieces, rest) →
      ∃ b ∈ rest, isSpace b = false) : Malformed stdout := by
  refine malformed_of_not_printed fun code sourceMap printed => ?_
  cases printed with
  | blank blank => exact absurd (blank _ opened) (Bool.eq_false_iff.mp isAsciiBlank_bracket)
  | @records pieces read =>
    obtain ⟨rest, read, blank⟩ := document_eq_ok_iff.mp read
    obtain ⟨b, hb, visible⟩ := h pieces rest read
    exact absurd (blank b hb) (Bool.eq_false_iff.mp visible)

theorem form_closed : Closed form.read :=
  JsonRecord.read_closed fun field hf => by
    obtain rfl | rfl : field = _ ∨ field = _ := by simpa [form] using hf
    · exact string_closed.steady.map _
    · exact (nullable_steady string_closed.steady).map _

section refusal

variable {records : List (List (String × List Char))} {before text : List Char}

theorem records_settle (hb : Gap before) (h : Listed Object records text) (rest : Bytes) :
    (∃ fault, list form.read (octets before ++ (octets text ++ rest)) = .error fault) ∨
      (∀ members ∈ records, ∀ member ∈ members, Fits member) ∧
        ∃ pieces, list form.read (octets before ++ (octets text ++ rest)) = .ok (pieces, rest) :=
  list_settles hb h (fun _ _ _ object => form_settles object) rest

theorem bracket_mem (h : Listed Object records text) {cut : Bytes} (shorter : cut <+: octets text)
    (nonempty : cut ≠ []) : ascii '[' ∈ cut := by
  obtain ⟨_⟩ := h
  obtain ⟨b, cut, rfl⟩ := List.exists_cons_of_ne_nil nonempty
  rw [octets_ascii (by decide), List.cons_prefix_cons] at shorter
  rw [shorter.1]
  exact List.mem_cons_self

/-- Records of which the last octet is missing, or more, are malformed: what was read of them would
have been read of the whole of them, which leaves nothing unread. -/
theorem malformed_of_cut (hb : Gap before) (h : Listed Object records text) {cut : Bytes}
    (shorter : cut <+: octets text) (nonempty : cut ≠ []) (proper : cut ≠ octets text) :
    Malformed (octets before ++ cut) := by
  refine malformed_of_not_read
    (List.mem_append_right _ (bracket_mem h shorter nonempty)) fun pieces rest read => ?_
  obtain ⟨missing, whole⟩ := shorter
  have longer := (list_closed form_closed).append _ _ _ read missing
  rw [List.append_assoc, whole] at longer
  obtain ⟨fault, failed⟩ | ⟨_, others, done⟩ := records_settle hb h []
  · rw [List.append_nil, longer] at failed
    cases failed
  · rw [List.append_nil, longer, Except.ok.injEq, Prod.mk.injEq, List.append_eq_nil_iff] at done
    rw [done.2.2, List.append_nil] at whole
    exact absurd whole proper

/-- Whole records are read only where all their members fit, and then up to their bracket. -/
theorem malformed_of_whole (hb : Gap before) (h : Listed Object records text) {rest : Bytes}
    (trailing : (∀ members ∈ records, ∀ member ∈ members, Fits member) →
      ∃ b ∈ rest, isSpace b = false) : Malformed (octets before ++ (octets text ++ rest)) := by
  have opened : ascii '[' ∈ octets text := by
    obtain ⟨_⟩ := h
    rw [octets_ascii (by decide)]
    exact List.mem_cons_self
  refine malformed_of_not_read
    (List.mem_append_right _ (List.mem_append_left _ opened)) fun pieces after read => ?_
  obtain ⟨fault, failed⟩ | ⟨fits, others, done⟩ := records_settle hb h rest
  · rw [read] at failed
    cases failed
  · rw [read] at done
    cases done
    exact trailing fits

end refusal

theorem readOutput_records {records : List OutputRecord} {before text after : List Char}
    (hb : Gap before) (ha : Gap after) (h : Listed Spells records text) :
    readOutput (octets (before ++ text ++ after)) = .ok (joined records, lastSourceMap records) := by
  have blank : ∀ b ∈ octets after, isSpace b = true := by
    have dropped := dropWhile_gap ha []
    rw [List.append_nil] at dropped
    exact List.dropWhile_eq_nil_iff.mp dropped
  have read := list_reads hb h (fun record _ text spelled => form_takes record text spelled)
    (octets after)
  rw [octets_append, octets_append, List.append_assoc, readOutput_eq_ok_iff]
  exact .records (document_eq_ok_iff.mpr ⟨octets after, read, blank⟩)

/-- Blank output is no code. Output that is a list of records is their codes behind each other
without the line ends at the end, and the last source map that is not empty. Output that is cut
within the list, that goes on behind it, or that holds a member of the wrong type gives nothing. -/
theorem readOutput_assembles :
    (∀ stdout : Bytes, (∀ b ∈ stdout, b ∈ [0x20, 0x09, 0x0A, 0x0C, 0x0D]) →
      readOutput stdout = .ok ("", none)) ∧
    (∀ records before text after, Gap before → Gap after → Listed Spells records text →
      ∃ code sourceMap, readOutput (octets (before ++ text ++ after)) = .ok (code, sourceMap) ∧
        Trimmed records code ∧ LastMap records sourceMap) ∧
    ∀ records before text, Gap before → Listed Object records text →
      (∀ cut, cut <+: octets text → cut ≠ [] → cut ≠ octets text →
        Malformed (octets before ++ cut)) ∧
      (∀ rest : Bytes, (∃ b ∈ rest, b ∉ [0x20, 0x09, 0x0A, 0x0D]) →
        Malformed (octets before ++ (octets text ++ rest))) ∧
      ((∃ members ∈ records, ∃ member ∈ members, ¬Fits member) →
        ∀ rest, Malformed (octets before ++ (octets text ++ rest))) := by
  refine ⟨fun stdout blank => ?_, fun records before text after hb ha h => ?_,
    fun records before text hb h => ⟨fun cut shorter nonempty proper => ?_, ?_, ?_⟩⟩
  · refine readOutput_eq_ok_iff.mpr (.blank fun b hb => ?_)
    simpa [isAsciiBlank, or_assoc] using blank b hb
  · exact ⟨_, _, readOutput_records hb ha h, trimmed_joined records,
      lastMap_lastSourceMap records⟩
  · exact malformed_of_cut hb h shorter nonempty proper
  · rintro rest ⟨b, hr, visible⟩
    refine malformed_of_whole hb h fun _ => ⟨b, hr, ?_⟩
    simpa [isSpace, and_assoc] using visible
  · rintro ⟨members, hm, member, here, unfit⟩ rest
    exact malformed_of_whole hb h fun fits => absurd (fits members hm member here) unfit

/-- Two records, of which only the first has a map, with white space around them; their list cut
before its bracket, with a second bracket behind it, and with a number in the place of a code. -/
theorem readOutput_assembles_two :
    let text := "[\x7b\"src\":\"a\\n\",\"sourceMap\":\"m\"\x7d,\x7b\"src\":\"b \\n\",\"x\":0\x7d]"
    (∃ code sourceMap, readOutput (encode (text ++ "\n")) = .ok (code, sourceMap) ∧
      Trimmed [⟨"a\n", some "m"⟩, ⟨"b \n", none⟩] code ∧
      LastMap [⟨"a\n", some "m"⟩, ⟨"b \n", none⟩] sourceMap) ∧
    Malformed (encode text).dropLast ∧ Malformed (encode (text ++ "]")) ∧
    Malformed (encode "[\x7b\"src\":0\x7d]") ∧ readOutput [0x0A, 0x0C] = .ok ("", none) := by
  intro text
  have src : Quoted "src" "\"src\"".toList := quoted_plain (by simp)
  have camel : Quoted "sourceMap" "\"sourceMap\"".toList := quoted_plain (by simp)
  have map : Quoted "m" "\"m\"".toList := quoted_plain (by simp)
  have x : Quoted "x" "\"x\"".toList := quoted_plain (by simp)
  have newline : Letter '\n' ['\\', 'n'] := .short (by decide)
  have plainA : Letter 'a' ['a'] := .plain (by decide) (by decide) (by decide)
  have plainB : Letter 'b' ['b'] := .plain (by decide) (by decide) (by decide)
  have space : Letter ' ' [' '] := .plain (by decide) (by decide) (by decide)
  have lettersA : Letters "a\n".toList "a\\n".toList := .cons plainA (.cons newline .nil)
  have lettersB : Letters "b \n".toList "b \\n".toList :=
    .cons plainB (.cons space (.cons newline .nil))
  have a : Quoted "a\n" "\"a\\n\"".toList := .quoted lettersA
  have b : Quoted "b \n" "\"b \\n\"".toList := .quoted lettersB
  have number : WellFormed .value ['0'] := .scalar (.number (.positive .zero .none .none))
  let mapped := [("src", "\"a\\n\"".toList), ("sourceMap", "\"m\"".toList)]
  let mapless := [("src", "\"b \\n\"".toList), ("x", ['0'])]
  let wrong := [("src", ['0'])]
  have first : Items Member true mapped _ :=
    .cons gap_nil gap_nil (.member (.label src gap_nil) gap_nil (.scalar (.string a)))
      (.cons gap_nil gap_nil (.member (.label camel gap_nil) gap_nil (.scalar (.string map)))
        (.nil gap_nil))
  have second : Items Member true mapless _ :=
    .cons gap_nil gap_nil (.member (.label src gap_nil) gap_nil (.scalar (.string b)))
      (.cons gap_nil gap_nil (.member (.label x gap_nil) gap_nil number) (.nil gap_nil))
  have only : Items Member true wrong _ :=
    .cons gap_nil gap_nil (.member (.label src gap_nil) gap_nil number) (.nil gap_nil)
  have spelled : Listed Spells [⟨"a\n", some "m"⟩, ⟨"b \n", none⟩] text.toList := by
    refine Eq.mpr (congrArg (Listed _ _) ?_) (Listed.list (.cons gap_nil gap_nil
      (.object (.object first) (.once rfl a) (.once rfl (.value map)))
      (.cons gap_nil gap_nil (.object (.object second) (.once rfl b) (.absent (by simp [mapless])))
        (.nil gap_nil))))
    decide
  have objects : Listed Object [mapped, mapless] text.toList := by
    refine Eq.mpr (congrArg (Listed _ _) ?_) (Listed.list (.cons gap_nil gap_nil (.object first)
      (.cons gap_nil gap_nil (.object second) (.nil gap_nil))))
    decide
  have misfits : Listed Object [wrong] "[\x7b\"src\":0\x7d]".toList := by
    refine Eq.mpr (congrArg (Listed _ _) ?_)
      (Listed.list (.cons gap_nil gap_nil (.object only) (.nil gap_nil)))
    decide
  have unfit : ¬Fits ("src", ['0']) := by
    rintro ⟨src, _⟩
    obtain ⟨_, ⟨_⟩⟩ := src rfl
  have encoded (s : String) : encode s = octets s.toList := by
    rw [← encode_ofList, String.ofList_toList]
  obtain ⟨blank, whole, refused⟩ := readOutput_assembles
  obtain ⟨cut, trailing, _⟩ := refused _ [] _ gap_nil objects
  obtain ⟨_, _, misfit⟩ := refused _ [] _ gap_nil misfits
  refine ⟨?_, ?_, ?_, ?_, blank [0x0A, 0x0C] (by simp)⟩
  · rw [encoded, String.toList_append]
    exact whole _ [] _ ['\n'] gap_nil (by simp [Gap]) spelled
  · have long : (octets text.toList).length = 52 := by decide
    have shorter : (octets text.toList).dropLast.length = 51 := by
      rw [List.length_dropLast, long]
    rw [encoded]
    refine cut _ (List.dropLast_prefix _) (List.ne_nil_of_length_pos (by omega)) fun same => ?_
    rw [same, long] at shorter
    omega
  · rw [encoded, String.toList_append, octets_append]
    exact trailing [ascii ']'] ⟨ascii ']', by decide⟩
  · have refused := misfit ⟨_, List.mem_singleton_self _, _, List.mem_singleton_self _, unfit⟩ []
    rw [octets_nil, List.nil_append, List.append_nil, ← encoded] at refused
    exact refused

end OutputRecord

end CompilerDriver

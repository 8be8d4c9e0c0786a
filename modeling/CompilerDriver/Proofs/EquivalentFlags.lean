import CompilerDriver.Proofs.BufferReading
import CompilerDriver.Proofs.EquivalentMembers
import CompilerDriver.Proofs.EquivalentValues
import Mathlib.Logic.Relation

namespace CompilerDriver

open JsonGrammar JsonTree

variable {before after : List (List Char × JsonTree)}

namespace Buffer

/-- The names of the members that a buffer can have. -/
def names : List String :=
  ["path", "content", "src"]

/-- The members of a buffer in another order, with the content under the other word for it, with a
member more that is unknown, or without a path that is `null`. -/
inductive Respelled : List (List Char × JsonTree) → List (List Char × JsonTree) → Prop
  | permuted {before after : List (List Char × JsonTree)} (h : before.Perm after) :
      Respelled before after
  | renamed {name other : String} {key word : List Char} {value : JsonTree}
      {members : List (List Char × JsonTree)} (hn : name ∈ ["content", "src"])
      (ho : other ∈ ["content", "src"]) (hk : Letters name.toList key)
      (hw : Letters other.toList word) :
      Respelled ((key, value) :: members) ((word, value) :: members)
  | inserted {name : String} {key : List Char} {value : JsonTree}
      {members : List (List Char × JsonTree)} (unknown : name ∉ names)
      (hk : Letters name.toList key) : Respelled members ((key, value) :: members)
  | dropped {key : List Char} {members : List (List Char × JsonTree)}
      (hk : Letters "path".toList key) : Respelled ((key, .null) :: members) members

/-- The members of a buffer say the same however they are spelled. -/
theorem Respelled.ofMembers? (h : Respelled before after) {noun : String} {buffer : Buffer}
    (read : (meaning noun).ofMembers? before = some buffer) :
    (meaning noun).ofMembers? after = some buffer := by
  have content {name : String} (h : name ∈ ["content", "src"]) :
      (form noun).field? name = (form noun).field? "content" := by
    simp only [List.mem_cons, List.not_mem_nil, or_false] at h
    rcases h with rfl | rfl <;> rfl
  cases h with
  | permuted h => rwa [← (meaning noun).ofMembers?_perm h]
  | renamed hn ho hk hw =>
    exact (meaning noun).ofMembers?_replaced (text?_of_letters hk) (content hn)
      (text?_of_letters hw) (content ho) (fun _ said => said) read
  | @inserted name key value members unknown hk =>
    simp only [names, List.mem_cons, List.not_mem_nil, or_false, not_or] at unknown
    obtain ⟨path, content, src⟩ := unknown
    rwa [(meaning noun).ofMembers?_unknown (text?_of_letters hk) (field?_eq_none path content src)]
  | dropped hk =>
    refine (meaning noun).ofMembers?_dropped (text?_of_letters hk) rfl ?_ ?_ read
    · intro field hf needed same
      rcases List.mem_cons.mp hf with rfl | hf
      · cases needed
      · obtain rfl := List.mem_singleton.mp hf
        exact absurd same (by decide : "content" ≠ "path")
    · rintro _ ⟨⟩
      rfl

theorem Respelled.ofTree? (h : Respelled before after) {noun : String} {buffer : Buffer}
    (read : (meaning noun).ofTree? (.object before) = some buffer) :
    (meaning noun).ofTree? (.object after) = some buffer :=
  h.ofMembers? read

end Buffer

namespace LooseFlags

/-- The names of the members that options can have. -/
def names : List String :=
  ["jsCode", "externs", "defines", "languageIn", "languageOut", "compilationLevel",
    "warningLevel", "createSourceMap", "processCommonJsModules"]

/-- A value of a member that says what its absence says. -/
inductive Default : String → JsonTree → Prop
  | empty {name : String} (h : name ∈ ["jsCode", "externs"]) : Default name (.list [])
  | absent {name : String} (h : name ∈ ["defines", "languageIn", "languageOut",
      "compilationLevel", "warningLevel"]) : Default name .null
  | off {name : String} (h : name ∈ ["createSourceMap", "processCommonJsModules"]) :
      Default name (.bool false)

/-- The value of a member of some name with an entry respelled, with constants in another order, or
with another name of the same language level. -/
inductive ValueRespelled : String → JsonTree → JsonTree → Prop
  | entry {name : String} {front back : List JsonTree}
      {before after : List (List Char × JsonTree)} (hn : name ∈ ["jsCode", "externs"])
      (h : Buffer.Respelled before after) :
      ValueRespelled name (.list (front ++ .object before :: back))
        (.list (front ++ .object after :: back))
  | defines {names : List String} {before after : List (List Char × JsonTree)}
      (named : Named names before) (distinct : names.Nodup) (h : before.Perm after) :
      ValueRespelled "defines" (.object before) (.object after)
  | language {name : String} {mode : LanguageMode} {before after : JsonTree}
      (hn : name ∈ ["languageIn", "languageOut"]) (hb : mode.Tells before)
      (ha : mode.Tells after) : ValueRespelled name before after

/-- The members of options in another order, with a member more that is unknown, with a value
respelled, or without a member that says what its absence says. -/
inductive Respelled : List (List Char × JsonTree) → List (List Char × JsonTree) → Prop
  | permuted {before after : List (List Char × JsonTree)} (h : before.Perm after) :
      Respelled before after
  | inserted {name : String} {key : List Char} {value : JsonTree}
      {members : List (List Char × JsonTree)} (unknown : name ∉ names)
      (hk : Letters name.toList key) : Respelled members ((key, value) :: members)
  | replaced {name : String} {key : List Char} {before after : JsonTree}
      {members : List (List Char × JsonTree)} (hk : Letters name.toList key)
      (h : ValueRespelled name before after) :
      Respelled ((key, before) :: members) ((key, after) :: members)
  | dropped {name : String} {key : List Char} {value : JsonTree}
      {members : List (List Char × JsonTree)} (hk : Letters name.toList key)
      (h : Default name value) : Respelled ((key, value) :: members) members

theorem Default.change_blank {name : String} {value : JsonTree} (h : Default name value)
    {change : LooseFlags → LooseFlags} (said : change? name value = some change) :
    change blank = blank := by
  cases h with
  | empty h =>
    simp only [List.mem_cons, List.not_mem_nil, or_false] at h
    rcases h with rfl | rfl <;>
      (cases said
       rfl)
  | absent h =>
    simp only [List.mem_cons, List.not_mem_nil, or_false] at h
    rcases h with rfl | rfl | rfl | rfl | rfl <;>
      (cases said
       rfl)
  | off h =>
    simp only [List.mem_cons, List.not_mem_nil, or_false] at h
    rcases h with rfl | rfl <;>
      (cases said
       rfl)

theorem field?_of_mem_names {name : String} (h : name ∈ names) :
    ∃ field, form.field? name = some field ∧ field.name = name := by
  simp only [names, List.mem_cons, List.not_mem_nil, or_false] at h
  rcases h with rfl | rfl | rfl | rfl | rfl | rfl | rfl | rfl | rfl <;> exact ⟨_, rfl, rfl⟩

theorem field?_of_not_mem_names {name : String} (h : name ∉ names) : form.field? name = none := by
  have plain : ∀ field ∈ form.fields, field.aliases = [] := by
    simp [form, JsonField.optional, JsonField.required]
  refine List.find?_eq_none.mpr fun field hf => ?_
  have known : field.name ∈ names := List.mem_map.mpr ⟨field, hf, rfl⟩
  have apart : field.name ≠ name := fun same => h (same ▸ known)
  simp [plain field hf, apart]

theorem Default.mem_names {name : String} {value : JsonTree} (h : Default name value) :
    name ∈ names := by
  cases h with
  | empty h => exact (by decide : ["jsCode", "externs"] ⊆ names) h
  | absent h =>
    exact (by decide : ["defines", "languageIn", "languageOut", "compilationLevel",
      "warningLevel"] ⊆ names) h
  | off h => exact (by decide : ["createSourceMap", "processCommonJsModules"] ⊆ names) h

theorem ValueRespelled.mem_names {name : String} {value other : JsonTree}
    (h : ValueRespelled name value other) : name ∈ names := by
  cases h with
  | entry hn => exact (by decide : ["jsCode", "externs"] ⊆ names) hn
  | defines => decide
  | language hn => exact (by decide : ["languageIn", "languageOut"] ⊆ names) hn

theorem ValueRespelled.change? {name : String} {value other : JsonTree}
    (h : ValueRespelled name value other) {change : LooseFlags → LooseFlags}
    (said : change? name value = some change) : LooseFlags.change? name other = some change := by
  cases h with
  | @entry _ front back before after hn h =>
    have respelled (noun : String) (buffers : List Buffer)
        (read : (front ++ .object before :: back).mapM (Buffer.meaning noun).ofTree? =
          some buffers) :
        (front ++ .object after :: back).mapM (Buffer.meaning noun).ofTree? = some buffers :=
      mapM_replaced (fun _ told => h.ofTree? told) read
    simp only [List.mem_cons, List.not_mem_nil, or_false] at hn
    rcases hn with rfl | rfl <;>
      (obtain ⟨buffers, read, rfl⟩ := Option.map_eq_some_iff.mp said
       exact Option.map_eq_some_iff.mpr ⟨buffers, respelled _ buffers read, rfl⟩)
  | defines named distinct h =>
    obtain ⟨_, told, rfl⟩ := Option.map_eq_some_iff.mp said
    obtain ⟨defines, read, rfl⟩ := Option.map_eq_some_iff.mp told
    have permuted := value?_perm named distinct h read
    exact Option.map_eq_some_iff.mpr ⟨_, Option.map_eq_some_iff.mpr ⟨_, permuted, rfl⟩, rfl⟩
  | @language _ mode before after hn hb ha =>
    simp only [List.mem_cons, List.not_mem_nil, or_false] at hn
    rcases hn with rfl | rfl <;>
      (rw [LooseFlags.change?, hb.nullable?] at said
       rw [LooseFlags.change?, ha.nullable?]
       exact said)

/-- The members of options say the same however they are spelled. -/
theorem Respelled.ofMembers? (h : Respelled before after) {flags : LooseFlags}
    (read : meaning.ofMembers? before = some flags) : meaning.ofMembers? after = some flags := by
  cases h with
  | permuted h => rwa [← meaning.ofMembers?_perm h]
  | inserted unknown hk =>
    rwa [meaning.ofMembers?_unknown (text?_of_letters hk) (field?_of_not_mem_names unknown)]
  | replaced hk h =>
    obtain ⟨field, known, named⟩ := field?_of_mem_names h.mem_names
    have said := text?_of_letters hk
    refine meaning.ofMembers?_replaced said known said known (fun change told => ?_) read
    rw [named] at told ⊢
    exact h.change? told
  | dropped hk h =>
    obtain ⟨field, known, named⟩ := field?_of_mem_names h.mem_names
    refine meaning.ofMembers?_dropped (text?_of_letters hk) known ?_ (fun change told => ?_) read
    · have free : ∀ other ∈ form.fields, other.neededInObject = false := by
        simp [form, JsonField.optional]
      intro other ho needed
      rw [free other ho] at needed
      cases needed
    · rw [named] at told
      exact h.change_blank told

/-- A document means the same in every equivalent spelling. Its members may come in another order,
those of its entries and of constants with distinct names too, the content of an entry under the
other word for it, a language level under another of its names; members with unknown names may be
added, those that say what their absence says left out, and the space between tokens is free. -/
theorem ofDocument_of_respelled {text other : String}
    (written : (JsonTree.object before).Document text.toList)
    (rewritten : (JsonTree.object after).Document other.toList)
    (same : Relation.ReflTransGen Respelled before after) {flags : LooseFlags}
    (read : ofDocument (Utf8.encode text) = .ok flags) :
    ofDocument (Utf8.encode other) = .ok flags ∧
      (ofDocument (Utf8.encode other)).map normalize = .ok flags.normalize := by
  have told : meaning.ofMembers? before = some flags := (ofDocument_eq_ok_iff written).mp read
  have kept : meaning.ofMembers? after = some flags := by
    clear rewritten
    induction same with
    | refl => exact told
    | tail _ step ih => exact step.ofMembers? ih
  have reread : ofDocument (Utf8.encode other) = .ok flags :=
    (ofDocument_eq_ok_iff rewritten).mpr kept
  rw [reread]
  exact ⟨rfl, rfl⟩

/-- An entry without its path and with the other word for its content, constants in another order,
a level under a longer name and a member that cannot even be read. -/
theorem ofDocument_rearranged :
    let text := "\x7b\"createSourceMap\":false,\"jsCode\":[\x7b\"path\":null,\"src\":\"a\"\x7d]," ++
      "\"defines\":\x7b\"A\":\"1\",\"B\":null\x7d,\"languageIn\":\"ES6\"\x7d"
    let other := "\x7b \"x\":[\"\\ud800\"],\n\"languageIn\":\"ECMASCRIPT_2015\",\"jsCode\":" ++
      "[\x7b\"content\":\"a\"\x7d],\"defines\":\x7b\"B\":null,\"A\":\"1\"\x7d \x7d"
    let constants := Defines.ofList [("A", .text "1"), ("B", .undefined)]
    let flags : LooseFlags := { LooseFlags.blank with
      jsCode := [⟨none, "a"⟩], defines := some (.typed constants), languageIn := some .es6 }
    ofDocument (Utf8.encode text) = .ok flags ∧ ofDocument (Utf8.encode other) = .ok flags ∧
      (ofDocument (Utf8.encode other)).map normalize = .ok flags.normalize := by
  intro text other constants flags
  have letter : Spells (.string "a".toList) _ := spells_plain (by simp)
  have one : Spells (.string "1".toList) _ := spells_plain (by simp)
  let path : List Char × JsonTree := ("path".toList, .null)
  let src : List Char × JsonTree := ("src".toList, .string "a".toList)
  let content : List Char × JsonTree := ("content".toList, .string "a".toList)
  let a : List Char × JsonTree := ("A".toList, .string "1".toList)
  let b : List Char × JsonTree := ("B".toList, .null)
  let off : List Char × JsonTree := ("createSourceMap".toList, .bool false)
  let short : List Char × JsonTree := ("languageIn".toList, .string "ES6".toList)
  let long : List Char × JsonTree := ("languageIn".toList, .string "ECMASCRIPT_2015".toList)
  let extra : List Char × JsonTree := ("x".toList, .list [.string "\\ud800".toList])
  let code (members : List (List Char × JsonTree)) : List Char × JsonTree :=
    ("jsCode".toList, .list [.object members])
  let map (members : List (List Char × JsonTree)) : List Char × JsonTree :=
    ("defines".toList, .object members)
  have written : (JsonTree.object [off, code [path, src], map [a, b], short]).Document
      text.toList := by
    have entry : Items SpellsMember true [path, src] _ :=
      .cons gap_nil gap_nil (spellsMember_plain (by simp) .null)
        (.cons gap_nil gap_nil (spellsMember_plain (by simp) letter) (.nil gap_nil))
    have defines : Items SpellsMember true [a, b] _ :=
      .cons gap_nil gap_nil (spellsMember_plain (by simp) one)
        (.cons gap_nil gap_nil (spellsMember_plain (by simp) .null) (.nil gap_nil))
    have level : Spells (.string "ES6".toList) _ := spells_plain (by simp)
    have items : Items Spells true [.object [path, src]] _ :=
      .cons gap_nil gap_nil (.object entry) (.nil gap_nil)
    have whole : Items SpellsMember true [off, code [path, src], map [a, b], short] _ :=
      .cons gap_nil gap_nil (spellsMember_plain (by simp) .no)
        (.cons gap_nil gap_nil (spellsMember_plain (by simp) (.list items))
          (.cons gap_nil gap_nil (spellsMember_plain (by simp) (.object defines))
            (.cons gap_nil gap_nil (spellsMember_plain (by simp) level) (.nil gap_nil))))
    refine Eq.mpr (congrArg (Document _) ?_) (.document gap_nil (.object whole) gap_nil)
    decide +kernel
  have rewritten : (JsonTree.object [extra, long, code [content], map [b, a]]).Document
      other.toList := by
    have blank : Gap [' '] := by simp [Gap]
    have newline : Gap ['\n'] := by simp [Gap]
    have lone : Inside ('\\' :: 'u' :: (['d', '8', '0', '0'] ++ [])) :=
      .unit (.digits (.lower (by decide : 13 < 16)) (.lower (by decide : 8 < 16))
        (.lower (by decide : 0 < 16)) (.lower (by decide : 0 < 16))) .nil
    have ignored : Items Spells true [.string "\\ud800".toList] _ :=
      .cons gap_nil gap_nil (.string lone) (.nil gap_nil)
    have entry : Items SpellsMember true [content] _ :=
      .cons gap_nil gap_nil (spellsMember_plain (by simp) letter) (.nil gap_nil)
    have items : Items Spells true [.object [content]] _ :=
      .cons gap_nil gap_nil (.object entry) (.nil gap_nil)
    have defines : Items SpellsMember true [b, a] _ :=
      .cons gap_nil gap_nil (spellsMember_plain (by simp) .null)
        (.cons gap_nil gap_nil (spellsMember_plain (by simp) one) (.nil gap_nil))
    have level : Spells (.string "ECMASCRIPT_2015".toList) _ := spells_plain (by simp)
    have whole : Items SpellsMember true [extra, long, code [content], map [b, a]] _ :=
      .cons blank gap_nil (spellsMember_plain (by simp) (.list ignored))
        (.cons gap_nil newline (spellsMember_plain (by simp) level)
          (.cons gap_nil gap_nil (spellsMember_plain (by simp) (.list items))
            (.cons gap_nil gap_nil (spellsMember_plain (by simp) (.object defines)) (.nil blank))))
    refine Eq.mpr (congrArg (Document _) ?_) (.document gap_nil (.object whole) gap_nil)
    decide +kernel
  have read : ofDocument (Utf8.encode text) = .ok flags := by decide +kernel
  have entry {before after : List (List Char × JsonTree)} (h : Buffer.Respelled before after) :
      Respelled [code before, map [a, b], short] [code after, map [a, b], short] :=
    .replaced (letters_plain (by simp)) (@ValueRespelled.entry _ [] [] _ _ (by decide) h)
  have turned (first : List Char × JsonTree) (more : List (List Char × JsonTree)) :
      Respelled (first :: more) (more ++ [first]) :=
    .permuted (List.perm_append_singleton first more).symm
  have dropped : Respelled [off, code [path, src], map [a, b], short]
      [code [path, src], map [a, b], short] :=
    .dropped (letters_plain (by simp)) (.off (by decide))
  have nameless : Buffer.Respelled [path, src] [src] := .dropped (letters_plain (by simp))
  have renamed : Buffer.Respelled [src] [content] :=
    .renamed (by decide) (by decide) (letters_plain (by simp)) (letters_plain (by simp))
  have swapped : Respelled [map [a, b], short, code [content]]
      [map [b, a], short, code [content]] :=
    .replaced (letters_plain (by simp)) (.defines
      (.cons (letters_plain (by simp)) (.cons (letters_plain (by simp)) .nil)) (by decide)
      (.swap b a []))
  have es6 : LanguageMode.es6.Tells (.string "ES6".toList) :=
    .alone (by decide) (letters_plain (by simp))
  have ecmaScript : LanguageMode.es6.Tells (.string "ECMASCRIPT_2015".toList) :=
    .alone (by decide) (letters_plain (by simp))
  have longer : Respelled [short, code [content], map [b, a]] [long, code [content], map [b, a]] :=
    .replaced (letters_plain (by simp)) (.language (by decide) es6 ecmaScript)
  have inserted : Respelled [long, code [content], map [b, a]]
      [extra, long, code [content], map [b, a]] :=
    .inserted (by decide : "x" ∉ names) (letters_plain (by simp))
  have same : Relation.ReflTransGen Respelled [off, code [path, src], map [a, b], short]
      [extra, long, code [content], map [b, a]] :=
    (((((((Relation.ReflTransGen.single dropped).tail (entry nameless)).tail
      (entry renamed)).tail (turned _ _)).tail swapped).tail (turned _ _)).tail longer).tail
        inserted
  exact ⟨read, ofDocument_of_respelled written rewritten same read⟩

end LooseFlags

end CompilerDriver

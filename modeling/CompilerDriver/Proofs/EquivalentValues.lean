import CompilerDriver.Proofs.DefineMap
import CompilerDriver.Proofs.FlagsMeaning
import Mathlib.Data.List.Perm.Basic

namespace CompilerDriver

open JsonGrammar JsonTree

variable {α β : Type}

theorem mapM_eq_some_iff {f : α → Option β} {as : List α} {bs : List β} :
    as.mapM f = some bs ↔ List.Forall₂ (fun a b => f a = some b) as bs := by
  induction as generalizing bs with
  | nil =>
    rw [List.mapM_nil, List.forall₂_nil_left_iff]
    simp [eq_comm]
  | cons a as ih =>
    simp only [List.mapM_cons, List.forall₂_cons_left_iff, ← ih]
    cases f a <;> cases as.mapM f <;> simp [eq_comm]

/-- The values of a permuted list are the permuted values. -/
theorem mapM_perm {f : α → Option β} {before after : List α} (h : before.Perm after)
    {found : List β} (read : before.mapM f = some found) :
    ∃ others, after.mapM f = some others ∧ found.Perm others := by
  obtain ⟨others, read, perm⟩ := List.perm_comp_forall₂ h.symm (mapM_eq_some_iff.mp read)
  exact ⟨others, mapM_eq_some_iff.mpr read, perm.symm⟩

/-- An item gives way to another one that has its value. -/
theorem mapM_replaced {f : α → Option β} {a other : α}
    (same : ∀ b, f a = some b → f other = some b) {front back : List α} {bs : List β}
    (read : (front ++ a :: back).mapM f = some bs) :
    (front ++ other :: back).mapM f = some bs := by
  induction front generalizing bs with
  | nil =>
    obtain ⟨b, more, head, tail, rfl⟩ := List.forall₂_cons_left_iff.mp (mapM_eq_some_iff.mp read)
    exact mapM_eq_some_iff.mpr (.cons (same b head) tail)
  | cons first front ih =>
    obtain ⟨b, more, head, tail, rfl⟩ := List.forall₂_cons_left_iff.mp (mapM_eq_some_iff.mp read)
    exact mapM_eq_some_iff.mpr (.cons head (mapM_eq_some_iff.mp (ih (mapM_eq_some_iff.mpr tail))))

/-- What is kept of each value can be told from what it was made of. -/
theorem map_eq_map_of_mapM {γ : Type} {f : α → Option β} {before : α → γ} {after : β → γ}
    (h : ∀ a b, f a = some b → before a = after b) {as : List α} {bs : List β}
    (read : as.mapM f = some bs) : as.map before = bs.map after := by
  have related := mapM_eq_some_iff.mp read
  clear read
  induction related with
  | nil => rfl
  | cons head _ ih => rw [List.map_cons, List.map_cons, h _ _ head, ih]

namespace LanguageMode

/-- A value that tells a language level under one of its names. -/
inductive Tells (mode : LanguageMode) : JsonTree → Prop
  | alone {name : String} {inside : List Char} (known : name ∈ mode.documentNames)
      (h : Letters name.toList inside) : Tells mode (.string inside)
  | keyed {name : String} {key : List Char} (known : name ∈ mode.documentNames)
      (h : Letters name.toList key) : Tells mode (.object [(key, .null)])

theorem lookup_documentSpellings (mode : LanguageMode) :
    ∀ name ∈ mode.documentNames, documentSpellings.lookup name = some mode := by
  cases mode <;> decide

theorem Tells.choice? {mode : LanguageMode} {tree : JsonTree} (h : mode.Tells tree) :
    tree.choice? documentSpellings = some mode := by
  cases h with
  | alone known h =>
    rw [JsonTree.choice?, spelling?, text?_of_letters h, Option.bind_some,
      mode.lookup_documentSpellings _ known]
  | keyed known h =>
    rw [JsonTree.choice?, spelling?, text?_of_letters h, Option.bind_some,
      mode.lookup_documentSpellings _ known]
    rfl

theorem Tells.nullable? {mode : LanguageMode} {tree : JsonTree} (h : mode.Tells tree) :
    tree.nullable? (JsonTree.choice? documentSpellings) = some (some mode) := by
  have chosen := h.choice?
  cases h <;> exact Option.map_eq_some_iff.mpr ⟨mode, chosen, rfl⟩

end LanguageMode

namespace Defines

variable {entries others : List (String × DefineValue)}

theorem lookup_eq_some_iff_mem (distinct : (entries.map Prod.fst).Nodup) {name : String}
    {value : DefineValue} : entries.lookup name = some value ↔ (name, value) ∈ entries := by
  induction entries with
  | nil => simp
  | cons head rest ih =>
    obtain ⟨other, old⟩ := head
    obtain ⟨fresh, distinct⟩ := List.nodup_cons.mp distinct
    rw [lookup_cons_if, List.mem_cons, Prod.mk.injEq]
    by_cases same : name = other
    · subst same
      have absent : (name, value) ∉ rest := fun member =>
        fresh (List.mem_map.mpr ⟨_, member, rfl⟩)
      simp [absent, eq_comm]
    · simp [same, ih distinct]

/-- Constants with distinct names are those that are listed. -/
theorem mem_ofList (distinct : (entries.map Prod.fst).Nodup) {entry : String × DefineValue} :
    entry ∈ (ofList entries).entries ↔ entry ∈ entries := by
  obtain ⟨name, value⟩ := entry
  have reversed : (entries.reverse.map Prod.fst).Nodup := by
    rwa [List.map_reverse, List.nodup_reverse]
  rw [mem_entries_iff, get?_ofList, lookup_eq_some_iff_mem reversed, List.mem_reverse]

theorem ofList_perm (distinct : (entries.map Prod.fst).Nodup) (h : entries.Perm others) :
    ofList entries = ofList others := by
  have distinct' : (others.map Prod.fst).Nodup := (h.map Prod.fst).nodup_iff.mp distinct
  have apart (defines : Defines) : defines.entries.Nodup := by
    refine defines.sorted.imp fun below => ?_
    rintro rfl
    exact String.lt_irrefl _ below
  have members : (ofList entries).entries.Perm (ofList others).entries := by
    refine (List.perm_ext_iff_of_nodup (apart _) (apart _)).mpr fun entry => ?_
    rw [mem_ofList distinct, mem_ofList distinct', h.mem_iff]
  refine eq_of_entries (members.eq_of_pairwise ?_ (ofList entries).sorted (ofList others).sorted)
  intro a b _ _ less greater
  exact absurd greater (String.lt_asymm less)

theorem ofMember?_fst {member : String × JsonValue} {entry : String × DefineValue}
    (h : ofMember? member = some entry) : member.1 = entry.1 := by
  obtain ⟨_, _, rfl⟩ := Option.map_eq_some_iff.mp h
  rfl

/-- Members with distinct names make the same constants in any order. -/
theorem ofMembers?_perm {before after : List (String × JsonValue)} (h : before.Perm after)
    (distinct : (before.map Prod.fst).Nodup) {defines : Defines}
    (read : ofMembers? before = some defines) : ofMembers? after = some defines := by
  obtain ⟨entries, found, rfl⟩ := Option.map_eq_some_iff.mp read
  obtain ⟨others, read, perm⟩ := mapM_perm h found
  have names : before.map Prod.fst = entries.map Prod.fst :=
    map_eq_map_of_mapM (fun _ _ => ofMember?_fst) found
  rw [ofMembers?, read, Option.map_some, ofList_perm (names ▸ distinct) perm]

end Defines

namespace JsonTree

theorem text?_of_member? {value? : JsonTree → Option JsonValue} {member : List Char × JsonTree}
    {found : String × JsonValue} (h : member? value? member = some found) :
    text? member.1 = some found.1 := by
  obtain ⟨name, said, h⟩ := Option.bind_eq_some_iff.mp h
  obtain ⟨_, _, rfl⟩ := Option.map_eq_some_iff.mp h
  exact said

theorem map_text?_of_named {names : List String} {members : List (List Char × JsonTree)}
    (h : Named names members) : members.map (text? ·.1) = names.map some := by
  induction h with
  | nil => rfl
  | cons head _ ih => rw [List.map_cons, List.map_cons, text?_of_letters head, ih]

/-- A map of constants with distinct names says the same in any order. -/
theorem value?_perm {names : List String} {before after : List (List Char × JsonTree)}
    (named : Named names before) (distinct : names.Nodup) (h : before.Perm after) {depth : Nat}
    {defines : LooseDefines}
    (read : ((object before).value? depth).bind LooseDefines.ofJson? = some defines) :
    ((object after).value? depth).bind LooseDefines.ofJson? = some defines := by
  cases depth with
  | zero => cases read
  | succ depth =>
    rw [value?] at read ⊢
    by_cases deep : depth = 0
    · rw [if_pos deep] at read
      cases read
    · rw [if_neg deep] at read ⊢
      obtain ⟨_, told, meant⟩ := Option.bind_eq_some_iff.mp read
      obtain ⟨values, found, rfl⟩ := Option.map_eq_some_iff.mp told
      obtain ⟨others, permuted, perm⟩ := mapM_perm h found
      obtain ⟨map, typed, rfl⟩ := Option.map_eq_some_iff.mp meant
      have keys : before.map (text? ·.1) = (values.map Prod.fst).map some := by
        rw [List.map_map]
        exact map_eq_map_of_mapM (fun _ _ => text?_of_member?) found
      have same : values.map Prod.fst = names := by
        refine List.map_injective_iff.mpr (Option.some_injective _) ?_
        rw [← keys, map_text?_of_named named]
      rw [permuted, Option.map_some, Option.bind_some, LooseDefines.ofJson?,
        Defines.ofMembers?_perm perm (same ▸ distinct) typed]
      rfl

end JsonTree

end CompilerDriver

import CompilerDriver.Define
import Mathlib.Data.List.Basic

namespace CompilerDriver

namespace Defines

variable {entries : List (String × DefineValue)} {name other : String} {value : DefineValue}

theorem lookup_cons_if (name : String) (value : DefineValue)
    (entries : List (String × DefineValue)) (key : String) :
    List.lookup key ((name, value) :: entries) =
      if key = name then some value else entries.lookup key := by
  rw [List.lookup_cons]
  by_cases same : key = name
  · rw [beq_iff_eq.mpr same, if_pos same]
  · rw [beq_false_of_ne same, if_neg same]

theorem lookup_insertEntry (name : String) (value : DefineValue)
    (entries : List (String × DefineValue)) (key : String) :
    (insertEntry name value entries).lookup key =
      if key = name then some value else entries.lookup key := by
  induction entries with
  | nil => rw [insertEntry, lookup_cons_if]
  | cons head rest ih =>
    obtain ⟨other, old⟩ := head
    simp only [insertEntry]
    split
    · rw [lookup_cons_if]
    split
    next same =>
      rw [lookup_cons_if, lookup_cons_if, same]
      by_cases found : key = other
      · rw [if_pos found, if_pos found]
      · rw [if_neg found, if_neg found, if_neg found]
    next apart =>
      rw [lookup_cons_if, lookup_cons_if, ih]
      by_cases found : key = other
      · rw [if_pos found, if_neg (found ▸ Ne.symm apart), if_pos found]
      · rw [if_neg found, if_neg found]

theorem get?_insert (defines : Defines) (name : String) (value : DefineValue) (key : String) :
    (defines.insert name value).get? key = if key = name then some value else defines.get? key :=
  lookup_insertEntry name value defines.entries key

/-- Of the values that a list of entries has for a name the last one counts, and before it no value
that was there. -/
theorem get?_insertAll (defines : Defines) (entries : List (String × DefineValue)) (key : String) :
    (defines.insertAll entries).get? key = (entries.reverse.lookup key).or (defines.get? key) := by
  induction entries generalizing defines with
  | nil => rfl
  | cons head rest ih =>
    obtain ⟨name, value⟩ := head
    rw [insertAll, List.foldl_cons, ← insertAll, ih, get?_insert, List.reverse_cons,
      List.lookup_append, Option.or_assoc]
    rw [lookup_cons_if]
    by_cases same : key = name
    · rw [if_pos same, if_pos same, Option.some_or]
    · rw [if_neg same, if_neg same, List.lookup_nil, Option.none_or]

theorem get?_empty (key : String) : empty.get? key = none := rfl

theorem get?_ofList (entries : List (String × DefineValue)) (key : String) :
    (ofList entries).get? key = entries.reverse.lookup key := by
  rw [ofList, get?_insertAll, get?_empty, Option.or_none]

theorem ofList_append (earlier later : List (String × DefineValue)) :
    ofList (earlier ++ later) = (ofList earlier).insertAll later := by
  rw [ofList, ofList, insertAll, insertAll, insertAll, List.foldl_append]

/-- What is kept under a name is what is found there. -/
theorem mem_entries_iff (defines : Defines) (name : String) (value : DefineValue) :
    (name, value) ∈ defines.entries ↔ defines.get? name = some value := by
  obtain ⟨entries, sorted⟩ := defines
  show _ ↔ entries.lookup name = some value
  induction entries with
  | nil => simp
  | cons head rest ih =>
    obtain ⟨other, old⟩ := head
    obtain ⟨above, sorted⟩ := List.pairwise_cons.1 sorted
    have later : (name, value) ∈ rest ↔ rest.lookup name = some value := ih sorted
    rw [List.mem_cons, lookup_cons_if, later, Prod.mk.injEq]
    by_cases same : name = other
    · subst same
      have fresh : rest.lookup name ≠ some value := fun found =>
        String.lt_irrefl name (above (name, value) (later.2 found))
      simp [fresh, eq_comm]
    · simp [same]

theorem insertEntry_above (h : ∀ entry ∈ entries, entry.1 < name) :
    insertEntry name value entries = entries ++ [(name, value)] := by
  induction entries with
  | nil => rfl
  | cons head rest ih =>
    obtain ⟨other, old⟩ := head
    have below : other < name := h (other, old) List.mem_cons_self
    have apart : name ≠ other := fun same => String.lt_irrefl name (same ▸ below)
    rw [insertEntry, if_neg (String.lt_asymm below), if_neg apart,
      ih fun entry mem => h entry (List.mem_cons_of_mem _ mem), List.cons_append]

/-- Entries that are in order already are kept as they are. -/
theorem entries_insertAll_of_sorted (defines : Defines)
    (sorted : (defines.entries ++ entries).Pairwise fun a b => a.1 < b.1) :
    (defines.insertAll entries).entries = defines.entries ++ entries := by
  induction entries generalizing defines with
  | nil => rw [List.append_nil]; rfl
  | cons head rest ih =>
    have below : ∀ entry ∈ defines.entries, entry.1 < head.1 := fun entry mem =>
      (List.pairwise_append.1 sorted).2.2 entry mem head List.mem_cons_self
    have step : (defines.insert head.1 head.2).entries = defines.entries ++ [head] :=
      insertEntry_above below
    rw [insertAll, List.foldl_cons, ← insertAll, ih _ (by simpa [step] using sorted), step,
      List.append_assoc, List.singleton_append]

theorem eq_of_entries {a b : Defines} (h : a.entries = b.entries) : a = b := by
  cases a
  cases b
  exact Defines.mk.injEq .. ▸ h

theorem ofList_entries (defines : Defines) : ofList defines.entries = defines :=
  eq_of_entries (entries_insertAll_of_sorted empty defines.sorted)

end Defines

end CompilerDriver

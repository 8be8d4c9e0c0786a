import CompilerDriver.Proofs.TreeRecords

namespace CompilerDriver

variable {α : Type}

/-- Steps that may be taken in either order give the same in any order. -/
theorem foldlM_perm {β : Type} {step : α → β → Option α}
    (comm : ∀ state a b,
      ((step state a).bind fun s => step s b) = (step state b).bind fun s => step s a)
    {before after : List β} (h : before.Perm after) (state : α) :
    before.foldlM step state = after.foldlM step state := by
  induction h generalizing state with
  | nil => rfl
  | cons a _ ih =>
    rw [List.foldlM_cons, List.foldlM_cons]
    exact congrArg _ (funext ih)
  | swap a b more =>
    simp only [List.foldlM_cons, Option.bind_eq_bind, ← Option.bind_assoc, comm state a b]
  | trans _ _ first second => exact (first state).trans (second state)

namespace RecordMeaning

open JsonTree (text?)

variable {form : JsonRecord α} (meaning : RecordMeaning form)

theorem absorb?_of_known {member : List Char × JsonTree} {name : String} {field : JsonField α}
    (said : text? member.1 = some name) (known : form.field? name = some field)
    (found : Finset String × α) :
    meaning.absorb? found member =
      if field.name ∈ found.1 then none
      else (meaning.change? field.name member.2).map fun change =>
        (insert field.name found.1, change found.2) := by
  rw [absorb?, said, Option.bind_some, known]

theorem absorb?_of_unknown {member : List Char × JsonTree} {name : String}
    (said : text? member.1 = some name) (unknown : form.field? name = none)
    (found : Finset String × α) : meaning.absorb? found member = some found := by
  rw [absorb?, said, Option.bind_some, unknown]

theorem absorb?_of_unreadable {member : List Char × JsonTree} (said : text? member.1 = none)
    (found : Finset String × α) : meaning.absorb? found member = none := by
  rw [absorb?, said, Option.bind_none]

theorem absorb?_comm_known {a b : List Char × JsonTree} {first second : String}
    {left right : JsonField α} (ha : text? a.1 = some first) (hl : form.field? first = some left)
    (hb : text? b.1 = some second) (hr : form.field? second = some right)
    (found : Finset String × α) :
    ((meaning.absorb? found a).bind fun s => meaning.absorb? s b) =
      (meaning.absorb? found b).bind fun s => meaning.absorb? s a := by
  simp only [meaning.absorb?_of_known ha hl, meaning.absorb?_of_known hb hr]
  by_cases same : left.name = right.name
  · -- The second of two members of one field is refused.
    rw [same]
    by_cases seen : right.name ∈ found.1
    · simp [seen]
    · simp [seen, Option.bind_map]
  · by_cases seenLeft : left.name ∈ found.1
    · by_cases seenRight : right.name ∈ found.1
      · simp [seenLeft, seenRight]
      · simp [seenLeft, seenRight, Option.bind_map]
    · by_cases seenRight : right.name ∈ found.1
      · simp [seenLeft, seenRight, Option.bind_map]
      · rw [if_neg seenLeft, if_neg seenRight]
        cases hf : meaning.change? left.name a.2 with
        | none => cases meaning.change? right.name b.2 <;> simp
        | some f =>
          cases hg : meaning.change? right.name b.2 with
          | none => simp
          | some g =>
            have either := meaning.commute same hf hg found.2
            simp [seenLeft, seenRight, same, Ne.symm same, either, Finset.insert_comm]

theorem absorb?_comm (found : Finset String × α) (a b : List Char × JsonTree) :
    ((meaning.absorb? found a).bind fun s => meaning.absorb? s b) =
      (meaning.absorb? found b).bind fun s => meaning.absorb? s a := by
  cases ha : text? a.1 with
  | none => simp [meaning.absorb?_of_unreadable ha]
  | some first =>
    cases hb : text? b.1 with
    | none => simp [meaning.absorb?_of_unreadable hb]
    | some second =>
      cases hl : form.field? first with
      | none => simp [meaning.absorb?_of_unknown ha hl]
      | some left =>
        cases hr : form.field? second with
        | none => simp [meaning.absorb?_of_unknown hb hr]
        | some right => exact meaning.absorb?_comm_known ha hl hb hr found

theorem ofMembers?_perm {before after : List (List Char × JsonTree)} (h : before.Perm after) :
    meaning.ofMembers? before = meaning.ofMembers? after := by
  rw [ofMembers?, ofMembers?, foldlM_perm meaning.absorb?_comm h]

/-- A member with an unknown name says nothing, whatever its value. -/
theorem ofMembers?_unknown {key : List Char} {value : JsonTree} {name : String}
    (said : text? key = some name) (unknown : form.field? name = none)
    (members : List (List Char × JsonTree)) :
    meaning.ofMembers? ((key, value) :: members) = meaning.ofMembers? members := by
  rw [ofMembers?, List.foldlM_cons, meaning.absorb?_of_unknown said unknown]
  rfl

/-- A member gives way to another one of its field that means the same. -/
theorem ofMembers?_replaced {key word : List Char} {before after : JsonTree}
    {first second : String} {field : JsonField α} (hk : text? key = some first)
    (hf : form.field? first = some field) (hw : text? word = some second)
    (hs : form.field? second = some field)
    (same : ∀ change, meaning.change? field.name before = some change →
      meaning.change? field.name after = some change)
    {members : List (List Char × JsonTree)} {record : α}
    (h : meaning.ofMembers? ((key, before) :: members) = some record) :
    meaning.ofMembers? ((word, after) :: members) = some record := by
  rw [ofMembers?, List.foldlM_cons, meaning.absorb?_of_known hk hf] at h
  rw [ofMembers?, List.foldlM_cons, meaning.absorb?_of_known hw hs]
  cases read : meaning.change? field.name before with
  | none =>
    rw [read] at h
    simp at h
  | some change =>
    rw [read] at h
    rw [same change read]
    exact h

/-- A member that is taken in behind one of another name is taken in without it. -/
theorem absorb?_unseen {name : String} {seen later : Finset String} {record result : α}
    {member : List Char × JsonTree}
    (h : meaning.absorb? (insert name seen, record) member = some (later, result)) :
    ∃ fewer, meaning.absorb? (seen, record) member = some (fewer, result) ∧
      later = insert name fewer := by
  cases said : text? member.1 with
  | none =>
    rw [meaning.absorb?_of_unreadable said] at h
    cases h
  | some key =>
    cases known : form.field? key with
    | none =>
      rw [meaning.absorb?_of_unknown said known] at h
      cases h
      exact ⟨seen, meaning.absorb?_of_unknown said known _, rfl⟩
    | some field =>
      rw [meaning.absorb?_of_known said known] at h
      rw [meaning.absorb?_of_known said known]
      by_cases again : field.name ∈ insert name seen
      · rw [if_pos again] at h
        cases h
      · rw [if_neg again] at h
        rw [if_neg fun hs => again (Finset.mem_insert_of_mem hs)]
        obtain ⟨change, read, changed⟩ := Option.map_eq_some_iff.mp h
        cases changed
        exact ⟨_, by rw [read]; rfl, Finset.insert_comm _ _ _⟩

theorem foldlM_absorb?_unseen {name : String} {seen later : Finset String} {record result : α}
    {members : List (List Char × JsonTree)}
    (h : members.foldlM meaning.absorb? (insert name seen, record) = some (later, result)) :
    ∃ fewer, members.foldlM meaning.absorb? (seen, record) = some (fewer, result) ∧
      later = insert name fewer := by
  induction members generalizing seen record with
  | nil =>
    cases h
    exact ⟨seen, rfl, rfl⟩
  | cons member members ih =>
    rw [List.foldlM_cons] at h
    obtain ⟨⟨more, next⟩, first, others⟩ := Option.bind_eq_some_iff.mp h
    obtain ⟨fewer, absorbed, rfl⟩ := meaning.absorb?_unseen first
    obtain ⟨last, folded, rest⟩ := ih others
    refine ⟨last, ?_, rest⟩
    rw [List.foldlM_cons, absorbed]
    exact folded

/-- A member that need not be there and says what its absence says may be left out. -/
theorem ofMembers?_dropped {key : List Char} {value : JsonTree} {name : String}
    {field : JsonField α} (said : text? key = some name) (known : form.field? name = some field)
    (free : ∀ other ∈ form.fields, other.neededInObject = true → other.name ≠ field.name)
    (blank : ∀ change, meaning.change? field.name value = some change →
      change form.blank = form.blank)
    {members : List (List Char × JsonTree)} {record : α}
    (h : meaning.ofMembers? ((key, value) :: members) = some record) :
    meaning.ofMembers? members = some record := by
  rw [ofMembers?, List.foldlM_cons, meaning.absorb?_of_known said known,
    if_neg (Finset.notMem_empty _)] at h
  cases read : meaning.change? field.name value with
  | none =>
    rw [read] at h
    cases h
  | some change =>
    rw [read, Option.map_some, blank change read] at h
    obtain ⟨⟨later, result⟩, folded, complete⟩ := Option.bind_eq_some_iff.mp h
    obtain ⟨fewer, others, rfl⟩ := meaning.foldlM_absorb?_unseen folded
    rw [ofMembers?, others, Option.bind_some]
    rw [JsonRecord.complete?] at complete ⊢
    obtain ⟨all, same⟩ := Option.ite_none_right_eq_some.mp complete
    refine Option.ite_none_right_eq_some.mpr ⟨fun other ho needed => ?_, same⟩
    exact Finset.mem_of_mem_insert_of_ne (all other ho needed) (free other ho needed)

end RecordMeaning

end CompilerDriver

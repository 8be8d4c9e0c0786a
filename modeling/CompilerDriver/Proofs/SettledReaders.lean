import CompilerDriver.Proofs.RecordReading

namespace CompilerDriver

open JsonGrammar Utf8 JsonReader

variable {α β : Type}

namespace JsonGrammar

/-- Only a string begins with a quote, and only `null` with its letter. -/
theorem WellFormed.begins {text : List Char} (h : WellFormed .value text) :
    ∃ b bytes, octets text = b :: bytes ∧ isSpace b = false ∧
      (b ≠ ascii '\x22' ∨ ∃ s, Quoted s text) ∧
      (b ≠ ascii 'n' ∨ text = ['n', 'u', 'l', 'l']) := by
  cases h with
  | scalar h =>
    cases h with
    | null =>
      exact ⟨ascii 'n', _, octets_ascii (by decide) _, by decide, .inl (by decide), .inr rfl⟩
    | true =>
      exact ⟨ascii 't', _, octets_ascii (by decide) _, by decide, .inl (by decide),
        .inl (by decide)⟩
    | false =>
      exact ⟨ascii 'f', _, octets_ascii (by decide) _, by decide, .inl (by decide),
        .inl (by decide)⟩
    | string h =>
      obtain ⟨inside, _, begins⟩ := quoted_octets h []
      rw [List.append_nil] at begins
      exact ⟨_, _, begins, by decide, .inr ⟨_, h⟩, .inl (by decide)⟩
    | number h =>
      obtain ⟨b, bytes, begins, starts, _⟩ := JsonNumeral.skip_reads h ends_nil
      obtain ⟨visible, _, _, noNull, _, _, noQuote⟩ := JsonSkip.starts_spec starts
      rw [List.append_nil] at begins
      exact ⟨b, bytes, begins, visible, .inl noQuote, .inl noNull⟩
  | @container frame inside h =>
    have begins := JsonSkip.octets_container frame inside []
    rw [List.append_nil] at begins
    refine ⟨_, _, begins, ?_, .inl ?_, .inl ?_⟩ <;> cases frame <;> decide

end JsonGrammar

namespace JsonReader

/-- Reads a text to its end, or refuses it; it refuses what does not fit. -/
def Settles (reader : JsonReader α) (text : List Char) (fit : Prop) : Prop :=
  ∀ gap rest, Gap gap → Ends rest →
    (∃ fault, reader (octets gap ++ (octets text ++ rest)) = .error fault) ∨
      fit ∧ ∃ a, reader (octets gap ++ (octets text ++ rest)) = .ok (a, rest)

theorem Takes.settles {reader : JsonReader α} {text : List Char} {a : α} (h : Takes reader text a)
    {fit : Prop} (fits : fit) : Settles reader text fit :=
  fun gap rest hg hr => .inr ⟨fits, a, h gap rest hg hr⟩

theorem Settles.imp {reader : JsonReader α} {text : List Char} {fit other : Prop}
    (h : Settles reader text fit) (also : fit → other) : Settles reader text other :=
  fun gap rest hg hr => (h gap rest hg hr).imp_right (And.imp_left also)

theorem Settles.map {reader : JsonReader α} {text : List Char} {fit : Prop}
    (h : Settles reader text fit) (f : α → β) : Settles (f <$> reader) text fit := by
  intro gap rest hg hr
  show (∃ fault, (StateT.map f reader) _ = _) ∨ fit ∧ ∃ b, (StateT.map f reader) _ = _
  unfold StateT.map
  obtain ⟨fault, failed⟩ | ⟨fits, a, done⟩ := h gap rest hg hr
  · exact .inl ⟨fault, by rw [failed]; rfl⟩
  · exact .inr ⟨fits, f a, by rw [done]; rfl⟩

/-- What never gives a value gives an error. -/
theorem exists_error {reader : JsonReader α} {bytes : Bytes}
    (h : ∀ a rest, reader bytes ≠ .ok (a, rest)) : ∃ fault, reader bytes = .error fault := by
  cases read : reader bytes with
  | error fault => exact ⟨fault, rfl⟩
  | ok found => exact absurd read (h found.1 found.2)

theorem string_settles {text : List Char} (h : WellFormed .value text) :
    Settles string text (∃ s, Quoted s text) := by
  intro gap rest hg hr
  obtain ⟨b, bytes, begins, visible, quoted, _⟩ := h.begins
  by_cases quote : b = ascii '\x22'
  · obtain ⟨s, spelled⟩ := quoted.resolve_left (not_not_intro quote)
    exact (string_takes spelled).settles ⟨s, spelled⟩ gap rest hg hr
  · refine .inl (exists_error fun s after => ?_)
    rw [begins, List.cons_append, string, peek_gap hg visible]
    simp only [quote, if_false]
    exact wrongType_ne_ok _ _ _ _

theorem nullable_string_settles {text : List Char} (h : WellFormed .value text) :
    Settles (nullable string) text (∃ s, Nullable Quoted s text) := by
  intro gap rest hg hr
  obtain ⟨b, bytes, begins, visible, _, nulled⟩ := h.begins
  by_cases null : b = ascii 'n'
  · have spelled : Nullable Quoted none text := nulled.resolve_left (not_not_intro null) ▸ .null
    exact (nullable_takes spelled quoted_takes).settles ⟨none, spelled⟩ gap rest hg hr
  · have settled := (string_settles h).map some [] rest gap_nil hr
    rw [octets_nil, List.nil_append, begins, List.cons_append] at settled
    rw [begins, List.cons_append, nullable, peek_gap hg visible]
    simp only [null, if_false]
    refine settled.imp_right (And.imp_left fun spelled => ?_)
    obtain ⟨s, spelled⟩ := spelled
    exact ⟨some s, .value spelled⟩

theorem enclosed_of_error {close : Bytes → Except JsonFault Unit × Bytes} {inside : JsonReader α}
    {bytes : Bytes} {fault : JsonFault} (h : inside bytes = .error fault) :
    ∃ fault, enclosed close inside bytes = .error fault := by
  rw [enclosed, h]
  simp only
  split
  · exact ⟨_, rfl⟩
  · exact ⟨_, rfl⟩

variable {spells : α → List Char → Prop} {item : JsonReader β} {fit : α → Prop}

theorem itemsOnto_settles {first : Bool} {as : List α} {text : List Char}
    (h : Items spells first as text)
    (settles : ∀ a ∈ as, ∀ text, spells a text →
      Settles item text (fit a) ∧ BeginsApart (ascii ']') text) (found : List β)
    {fuel : Nat} (enough : as.length < fuel) (rest : Bytes) :
    (∃ fault, itemsOnto item fuel first found (octets text ++ ascii ']' :: rest) = .error fault) ∨
      (∀ a ∈ as, fit a) ∧ ∃ bs,
        itemsOnto item fuel first found (octets text ++ ascii ']' :: rest) =
          .ok (bs, ascii ']' :: rest) := by
  induction h generalizing found fuel with
  | @nil first gap hg =>
    obtain ⟨fuel, rfl⟩ := Nat.exists_eq_add_one.mpr enough
    rw [itemsOnto, bind_of_ok (hasItem_closed hg first rest)]
    exact .inr ⟨by simp, _, rfl⟩
  | @cons first a as before after text more hb ha head tail ih =>
    obtain ⟨fuel, rfl⟩ := Nat.exists_eq_add_one.mpr (Nat.zero_lt_of_lt enough)
    obtain ⟨settled, begins⟩ := settles a List.mem_cons_self text head
    have read := settled [] (octets more ++ ascii ']' :: rest) gap_nil
      (tail.ends (JsonSkip.ends_closing .list) rest)
    rw [octets_nil, List.nil_append] at read
    rw [octets_append, List.append_assoc, itemsOnto_next hb ha begins]
    obtain ⟨fault, failed⟩ | ⟨fits, c, done⟩ := read
    · exact .inl ⟨fault, bind_of_error failed⟩
    · rw [bind_of_ok done]
      have fewer : as.length < fuel := by
        rw [List.length_cons] at enough
        omega
      have later := ih (fun b hb => settles b (List.mem_cons_of_mem a hb)) (c :: found) fewer
      exact later.imp_right
        (And.imp_left fun others => List.forall_mem_cons.mpr ⟨fits, others⟩)

/-- A list is read up to its bracket or refused, and refused where an item does not fit. -/
theorem list_settles {as : List α} {gap text : List Char} (hg : Gap gap) (h : Listed spells as text)
    (settles : ∀ a ∈ as, ∀ text, spells a text →
      Settles item text (fit a) ∧ BeginsApart (ascii ']') text) (rest : Bytes) :
    (∃ fault, list item (octets gap ++ (octets text ++ rest)) = .error fault) ∨
      (∀ a ∈ as, fit a) ∧
        ∃ bs, list item (octets gap ++ (octets text ++ rest)) = .ok (bs, rest) := by
  obtain ⟨inside, items, whole, enough⟩ :=
    h.opened (fun a ha text spelled => (settles a ha text spelled).2.ne_nil) rest
  rw [list, whole, peek_gap hg (by decide)]
  simp only [if_true, take_bind]
  obtain ⟨fault, failed⟩ | ⟨fits, bs, done⟩ := itemsOnto_settles items settles [] enough rest
  · exact .inl (enclosed_of_error failed)
  · exact .inr ⟨fits, bs, enclosed_of_ok done (closeList_reads rest)⟩

end JsonReader

namespace JsonRecord

variable {form : JsonRecord α} {fit : JsonField α → List Char → Prop}

/-- The members of an object are all read or one of them is refused; one is refused where its value
does not fit the field that it belongs to. -/
theorem membersOnto_settles {first : Bool} {members : List (String × List Char)} {text : List Char}
    (h : Items Member first members text)
    (settles : ∀ field ∈ form.fields, ∀ text, WellFormed .value text →
      Settles field.read text (fit field text)) (seen : List String) (record : α) {fuel : Nat}
    (enough : members.length < fuel) (rest : Bytes) :
    (∃ fault, form.membersOnto fuel first seen record (octets text ++ ascii '\x7d' :: rest) =
      .error fault) ∨
      (∀ member ∈ members, ∀ field ∈ form.field? member.1, fit field member.2) ∧
        ∃ made, form.membersOnto fuel first seen record (octets text ++ ascii '\x7d' :: rest) =
          .ok (made, ascii '\x7d' :: rest) := by
  induction h generalizing seen record fuel with
  | @nil first gap hg =>
    obtain ⟨fuel, rfl⟩ := Nat.exists_eq_add_one.mpr enough
    rw [membersOnto, bind_of_ok (hasKey_closed hg first rest)]
    simp only [Bool.false_eq_true, if_false]
    cases form.missing? seen with
    | some field => exact .inl ⟨_, rfl⟩
    | none => exact .inr ⟨by simp, record, rfl⟩
  | @cons first member members before after text more hb ha head tail ih =>
    obtain ⟨fuel, rfl⟩ := Nat.exists_eq_add_one.mpr (Nat.zero_lt_of_lt enough)
    have fewer : members.length < fuel := by
      rw [List.length_cons] at enough
      omega
    obtain @⟨key, label, gap, value, hl, hg, wellFormed⟩ := head
    have ends : Ends (octets more ++ ascii '\x7d' :: rest) :=
      tail.ends (JsonSkip.ends_closing .object) rest
    have whole : octets (before ++ separator first ++ after ++ (label ++ gap ++ value) ++ more) ++
        ascii '\x7d' :: rest = octets (before ++ separator first ++ after) ++ (octets label ++
          (octets gap ++ (octets value ++ (octets more ++ ascii '\x7d' :: rest)))) := by
      simp
    obtain ⟨inside, middle, opened, keyed, coloned⟩ := label_reads hb ha hl first
      (octets gap ++ (octets value ++ (octets more ++ ascii '\x7d' :: rest)))
    rw [membersOnto, whole, bind_of_ok opened]
    simp only [if_true]
    rw [bind_of_ok keyed]
    cases known : form.field? key with
    | none =>
      simp only
      rw [bind_of_ok coloned, bind_of_ok (JsonSkip.value_takes wellFormed gap _ hg ends)]
      refine (ih seen record fewer).imp_right (And.imp_left fun others => ?_)
      exact List.forall_mem_cons.mpr ⟨by simp [known], others⟩
    | some field =>
      simp only
      split
      · exact .inl ⟨_, rfl⟩
      · rw [bind_of_ok coloned]
        obtain ⟨fault, failed⟩ | ⟨fits, change, done⟩ :=
          settles field (List.mem_of_find?_eq_some known) value wellFormed gap _ hg ends
        · exact .inl ⟨fault, bind_of_error failed⟩
        · rw [bind_of_ok done]
          have later := ih (field.name :: seen) (change record) fewer
          refine later.imp_right (And.imp_left fun others => ?_)
          exact List.forall_mem_cons.mpr ⟨by simpa [known] using fits, others⟩

theorem object_settles {members : List (String × List Char)} {text : List Char}
    (h : Object members text)
    (settles : ∀ field ∈ form.fields, ∀ text, WellFormed .value text →
      Settles field.read text (fit field text)) :
    Settles form.read text
        (∀ member ∈ members, ∀ field ∈ form.field? member.1, fit field member.2) ∧
      BeginsApart (ascii ']') text := by
  refine ⟨fun gap rest hg _ => ?_, h.begins⟩
  obtain ⟨inside, items, whole, enough⟩ := h.opened rest
  rw [JsonRecord.read, whole, peek_gap hg (by decide)]
  simp only [show ascii '\x7b' ≠ ascii '[' by decide, if_false, if_true, take_bind]
  obtain ⟨fault, failed⟩ | ⟨fits, record, done⟩ :=
    membersOnto_settles items settles [] form.blank enough rest
  · exact .inl (enclosed_of_error failed)
  · exact .inr ⟨fits, record, enclosed_of_ok done (closeObject_reads rest)⟩

end JsonRecord

end CompilerDriver

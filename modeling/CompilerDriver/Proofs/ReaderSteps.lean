import CompilerDriver.JsonScalar
import CompilerDriver.Proofs.JsonGrammar
import CompilerDriver.Proofs.Utf8Text

namespace CompilerDriver

open JsonGrammar Utf8

namespace JsonGrammar

theorem gap_nil : Gap [] := by
  simp [Gap]

theorem gap_append {a b : List Char} (ha : Gap a) (hb : Gap b) : Gap (a ++ b) := by
  intro c member
  exact (List.mem_append.mp member).elim (ha c) (hb c)

/-- Only white space stands before the first item. -/
theorem gap_first {before after : List Char} (hb : Gap before) (ha : Gap after) :
    Gap (before ++ separator true ++ after) :=
  gap_append (gap_append hb gap_nil) ha

/-- A comma stands before any other item. -/
theorem octets_separated (before after : List Char) (bytes : Bytes) :
    octets (before ++ separator false ++ after) ++ bytes =
      octets before ++ ascii ',' :: (octets after ++ bytes) := by
  simp [separator, octets_ascii]

end JsonGrammar

namespace JsonReader

variable {α β : Type}

theorem bind_eq_ok {reader : JsonReader α} {next : α → JsonReader β} {bytes rest : Bytes} {b : β} :
    (reader >>= next) bytes = .ok (b, rest) ↔
      ∃ a middle, reader bytes = .ok (a, middle) ∧ next a middle = .ok (b, rest) := by
  show (StateT.bind reader next) bytes = _ ↔ _
  unfold StateT.bind
  cases h : reader bytes with
  | error fault => simp [bind, Except.bind]
  | ok found =>
    obtain ⟨a, middle⟩ := found
    constructor
    · intro same
      exact ⟨a, middle, rfl, same⟩
    · rintro ⟨_, _, eq, same⟩
      cases eq
      exact same

theorem bind_of_ok {reader : JsonReader α} {next : α → JsonReader β} {bytes rest : Bytes} {a : α}
    (h : reader bytes = .ok (a, rest)) : (reader >>= next) bytes = next a rest := by
  show (StateT.bind reader next) bytes = _
  unfold StateT.bind
  rw [h]
  rfl

theorem bind_of_error {reader : JsonReader α} {next : α → JsonReader β} {bytes : Bytes}
    {fault : JsonFault} (h : reader bytes = .error fault) :
    (reader >>= next) bytes = .error fault := by
  show (StateT.bind reader next) bytes = _
  unfold StateT.bind
  rw [h]
  rfl

theorem peek_bind (next : Option UInt8 → JsonReader β) (bytes : Bytes) :
    (peek >>= next) bytes = next (bytes.dropWhile isSpace).head? (bytes.dropWhile isSpace) := by
  rfl

/-- What refuses a value never gives one. -/
theorem wrongType_ne_ok (expected : String) (bytes rest : Bytes) (a : α) :
    (wrongType expected : JsonReader α) bytes ≠ .ok (a, rest) := by
  intro h
  simp only [wrongType, bind_eq_ok] at h
  obtain ⟨found, middle, _, h⟩ := h
  repeat' split at h
  all_goals
    simp only [bind_eq_ok, failNext, failHere, reduceCtorEq, and_false, exists_false] at h

/-- A list is only read where a bracket opens it. -/
theorem list_opens {item : JsonReader α} {bytes rest : Bytes} {found : List α}
    (h : list item bytes = .ok (found, rest)) :
    (bytes.dropWhile isSpace).head? = some (ascii '[') := by
  unfold list at h
  rw [peek_bind] at h
  cases opening : (bytes.dropWhile isSpace).head? with
  | none =>
    rw [opening] at h
    cases h
  | some b =>
    rw [opening] at h
    by_cases bracket : b = ascii '['
    · rw [bracket]
    · exact absurd h (by simpa only [bracket, if_false] using wrongType_ne_ok _ _ _ _)

theorem dropWhile_gap {gap : List Char} (h : Gap gap) (rest : Bytes) :
    (octets gap ++ rest).dropWhile isSpace = rest.dropWhile isSpace := by
  induction gap with
  | nil => rfl
  | cons c gap ih =>
    have space : isSpace (ascii c) = true ∧ c.toNat < 0x80 := by
      obtain rfl | rfl | rfl | rfl := h c List.mem_cons_self <;> decide
    rw [octets_ascii space.2, List.cons_append, List.dropWhile_cons_of_pos space.1]
    exact ih fun d hd => h d (List.mem_cons_of_mem c hd)

/-- White space does not hide the octet behind it. -/
theorem peek_gap {gap : List Char} (h : Gap gap) {b : UInt8} (hb : isSpace b = false)
    (next : Option UInt8 → JsonReader β) (rest : Bytes) :
    (peek >>= next) (octets gap ++ b :: rest) = next (some b) (b :: rest) := by
  have dropped : (octets gap ++ b :: rest).dropWhile isSpace = b :: rest := by
    rw [dropWhile_gap h, List.dropWhile_cons_of_neg (by simp [hb])]
  rw [peek_bind, dropped]
  rfl

theorem peek_here {b : UInt8} (hb : isSpace b = false) (next : Option UInt8 → JsonReader β)
    (rest : Bytes) : (peek >>= next) (b :: rest) = next (some b) (b :: rest) :=
  peek_gap gap_nil hb next rest

theorem take_bind (next : Unit → JsonReader β) (b : UInt8) (rest : Bytes) :
    (take >>= next) (b :: rest) = next () rest := rfl

theorem hasItem_closed {gap : List Char} (h : Gap gap) (first : Bool) (rest : Bytes) :
    hasItem first (octets gap ++ ascii ']' :: rest) = .ok (false, ascii ']' :: rest) := by
  rw [hasItem, peek_gap h (by decide)]
  rfl

/-- Another item follows behind the comma that separates it. -/
theorem hasItem_next {before after : List Char} (hb : Gap before) (ha : Gap after) {b : UInt8}
    (visible : isSpace b = false) (more : b ≠ ascii ']') (first : Bool) (rest : Bytes) :
    hasItem first (octets (before ++ separator first ++ after) ++ b :: rest) =
      .ok (true, b :: rest) := by
  cases first with
  | true =>
    rw [hasItem, peek_gap (gap_first hb ha) visible]
    simp only [more, if_false, if_true]
    rfl
  | false =>
    rw [octets_separated, hasItem, peek_gap hb (by decide)]
    simp only [show ascii ',' ≠ ascii ']' by decide, if_false, if_true, Bool.false_eq_true,
      take_bind]
    rw [peek_gap ha visible]
    simp only [more, if_false]
    rfl

theorem hasKey_closed {gap : List Char} (h : Gap gap) (first : Bool) (rest : Bytes) :
    hasKey first (octets gap ++ ascii '\x7d' :: rest) = .ok (false, ascii '\x7d' :: rest) := by
  rw [hasKey, peek_gap h (by decide)]
  rfl

/-- The key of another member follows behind the comma that separates it. -/
theorem hasKey_next {before after : List Char} (hb : Gap before) (ha : Gap after) (first : Bool)
    (rest : Bytes) :
    hasKey first (octets (before ++ separator first ++ after) ++ ascii '\x22' :: rest) =
      .ok (true, rest) := by
  cases first with
  | true =>
    rw [hasKey, peek_gap (gap_first hb ha) (by decide)]
    rfl
  | false =>
    rw [octets_separated, hasKey, peek_gap hb (by decide)]
    simp only [show ascii ',' ≠ ascii '\x7d' by decide, if_false, if_true, Bool.false_eq_true,
      take_bind]
    rw [peek_gap ha (by decide)]
    rfl

theorem colon_reads {gap : List Char} (h : Gap gap) (rest : Bytes) :
    colon (octets gap ++ ascii ':' :: rest) = .ok ((), rest) := by
  rw [colon, peek_gap h (by decide)]
  rfl

/-- What can stand behind a value: nothing that goes on with a number. -/
def Ends (rest : Bytes) : Prop :=
  ∀ b ∈ rest.head?, isDigit b = false ∧ b ≠ ascii '.' ∧ b ≠ ascii 'e' ∧ b ≠ ascii 'E'

theorem ends_nil : Ends [] := by
  intro b hb
  cases hb

theorem Ends.not_exponent {b : UInt8} {rest : Bytes} (h : Ends (b :: rest)) :
    ¬(b = ascii 'e' || b = ascii 'E') = true := by
  obtain ⟨_, _, lower, upper⟩ := h b rfl
  simp only [lower, upper, decide_false, Bool.or_self, Bool.false_eq_true, not_false_eq_true]

theorem ends_comma (rest : Bytes) : Ends (ascii ',' :: rest) := by
  intro b hb
  cases hb
  decide

theorem ends_gap {gap : List Char} (h : Gap gap) {rest : Bytes} (hr : Ends rest) :
    Ends (octets gap ++ rest) := by
  cases gap with
  | nil => exact hr
  | cons c gap =>
    intro b hb
    obtain rfl | rfl | rfl | rfl := h c List.mem_cons_self <;>
      (rw [octets_ascii (by decide), List.cons_append, List.head?_cons] at hb
       cases hb
       decide)

/-- A text can be told by its first octet from white space and from what begins with `other`. -/
def BeginsApart (other : UInt8) (text : List Char) : Prop :=
  ∃ b bytes, octets text = b :: bytes ∧ isSpace b = false ∧ b ≠ other

theorem BeginsApart.ne_nil {other : UInt8} {text : List Char} (h : BeginsApart other text) :
    text ≠ [] := by
  obtain ⟨b, bytes, begins, _⟩ := h
  rintro rfl
  cases begins

/-- Reads a text as a value, and no more of what follows it. -/
def Takes (reader : JsonReader α) (text : List Char) (a : α) : Prop :=
  ∀ gap rest, Gap gap → Ends rest →
    reader (octets gap ++ (octets text ++ rest)) = .ok (a, rest)

theorem Takes.map {reader : JsonReader α} {text : List Char} {a : α} (h : Takes reader text a)
    (f : α → β) : Takes (f <$> reader) text (f a) := by
  intro gap rest hg hr
  show (StateT.map f reader) _ = _
  unfold StateT.map
  rw [h gap rest hg hr]
  rfl

end JsonReader

namespace JsonGrammar

open JsonReader

/-- What stands behind a value in a container ends it. -/
theorem Items.ends {α : Type} {spells : α → List Char → Prop} {as : List α} {text : List Char}
    (h : Items spells false as text) {close : UInt8} (hc : ∀ rest, Ends (close :: rest))
    (rest : Bytes) : Ends (octets text ++ close :: rest) := by
  cases h with
  | nil hg => exact ends_gap hg (hc rest)
  | @cons _ a as before after text more hb ha head tail =>
    rw [octets_append, octets_append, List.append_assoc, List.append_assoc, octets_separated]
    exact ends_gap hb (ends_comma _)

end JsonGrammar

end CompilerDriver

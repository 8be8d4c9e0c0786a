import CompilerDriver.Flags
import CompilerDriver.Proofs.RecordReading
import CompilerDriver.Proofs.WrittenText

namespace CompilerDriver

open JsonGrammar Utf8 JsonReader

variable {α β : Type}

namespace JsonGrammar

/-- What a container holds is well-formed as soon as each item of it is. -/
theorem Items.wellFormed {spells : α → List Char → Prop} {frame : JsonSkip.Frame} {first : Bool}
    {as : List α} {text : List Char} (h : Items spells first as text)
    (each : ∀ a ∈ as, ∀ text, spells a text →
      ∃ lead value, text = lead ++ value ∧ Prelude frame lead ∧ WellFormed .value value) :
    WellFormed (.inside frame first) text := by
  induction h with
  | nil hg => exact .nil hg
  | @cons first a as before after text more hb ha head tail ih =>
    obtain ⟨lead, value, rfl, prelude, whole⟩ := each a List.mem_cons_self text head
    have rest := ih fun b hb => each b (List.mem_cons_of_mem a hb)
    have all : WellFormed (.inside frame first) _ := .cons hb ha prelude whole rest
    rwa [List.append_assoc _ lead value] at all

theorem Listed.wellFormed {spells : α → List Char → Prop} {as : List α} {text : List Char}
    (h : Listed spells as text) (each : ∀ a ∈ as, ∀ text, spells a text → WellFormed .value text) :
    WellFormed .value text := by
  obtain ⟨items⟩ := h
  have inside : WellFormed (.inside .list true) _ := items.wellFormed fun a ha text spelled =>
    ⟨[], text, rfl, .list, each a ha text spelled⟩
  exact .container inside

theorem Object.wellFormed {members : List (String × List Char)} {text : List Char}
    (h : Object members text) : WellFormed .value text := by
  obtain ⟨items⟩ := h
  have inside : WellFormed (.inside .object true) _ := items.wellFormed fun _ _ _ spelled =>
    let ⟨label, gap, value⟩ := spelled
    ⟨_, _, rfl, .object label gap, value⟩
  exact .container inside

theorem head?_toDigits {n : Nat} (h : n ≠ 0) : (Nat.toDigits 10 n).head? ≠ some '0' := by
  have one : ∀ d < 10, d ≠ 0 → [Nat.digitChar d].head? ≠ some '0' := by decide
  induction n using Nat.strongRecOn with
  | ind n ih =>
    by_cases small : n < 10
    · rw [Nat.toDigits_of_lt_base small]
      exact one n small h
    · have large : 10 ≤ n := Nat.not_lt.mp small
      have front := ih (n / 10) (by omega) (by omega)
      rwa [Nat.toDigits_of_base_le (by decide) large,
        List.head?_append_of_ne_nil _ Nat.toDigits_ne_nil]

/-- Digits that do not begin with a zero. -/
theorem digits_of_lead {text : List Char} (nonempty : text ≠ []) (lead : text.head? ≠ some '0')
    (h : ∀ d ∈ text, d.isDigit = true) : Digits (Nat.ofDigitChars 10 text 0) text := by
  obtain ⟨c, more, rfl⟩ := List.exists_cons_of_ne_nil nonempty
  exact .positive (h c List.mem_cons_self) (fun same => lead (same ▸ rfl))
    fun d hd => h d (List.mem_cons_of_mem c hd)

theorem digits_toDigits (n : Nat) : Digits n (Nat.toDigits 10 n) := by
  by_cases zero : n = 0
  · subst zero
    exact .zero
  have all := digits_of_lead Nat.toDigits_ne_nil (head?_toDigits zero) fun d hd =>
    Nat.isDigit_of_mem_toDigits (by decide) (by decide) hd
  rwa [Nat.ofDigitChars_ten_toDigits] at all

theorem integer_toString (n : Int) : Integer n (toString n).toList := by
  cases n with
  | ofNat n =>
    rw [show toString (Int.ofNat n) = String.ofList (Nat.toDigits 10 n) from rfl,
      String.toList_ofList]
    exact .natural (digits_toDigits n)
  | negSucc n =>
    rw [show toString (Int.negSucc n) = "-" ++ String.ofList (Nat.toDigits 10 (n + 1)) from rfl,
      String.toList_append, String.toList_ofList, String.toList_ofList]
    exact .negative (digits_toDigits (n + 1)) (Nat.succ_ne_zero n)

theorem Integer.wellFormed {n : Int} {text : List Char} (h : Integer n text) :
    WellFormed .value text := by
  refine .scalar (.number ?_)
  cases h with
  | natural h => simpa using Numeral.positive h .none .none
  | negative h => simpa using Numeral.negative h .none .none

end JsonGrammar

namespace JsonValue

/-- Values that stand between quotes or brackets. -/
inductive Enclosed : JsonValue → Prop
  | string (s : String) : Enclosed (.string s)
  | list (items : List JsonValue) : Enclosed (.list items)
  | object (members : List (String × JsonValue)) : Enclosed (.object members)

theorem Enclosed.begins {value : JsonValue} (h : Enclosed value) :
    ∃ b bytes, value.write = b :: bytes ∧ isSpace b = false ∧ b ≠ ascii 'n' := by
  cases h with
  | string s => exact ⟨_, _, rfl, by decide, by decide⟩
  | list items => cases items <;> exact ⟨_, _, rfl, by decide, by decide⟩
  | object members => cases members <;> exact ⟨_, _, rfl, by decide, by decide⟩

end JsonValue

namespace JsonReader

/-- A reader takes the text that is written for a value as `a`. -/
def Recovers (reader : JsonReader α) (value : JsonValue) (a : α) : Prop :=
  ∃ text, WellFormed .value text ∧ octets text = value.write ∧ Takes reader text a

theorem Recovers.document {reader : JsonReader α} {value : JsonValue} {a : α}
    (h : Recovers reader value a) : document reader value.write = .ok a := by
  obtain ⟨text, _, written, takes⟩ := h
  have read := takes [] [] gap_nil ends_nil
  rw [octets_nil, List.nil_append, List.append_nil] at read
  rw [JsonReader.document, front, whole, ← written, read]
  rfl

theorem Recovers.map {reader : JsonReader α} {value : JsonValue} {a : α}
    (h : Recovers reader value a) (f : α → β) : Recovers (f <$> reader) value (f a) := by
  obtain ⟨text, wellFormed, written, takes⟩ := h
  exact ⟨text, wellFormed, written, takes.map f⟩

theorem string_recovers (s : String) : Recovers string (.string s) s := by
  obtain ⟨text, quoted, written⟩ := JsonText.string_written s
  exact ⟨text, .scalar (.string quoted), written, string_takes quoted⟩

/-- Every integer of 64 bits. -/
theorem integer_recovers {n : Int} (range : -twoTo 63 ≤ n ∧ n < twoTo 63) :
    Recovers integer (.number (.integer n)) n := by
  have spelled := integer_toString n
  refine ⟨_, spelled.wellFormed, ?_, integer_takes spelled range⟩
  rw [← encode_ofList, String.ofList_toList]
  rfl

/-- A reader that goes by the octet it finds reads a text as soon as it does so there. -/
theorem recovers_of_peeked {next : Option UInt8 → JsonReader α} {value : JsonValue} {a : α}
    {text : List Char} {b : UInt8} {bytes : Bytes} (wellFormed : WellFormed .value text)
    (written : octets text = value.write) (begins : octets text = b :: bytes)
    (visible : isSpace b = false)
    (reads : ∀ rest, Ends rest → next (some b) (b :: (bytes ++ rest)) = .ok (a, rest)) :
    Recovers (peek >>= next) value a := by
  refine ⟨text, wellFormed, written, fun gap rest hg hr => ?_⟩
  rw [begins, List.cons_append, peek_gap hg visible]
  exact reads rest hr

/-- A string is read behind its opening quote. -/
theorem recovers_of_quoted {next : Option UInt8 → JsonReader α} {s : String} {a : α}
    (reads : ∀ inside rest, Letters s.toList inside → next (some (ascii '\x22'))
      (ascii '\x22' :: (octets inside ++ ascii '\x22' :: rest)) = .ok (a, rest)) :
    Recovers (peek >>= next) (.string s) a := by
  obtain ⟨text, quoted, written⟩ := JsonText.string_written s
  refine ⟨text, .scalar (.string quoted), written, fun gap rest hg _ => ?_⟩
  obtain ⟨inside, letters, begins⟩ := quoted_octets quoted rest
  rw [begins, peek_gap hg (by decide)]
  exact reads inside rest letters

/-- A truth value is read behind the letter of its word. -/
theorem recovers_of_bool {next : Option UInt8 → JsonReader α} {f : Bool → α}
    (yes : ∀ rest, next (some (ascii 't')) (octets ['t', 'r', 'u', 'e'] ++ rest) =
      .ok (f true, rest))
    (no : ∀ rest, next (some (ascii 'f')) (octets ['f', 'a', 'l', 's', 'e'] ++ rest) =
      .ok (f false, rest)) (b : Bool) :
    Recovers (peek >>= next) (.bool b) (f b) := by
  cases b with
  | true => exact recovers_of_peeked (.scalar .true) rfl rfl (by decide) fun rest _ => yes rest
  | false => exact recovers_of_peeked (.scalar .false) rfl rfl (by decide) fun rest _ => no rest

theorem boolean_recovers (b : Bool) : Recovers boolean (.bool b) b :=
  recovers_of_bool (f := id) (fun _ => rfl) (fun _ => rfl) b

/-- A spelling that is known makes its choice. -/
theorem choice_recovers {known : List (String × α)} {name : String} {a : α}
    (h : known.lookup name = some a) : Recovers (choice known) (.string name) a := by
  refine recovers_of_quoted fun inside rest letters => ?_
  simp only [if_true, take_bind]
  rw [spelling, bind_of_ok (JsonString.body_reads letters rest), h]
  rfl

theorem null_recovers (reader : JsonReader α) : Recovers (nullable reader) .null none := by
  have never (a : α) (text : List Char) (h : False) :
      Takes reader text a ∧ BeginsApart (ascii 'n') text := h.elim
  have takes := nullable_takes .null never
  exact ⟨['n', 'u', 'l', 'l'], .scalar .null, rfl, takes⟩

/-- A value that cannot be taken for `null` is read as if there had to be one. -/
theorem present_recovers {reader : JsonReader α} {value : JsonValue} {a : α}
    (h : Recovers reader value a) (enclosed : value.Enclosed) :
    Recovers (nullable reader) value (some a) := by
  obtain ⟨text, wellFormed, written, takes⟩ := h
  have apart : BeginsApart (ascii 'n') text := by
    rw [BeginsApart, written]
    exact enclosed.begins
  have known (b : α) (spelling : List Char) (h : b = a ∧ spelling = text) :
      Takes reader spelling b ∧ BeginsApart (ascii 'n') spelling := by
    obtain ⟨rfl, rfl⟩ := h
    exact ⟨takes, apart⟩
  exact ⟨text, wellFormed, written, nullable_takes (.value ⟨rfl, rfl⟩) known⟩

theorem nullable_recovers {reader : JsonReader α} {write : α → JsonValue} {o : Option α}
    (each : ∀ a ∈ o, Recovers reader (write a) a ∧ (write a).Enclosed) :
    Recovers (nullable reader) (.ofOption write o) o := by
  cases o with
  | none => exact null_recovers reader
  | some a =>
    obtain ⟨recovers, enclosed⟩ := each a rfl
    exact present_recovers recovers enclosed

theorem list_recovers {item : JsonReader α} {write : α → JsonValue} (as : List α)
    (each : ∀ a ∈ as, Recovers item (write a) a) :
    Recovers (list item) (.list (as.map write)) as := by
  have spelled : ∀ a ∈ as, ∃ text, (WellFormed .value text ∧ Takes item text a) ∧
      octets text = (write a).write := fun a ha =>
    let ⟨text, wellFormed, written, takes⟩ := each a ha
    ⟨text, ⟨wellFormed, takes⟩, written⟩
  obtain ⟨text, listed, written⟩ := JsonText.list_written spelled
  refine ⟨text, listed.wellFormed fun _ _ _ h => h.1, written, fun gap rest hg _ => ?_⟩
  exact list_reads hg listed (fun a _ _ h => ⟨h.2, JsonSkip.value_begins h.1⟩) rest

end JsonReader

end CompilerDriver

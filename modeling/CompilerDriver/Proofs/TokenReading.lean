import CompilerDriver.Proofs.DocumentNumeral
import CompilerDriver.Proofs.JsonTree
import CompilerDriver.Proofs.SettledReaders

namespace CompilerDriver

open JsonGrammar Utf8 JsonReader

variable {α β : Type}

namespace JsonReader

/-- What is read and what is left, if nothing is refused. -/
def got (reader : JsonReader α) (bytes : Bytes) : Option (α × Bytes) :=
  (reader bytes).toOption

theorem got_of_ok {reader : JsonReader α} {bytes rest : Bytes} {a : α}
    (h : reader bytes = .ok (a, rest)) : got reader bytes = some (a, rest) := by
  rw [got, h]
  rfl

theorem got_of_error {reader : JsonReader α} {bytes : Bytes} {fault : JsonFault}
    (h : reader bytes = .error fault) : got reader bytes = none := by
  rw [got, h]
  rfl

theorem got_bind (reader : JsonReader α) (next : α → JsonReader β) (bytes : Bytes) :
    got (reader >>= next) bytes =
      (got reader bytes).bind fun found => got (next found.1) found.2 := by
  cases h : reader bytes with
  | error fault => rw [got_of_error (bind_of_error h), got_of_error h, Option.bind_none]
  | ok found =>
    obtain ⟨a, rest⟩ := found
    rw [got_of_ok h, Option.bind_some, got, bind_of_ok h]
    rfl

theorem got_map (f : α → β) (reader : JsonReader α) (bytes : Bytes) :
    got (f <$> reader) bytes = (got reader bytes).map fun found => (f found.1, found.2) := by
  rw [map_eq_pure_bind, got_bind]
  cases got reader bytes <;> rfl

theorem got_wrongType (expected : String) (bytes : Bytes) :
    got (wrongType expected : JsonReader α) bytes = none := by
  cases h : (wrongType expected : JsonReader α) bytes with
  | error fault => exact got_of_error h
  | ok found => exact absurd h (wrongType_ne_ok expected bytes found.2 found.1)

/-- What was read of the inside of a container, once the container has been closed. -/
def closedBy (close : Bytes → Except JsonFault Unit × Bytes) (found : α × Bytes) :
    Option (α × Bytes) :=
  match close found.2 with
  | (.ok _, rest) => some (found.1, rest)
  | (.error _, _) => none

theorem got_enclosed (close : Bytes → Except JsonFault Unit × Bytes) (inside : JsonReader α)
    (bytes : Bytes) :
    got (enclosed close inside) bytes = (got inside bytes).bind (closedBy close) := by
  cases h : inside bytes with
  | error fault =>
    have failed : ∃ fault, enclosed close inside bytes = .error fault := enclosed_of_error h
    rw [got_of_error failed.choose_spec, got_of_error h, Option.bind_none]
  | ok found =>
    obtain ⟨a, middle⟩ := found
    rw [got_of_ok h, Option.bind_some, got, enclosed, h, closedBy]
    simp only
    cases close middle with
    | mk verdict rest => cases verdict <;> rfl

/-- What the inside of a container gives is given behind the bracket that closes it. -/
theorem got_enclosed_of_got {close : Bytes → Except JsonFault Unit × Bytes}
    {inside : JsonReader α} {bytes ending rest : Bytes} {o : Option α}
    (h : got inside bytes = o.map fun a => (a, ending)) (closed : close ending = (.ok (), rest)) :
    got (enclosed close inside) bytes = o.map fun a => (a, rest) := by
  rw [got_enclosed, h]
  cases o with
  | none => rfl
  | some a => rw [Option.map_some, Option.bind_some, closedBy, closed, Option.map_some]

end JsonReader

namespace JsonString

/-- The inside of a string that cannot be read, whatever stands behind its closing quote. -/
def Unreadable (inside : List Char) : Prop :=
  ∀ found rest, ∃ fault,
    octetsOnto found (octets inside ++ ascii '\x22' :: rest) = .error fault

theorem octetsOnto_of_error {bytes : Bytes} {fault : JsonFault} (h : escape bytes = .error fault)
    (found : Bytes) : octetsOnto found (ascii '\\' :: bytes) = .error fault := by
  rw [octetsOnto, if_neg (by decide), if_pos rfl]
  split <;> simp_all

theorem Unreadable.letter {c : Char} {text more : List Char} (letter : Letter c text)
    (h : Unreadable more) : Unreadable (text ++ more) := by
  intro found rest
  obtain ⟨fault, failed⟩ := h ((String.utf8EncodeChar c).reverse ++ found) rest
  refine ⟨fault, ?_⟩
  rw [octets_append, List.append_assoc, octetsOnto_letter letter, failed]

/-- A code unit that is none of a character is refused with its escape. -/
theorem unreadable_of_codePoint {digits more : List Char}
    (h : ∀ rest, ∃ fault,
      codePoint (octets digits ++ (octets more ++ ascii '\x22' :: rest)) = .error fault) :
    Unreadable ('\\' :: 'u' :: (digits ++ more)) := by
  intro found rest
  obtain ⟨fault, failed⟩ := h rest
  refine ⟨fault, ?_⟩
  have whole : octets ('\\' :: 'u' :: (digits ++ more)) ++ ascii '\x22' :: rest =
      ascii '\\' :: ascii 'u' :: (octets digits ++ (octets more ++ ascii '\x22' :: rest)) := by
    simp [octets_ascii]
  rw [whole]
  exact octetsOnto_of_error ((escape_unit _).trans failed) found

theorem codePoint_of_high {n : Nat} {digits : List Char} (h : CodeUnit n digits)
    (high : 0xD800 ≤ n ∧ n ≤ 0xDBFF) (rest : Bytes) :
    codePoint (octets digits ++ rest) = lowHalf n rest := by
  rw [codePoint, unit_reads h]
  simp only
  rw [if_neg (by omega), if_pos high]

/-- A first half of a pair is followed by its second half, or refused. -/
theorem unreadable_of_high {n : Nat} {digits more : List Char} (h : CodeUnit n digits)
    (high : 0xD800 ≤ n ∧ n ≤ 0xDBFF)
    (apart : ∀ rest, ∃ fault, lowHalf n (octets more ++ ascii '\x22' :: rest) = .error fault) :
    Unreadable ('\\' :: 'u' :: (digits ++ more)) := by
  refine unreadable_of_codePoint fun rest => ?_
  rw [codePoint_of_high h high]
  exact apart rest

theorem lowHalf_of_ne {b : UInt8} (h : b ≠ ascii '\\') (n : Nat) (rest : Bytes) :
    ∃ fault, lowHalf n (b :: rest) = .error fault := by
  rw [lowHalf.eq_def]
  simp only [if_neg h]
  exact ⟨_, rfl⟩

theorem lowHalf_of_unit {m : Nat} {digits : List Char} (h : CodeUnit m digits)
    (apart : ¬(0xDC00 ≤ m ∧ m ≤ 0xDFFF)) (n : Nat) (rest : Bytes) :
    ∃ fault, lowHalf n (ascii '\\' :: ascii 'u' :: (octets digits ++ rest)) = .error fault := by
  rw [lowHalf.eq_def]
  simp only [if_true, unit_reads h, if_neg apart]
  exact ⟨_, rfl⟩

theorem lowHalf_of_short {name c : Char} (h : (name, c) ∈ shortEscapes) (n : Nat) (rest : Bytes) :
    ∃ fault, lowHalf n (ascii '\\' :: ascii name :: rest) = .error fault := by
  have other : ascii name ≠ ascii 'u' := by
    intro same
    have known := (shortEscape?_eq_some h).1
    rw [same] at known
    cases known
  rw [lowHalf.eq_def]
  simp only [if_true, if_neg other]
  exact ⟨_, rfl⟩

theorem codeUnit_lt {n : Nat} {digits : List Char} (h : CodeUnit n digits) : n < 0x10000 := by
  have below {n : Nat} {c : Char} (h : HexDigit n c) : n < 16 := by
    cases h <;> assumption
  obtain ⟨ha, hb, hc, hd⟩ := h
  have := below ha
  have := below hb
  have := below hc
  have := below hd
  omega

theorem exists_front_utf8EncodeChar (c : Char) :
    ∃ b bytes, String.utf8EncodeChar c = b :: bytes := by
  have some := length_le_octets [c]
  rw [octets_cons, octets_nil, List.append_nil] at some
  exact List.exists_cons_of_ne_nil (List.ne_nil_of_length_pos some)

/-- Behind the first half of a pair only the second half can be read. -/
theorem unreadable_or_pair {n : Nat} {digits more : List Char} (h : CodeUnit n digits)
    (high : 0xD800 ≤ n ∧ n ≤ 0xDBFF) (tail : Inside more) :
    Unreadable ('\\' :: 'u' :: (digits ++ more)) ∨
      ∃ m second rest, CodeUnit m second ∧ (0xDC00 ≤ m ∧ m ≤ 0xDFFF) ∧
        more = '\\' :: 'u' :: (second ++ rest) ∧ Inside rest := by
  cases tail with
  | nil => exact .inl (unreadable_of_high h high fun rest => lowHalf_of_ne (by decide) n rest)
  | @plain c more control quote backslash tail =>
    refine .inl (unreadable_of_high h high fun rest => ?_)
    obtain ⟨b, bytes, begins⟩ := exists_front_utf8EncodeChar c
    have first : b ∈ String.utf8EncodeChar c := begins ▸ List.mem_cons_self
    rw [octets_cons, begins, List.cons_append, List.cons_append]
    exact lowHalf_of_ne (plain_of_mem control quote backslash first).2.1 n _
  | @short name c more known tail =>
    refine .inl (unreadable_of_high h high fun rest => ?_)
    rw [octets_ascii (by decide), octets_ascii (shortEscape?_eq_some known).2]
    exact lowHalf_of_short known n _
  | @unit m second more hs tail =>
    by_cases low : 0xDC00 ≤ m ∧ m ≤ 0xDFFF
    · exact .inr ⟨m, second, more, hs, low, rfl, tail⟩
    · refine .inl (unreadable_of_high h high fun rest => ?_)
      rw [octets_ascii (by decide), octets_ascii (by decide), octets_append,
        List.cons_append, List.cons_append, List.append_assoc]
      exact lowHalf_of_unit hs low n _

/-- What may stand between quotes is either the text of some characters or unreadable, by induction
on its length, since a pair takes two escapes at once. -/
theorem letters_or_unreadable {inside : List Char} (h : Inside inside) :
    (∃ cs, Letters cs inside) ∨ Unreadable inside := by
  have extend {c : Char} {text more : List Char} (letter : Letter c text)
      (later : (∃ cs, Letters cs more) ∨ Unreadable more) :
      (∃ cs, Letters cs (text ++ more)) ∨ Unreadable (text ++ more) := by
    rcases later with ⟨cs, letters⟩ | unreadable
    · exact .inl ⟨c :: cs, .cons letter letters⟩
    · exact .inr (unreadable.letter letter)
  induction length : inside.length using Nat.strongRecOn generalizing inside with
  | ind k ih =>
    have later {text more : List Char} (parts : inside = text ++ more) (some : text ≠ [])
        (tail : Inside more) : (∃ cs, Letters cs more) ∨ Unreadable more := by
      have positive := List.length_pos_iff.mpr some
      have shorter : more.length < k := by
        rw [← length, parts, List.length_append]
        omega
      exact ih more.length shorter tail rfl
    cases h with
    | nil => exact .inl ⟨[], .nil⟩
    | @plain c more control quote backslash tail =>
      exact extend (.plain control quote backslash) (later rfl (List.cons_ne_nil c []) tail)
    | @short name c more h tail =>
      exact extend (.short h) (later rfl (List.cons_ne_nil '\\' [name]) tail)
    | @unit n digits more h tail =>
      by_cases low : 0xDC00 ≤ n ∧ n ≤ 0xDFFF
      · refine .inr (unreadable_of_codePoint fun rest => ?_)
        rw [codePoint, unit_reads h]
        simp only
        rw [if_pos low]
        exact ⟨_, rfl⟩
      by_cases high : 0xD800 ≤ n ∧ n ≤ 0xDBFF
      · rcases unreadable_or_pair h high tail with
          unreadable | ⟨m, second, rest, hs, pair, rfl, others⟩
        · exact .inr unreadable
        · have value : (Char.ofNat ((n - 0xD800) * 0x400 + (m - 0xDC00) + 0x10000)).toNat =
              (n - 0xD800) * 0x400 + (m - 0xDC00) + 0x10000 := val_ofNat (by omega)
          have parts : '\\' :: 'u' :: (digits ++ '\\' :: 'u' :: (second ++ rest)) =
              '\\' :: 'u' :: (digits ++ '\\' :: 'u' :: second) ++ rest := by
            simp
          rw [parts]
          exact extend (.pair h hs high pair value) (later parts (List.cons_ne_nil _ _) others)
      · have value : (Char.ofNat n).toNat = n := by
          have := codeUnit_lt h
          exact val_ofNat (by omega)
        exact extend (.unit (value.symm ▸ h))
          (later rfl (List.cons_ne_nil '\\' ('u' :: digits)) tail)

end JsonString

namespace JsonTree

/-- What a string or a key says. -/
def text? (inside : List Char) : Option String :=
  (got JsonString.body (octets inside ++ [ascii '\x22'])).map Prod.fst

/-- The number that a token writes. -/
def number? (token : List Char) : Option JsonNumber :=
  (got JsonNumeral.signed (octets token)).map Prod.fst

theorem text?_of_letters {name : String} {inside : List Char}
    (h : Letters name.toList inside) : text? inside = some name := by
  rw [text?, got_of_ok (JsonString.body_reads h [])]
  rfl

/-- A string is read up to its closing quote, and what it says does not depend on what follows. -/
theorem got_body {inside : List Char} (h : Inside inside) (rest : Bytes) :
    got JsonString.body (octets inside ++ ascii '\x22' :: rest) =
      (text? inside).map fun s => (s, rest) := by
  rcases JsonString.letters_or_unreadable h with ⟨cs, letters⟩ | unreadable
  · have spelled : Letters (String.ofList cs).toList inside := by rwa [String.toList_ofList]
    rw [text?_of_letters spelled, got_of_ok (JsonString.body_reads spelled rest)]
    rfl
  · have refused (rest : Bytes) :
        got JsonString.body (octets inside ++ ascii '\x22' :: rest) = none := by
      obtain ⟨fault, failed⟩ := unreadable [] rest
      rw [got, JsonString.body, failed]
      rfl
    rw [text?, refused, refused]
    rfl

end JsonTree

namespace JsonNumeral

/-- What is read of a text does not depend on what follows it. -/
def Settled (reader : JsonReader α) (text : List Char) : Prop :=
  ∃ o : Option α, ∀ rest, Ends rest → got reader (octets text ++ rest) = o.map fun a => (a, rest)

section

variable {reader other : JsonReader α} {text tail : List Char}

theorem settled_of_ok (a : α)
    (h : ∀ rest, Ends rest → reader (octets text ++ rest) = .ok (a, rest)) :
    Settled reader text :=
  ⟨some a, fun rest hr => got_of_ok (h rest hr)⟩

theorem settled_of_error
    (h : ∀ rest, Ends rest → ∃ fault, reader (octets text ++ rest) = .error fault) :
    Settled reader text := by
  refine ⟨none, fun rest hr => ?_⟩
  obtain ⟨fault, failed⟩ := h rest hr
  exact got_of_error failed

/-- Reading goes on in another way with a part of the text. -/
theorem Settled.of_eq (h : Settled other tail)
    (same : ∀ rest, Ends rest → reader (octets text ++ rest) = other (octets tail ++ rest)) :
    Settled reader text := by
  obtain ⟨o, read⟩ := h
  refine ⟨o, fun rest hr => ?_⟩
  rw [got, same rest hr]
  exact read rest hr

end

variable (negative : Bool)

theorem finish_settled (n : Nat) (e : Int) : Settled (finish negative n e) [] := by
  cases found : StepwiseDecimal.toDouble? n e with
  | some x => exact settled_of_ok _ fun rest _ => finish_of_found negative found rest
  | none =>
    refine settled_of_error fun rest _ => ⟨.fixed .numberOutOfRange rest, ?_⟩
    rw [finish_eq]
    beta_reduce
    rw [found]
    rfl

theorem whole_settled (n : Nat) : Settled (whole negative n) [] := by
  cases negative with
  | false => exact settled_of_ok (.integer n) fun rest _ => rfl
  | true =>
    by_cases small : n ≠ 0 ∧ n ≤ twoTo 63
    · refine settled_of_ok (.integer (-n)) fun rest _ => ?_
      rw [whole, if_neg (by decide), if_pos small]
      rfl
    · refine (finish_settled true n 0).of_eq fun rest _ => ?_
      rw [whole, if_neg (by decide), if_neg small]

/-- Digits are taken as long as they fit; those that are left do not depend on what follows. -/
theorem absorb_digits {digits : List Char} (h : ∀ d ∈ digits, d.isDigit = true)
    (limit n count : Nat) :
    ∃ m k left, (∀ d ∈ left, d.isDigit = true) ∧ ∀ rest, startsWithDigit rest = false →
      absorb limit n count (octets digits ++ rest) = (m, k, octets left ++ rest) := by
  induction digits generalizing n count with
  | nil =>
    refine ⟨n, count, [], by simp, fun rest hr => ?_⟩
    cases rest with
    | nil => rfl
    | cons b rest =>
      have noDigit : isDigit b = false := hr
      simp [absorb, noDigit]
  | cons c digits ih =>
    obtain ⟨digit, _, single⟩ := digit_octet (h c List.mem_cons_self)
    have others : ∀ d ∈ digits, d.isDigit = true := fun d hd => h d (List.mem_cons_of_mem c hd)
    by_cases fits : n * 10 + digitOf (ascii c) ≤ limit
    · obtain ⟨m, k, left, all, read⟩ := ih others (n * 10 + digitOf (ascii c)) (count + 1)
      refine ⟨m, k, left, all, fun rest hr => ?_⟩
      rw [octets_ascii single, List.cons_append, absorb, if_pos (by simp [digit, fits]),
        read rest hr]
    · refine ⟨n, count, c :: digits, h, fun rest _ => ?_⟩
      rw [octets_ascii single, List.cons_append, absorb, if_neg (by simp [fits])]

theorem startsWithDigit_digits {digits : List Char} (h : ∀ d ∈ digits, d.isDigit = true)
    {rest : Bytes} (hr : startsWithDigit rest = false) :
    startsWithDigit (octets digits ++ rest) = decide (digits ≠ []) := by
  cases digits with
  | nil => exact hr
  | cons c digits =>
    obtain ⟨digit, _, single⟩ := digit_octet (h c List.mem_cons_self)
    rw [octets_ascii single]
    exact digit

theorem exponentDigits_settled (n : Nat) (start : Int) (down : Bool) (first : Nat)
    {digits : List Char} (h : ∀ d ∈ digits, d.isDigit = true) :
    Settled (exponentDigits negative n start down first) digits := by
  obtain ⟨e, k, left, all, read⟩ := absorb_digits h greatestExponent first 0
  by_cases done : left = []
  · subst done
    refine (finish_settled negative n (if down then start - e else start + e)).of_eq
      fun rest hr => ?_
    have noDigit := startsWithDigit_of_ends hr
    rw [exponentDigits, read rest noDigit]
    simp only [octets_nil, List.nil_append, noDigit, Bool.false_eq_true, if_false]
  by_cases large : n ≠ 0 && !down
  · refine settled_of_error fun rest hr => ?_
    have noDigit := startsWithDigit_of_ends hr
    rw [exponentDigits, read rest noDigit]
    simp only [startsWithDigit_digits all noDigit, ne_eq, done, not_false_eq_true, decide_true,
      if_true, large]
    exact ⟨_, rfl⟩
  · refine settled_of_ok (.fraction (Double.zero negative)) fun rest hr => ?_
    have noDigit := startsWithDigit_of_ends hr
    rw [exponentDigits, read rest noDigit]
    simp only [startsWithDigit_digits all noDigit, ne_eq, done, not_false_eq_true, decide_true,
      if_true, large, skipDigits_reads all noDigit]
    rfl

theorem exponentSign_digits {sign : List Char} (hs : sign = [] ∨ sign = ['-'] ∨ sign = ['+'])
    {b : UInt8} (digit : isDigit b = true) :
    ∃ down, ∀ bytes, exponentSign (octets sign ++ b :: bytes) = (down, b :: bytes) := by
  rcases hs with rfl | rfl | rfl
  · have noMinus : b ≠ ascii '-' := by rintro rfl; cases digit
    have noPlus : b ≠ ascii '+' := by rintro rfl; cases digit
    refine ⟨false, fun bytes => ?_⟩
    rw [octets_nil, List.nil_append, exponentSign, if_neg noMinus, if_neg noPlus]
  · exact ⟨true, fun bytes => rfl⟩
  · exact ⟨false, fun bytes => rfl⟩

theorem exponent_settled (n : Nat) (start : Int) {sign digits : List Char}
    (hs : sign = [] ∨ sign = ['-'] ∨ sign = ['+']) (some : digits ≠ [])
    (h : ∀ d ∈ digits, d.isDigit = true) :
    Settled (exponent negative n start) (sign ++ digits) := by
  obtain ⟨c, digits, rfl⟩ := List.exists_cons_of_ne_nil some
  obtain ⟨digit, _, single⟩ := digit_octet (h c List.mem_cons_self)
  obtain ⟨down, signed⟩ := exponentSign_digits hs digit
  have later := exponentDigits_settled negative n start down (digitOf (ascii c))
    fun d hd => h d (List.mem_cons_of_mem c hd)
  refine later.of_eq fun rest hr => ?_
  rw [octets_append, octets_ascii single, List.append_assoc, List.cons_append, exponent, signed]
  simp only [digit, if_true]

theorem afterDigits_settled (n : Nat) (e : Int) {text : List Char} (h : Exponent text) :
    Settled (afterDigits negative n e) text := by
  cases h with
  | none =>
    refine (finish_settled negative n e).of_eq fun rest hr => ?_
    rw [octets_nil, List.nil_append, finish_of_ends negative n e hr]
  | @some letter sign digits hl hs nonempty h =>
    refine (exponent_settled negative n e hs nonempty h).of_eq fun rest hr => ?_
    rcases hl with rfl | rfl <;>
      rw [octets_ascii (by decide), List.cons_append, afterDigits, if_pos (by decide)]

theorem decimals_settled (n : Nat) (e : Int) {digits text : List Char}
    (hd : ∀ d ∈ digits, d.isDigit = true) (h : Exponent text) :
    Settled (decimals negative n e) (digits ++ text) := by
  obtain ⟨m, k, left, all, read⟩ := absorb_digits hd greatestSignificand n 0
  by_cases none : left = [] ∧ k = 0
  · obtain ⟨rfl, rfl⟩ := none
    refine settled_of_error fun rest hr => ?_
    have noDigit := startsWithDigit_exponent h hr
    rw [octets_append, List.append_assoc, decimals, read _ noDigit]
    simp only [octets_nil, List.nil_append, noDigit, Bool.false_eq_true, if_false, if_true]
    exact ⟨_, rfl⟩
  · refine (afterDigits_settled negative m (e - k) h).of_eq fun rest hr => ?_
    have noDigit := startsWithDigit_exponent h hr
    rw [octets_append, List.append_assoc, decimals, read _ noDigit]
    simp only [startsWithDigit_digits all noDigit, skipDigits_reads all noDigit]
    by_cases done : left = []
    · have counted : k ≠ 0 := fun zero => none ⟨done, zero⟩
      subst done
      simp only [ne_eq, not_true_eq_false, decide_false, Bool.false_eq_true, if_false, counted,
        octets_nil, List.nil_append]
    · simp only [ne_eq, done, not_false_eq_true, decide_true, if_true]

theorem afterWhole_settled (n : Nat) {fraction text : List Char} (hf : Fraction fraction)
    (h : Exponent text) : Settled (afterWhole negative n) (fraction ++ text) := by
  cases hf with
  | none =>
    cases h with
    | none =>
      refine (whole_settled negative n).of_eq fun rest hr => ?_
      rw [List.append_nil, octets_nil, List.nil_append, afterWhole_of_ends hr]
    | @some letter sign digits hl hs nonempty h =>
      refine (exponent_settled negative n 0 hs nonempty h).of_eq fun rest hr => ?_
      rcases hl with rfl | rfl <;>
        rw [List.nil_append, octets_ascii (by decide), List.cons_append, afterWhole,
          if_neg (by decide), if_pos (by decide)]
  | @some digits nonempty hd =>
    refine (decimals_settled negative n 0 hd h).of_eq fun rest hr => ?_
    rw [List.cons_append, octets_ascii (by decide), List.cons_append, afterWhole, if_pos rfl]

theorem afterLongWhole_settled (n : Nat) (e : Int) {fraction text : List Char}
    (hf : Fraction fraction) (h : Exponent text) :
    Settled (afterLongWhole negative n e) (fraction ++ text) := by
  cases hf with
  | none =>
    refine (afterDigits_settled negative n e h).of_eq fun rest hr => ?_
    rw [List.nil_append]
    cases h with
    | none =>
      cases rest with
      | nil => rfl
      | cons b rest => rw [octets_nil, List.nil_append, afterLongWhole, if_neg (hr b rfl).2.1]
    | some hl =>
      rcases hl with rfl | rfl <;>
        rw [octets_ascii (by decide), List.cons_append, afterLongWhole, if_neg (by decide)]
  | @some digits nonempty hd =>
    refine (decimals_settled negative n e hd h).of_eq fun rest hr => ?_
    rw [List.cons_append, octets_ascii (by decide), List.cons_append, afterLongWhole, if_pos rfl]

theorem startsWithDigit_fraction {fraction text : List Char} (hf : Fraction fraction)
    (h : Exponent text) {rest : Bytes} (hr : Ends rest) :
    startsWithDigit (octets (fraction ++ text) ++ rest) = false := by
  cases hf with
  | none => exact startsWithDigit_exponent h hr
  | some =>
    rw [List.cons_append, octets_ascii (by decide)]
    rfl

theorem unsigned_settled {n : Nat} {digits fraction text : List Char} (hw : Digits n digits)
    (hf : Fraction fraction) (h : Exponent text) :
    Settled (unsigned negative) (digits ++ (fraction ++ text)) := by
  cases hw with
  | zero =>
    refine (afterWhole_settled negative 0 hf h).of_eq fun rest hr => ?_
    exact unsigned_reads .zero (startsWithDigit_fraction hf h hr) (Nat.zero_le _) negative
  | @positive c more lead nonzero hd =>
    obtain ⟨digit, _, single⟩ := digit_octet lead
    obtain ⟨m, k, left, all, read⟩ := absorb_digits hd greatestSignificand (digitOf (ascii c)) 0
    have opened (rest : Bytes) (hr : Ends rest) :
        unsigned negative (octets (c :: more ++ (fraction ++ text)) ++ rest) =
          if left = [] then afterWhole negative m (octets (fraction ++ text) ++ rest)
          else afterLongWhole negative m left.length (octets (fraction ++ text) ++ rest) := by
      have noDigit := startsWithDigit_fraction hf h hr
      rw [octets_append, octets_ascii single, List.append_assoc, List.cons_append, unsigned,
        if_neg (digit_octet_ne lead (by decide) nonzero), if_pos digit, read _ noDigit]
      simp only [startsWithDigit_digits all noDigit, skipDigits_reads all noDigit]
      by_cases done : left = []
      · simp [done]
      · simp [done]
    by_cases done : left = []
    · refine (afterWhole_settled negative m hf h).of_eq fun rest hr => ?_
      rw [opened rest hr, if_pos done]
    · refine (afterLongWhole_settled negative m left.length hf h).of_eq fun rest hr => ?_
      rw [opened rest hr, if_neg done]

/-- What a number is read as does not depend on what follows it. -/
theorem signed_settled {token : List Char} (h : Numeral token) : Settled signed token := by
  cases h with
  | @positive n digits fraction text hw hf he =>
    refine (unsigned_settled false hw hf he).of_eq fun rest hr => ?_
    obtain ⟨c, more, rfl, digit, _⟩ := digits_cases hw
    have noSign : ascii c ≠ ascii '-' :=
      digit_octet_ne digit (by decide) (by rintro rfl; cases digit)
    rw [List.append_assoc, List.cons_append, octets_ascii (digit_octet digit).2.2, List.cons_append,
      signed, if_neg noSign]
  | @negative n digits fraction text hw hf he =>
    refine (unsigned_settled true hw hf he).of_eq fun rest hr => ?_
    rw [List.append_assoc, octets_ascii (by decide), List.cons_append, signed, if_pos rfl]

end JsonNumeral

namespace JsonTree

theorem got_signed {token : List Char} (h : Numeral token) {rest : Bytes} (hr : Ends rest) :
    got JsonNumeral.signed (octets token ++ rest) =
      (number? token).map fun n => (n, rest) := by
  obtain ⟨o, read⟩ := JsonNumeral.signed_settled h
  have alone := read [] ends_nil
  rw [List.append_nil] at alone
  rw [read rest hr, number?, alone]
  cases o <;> rfl

end JsonTree

end CompilerDriver

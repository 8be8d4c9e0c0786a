import CompilerDriver.Proofs.NumberReading
import CompilerDriver.Proofs.StringReading

namespace CompilerDriver

open JsonGrammar Utf8 JsonReader

namespace JsonString

/-- A string is passed over once its opening quote has been taken. -/
theorem skip_plain {run : Bytes} (h : ∀ b ∈ run, Plain b) (rest : Bytes) :
    skip (run ++ rest) = skip rest := by
  induction run with
  | nil => rfl
  | cons b run ih =>
    obtain ⟨quote, backslash, control⟩ := h b List.mem_cons_self
    rw [List.cons_append, skip.eq_def]
    simp only
    rw [if_neg quote, if_neg backslash, if_neg control,
      ih fun d hd => h d (List.mem_cons_of_mem b hd)]

theorem skip_short {name : UInt8} (h : (shortEscape? name).isSome = true) (rest : Bytes) :
    skip (ascii '\\' :: name :: rest) = skip rest := by
  rw [skip, if_neg (by decide), if_pos rfl]
  simp only [h, if_true]

theorem skip_of_unit {bytes rest : Bytes} {n : Nat} (h : unit bytes = .ok (n, rest)) :
    skip (ascii '\\' :: ascii 'u' :: bytes) = skip rest := by
  rw [skip, if_neg (by decide), if_pos rfl]
  simp only [show (shortEscape? (ascii 'u')).isSome = false by decide, Bool.false_eq_true,
    if_false, if_true]
  split <;> simp_all

theorem skip_unit {n : Nat} {digits : List Char} (h : CodeUnit n digits) (rest : Bytes) :
    skip (ascii '\\' :: ascii 'u' :: (octets digits ++ rest)) = skip rest :=
  skip_of_unit (unit_reads h rest)

/-- A string is passed over whether or not it can be read. -/
theorem skip_inside {inside : List Char} (h : Inside inside) (rest : Bytes) :
    skip (octets inside ++ ascii '\x22' :: rest) = .ok ((), rest) := by
  induction h with
  | nil =>
    rw [octets_nil, List.nil_append, skip.eq_def]
    simp only [if_true]
  | plain control quote backslash tail ih =>
    rw [octets_cons, List.append_assoc,
      skip_plain (fun b hb => plain_of_mem control quote backslash hb), ih]
  | short h tail ih =>
    obtain ⟨known, small⟩ := shortEscape?_eq_some h
    rw [octets_ascii (by decide), octets_ascii small, List.cons_append, List.cons_append,
      skip_short (by rw [known]; rfl), ih]
  | unit h tail ih =>
    rw [octets_ascii (by decide), octets_ascii (by decide), octets_append, List.cons_append,
      List.cons_append, List.append_assoc, skip_unit h, ih]

end JsonString

namespace JsonNumeral

theorem skipUnsigned_reads {n : Nat} {text : List Char} (h : Digits n text) {rest : Bytes}
    (hr : startsWithDigit rest = false) :
    skipUnsigned (octets text ++ rest) = skipAfterWhole rest := by
  cases h with
  | zero =>
    rw [octets_ascii (by decide), List.cons_append, skipUnsigned, if_pos rfl]
    show (if startsWithDigit rest = true then _ else _) = _
    rw [hr]
    rfl
  | positive lead nonzero h =>
    obtain ⟨digit, _, single⟩ := digit_octet lead
    rw [octets_ascii single, List.cons_append, skipUnsigned,
      if_neg (digit_octet_ne lead (by decide) nonzero), if_pos digit, skipDigits_reads h hr]

theorem skipAfterDecimals_of_ends {rest : Bytes} (h : Ends rest) :
    skipAfterDecimals rest = .ok ((), rest) := by
  cases rest with
  | nil => rfl
  | cons b rest =>
    rw [skipAfterDecimals, if_neg h.not_exponent]

/-- The octet of a digit that comes first in a run of digits. -/
theorem skipDigits_cases {digits : List Char} (ne : digits ≠ [])
    (h : ∀ d ∈ digits, d.isDigit = true) {rest : Bytes} (hr : startsWithDigit rest = false) :
    ∃ b bytes, octets digits ++ rest = b :: bytes ∧ isDigit b = true ∧
      (skipDigits 0 bytes).2 = rest := by
  cases digits with
  | nil => exact absurd rfl ne
  | cons c digits =>
    obtain ⟨digit, _, single⟩ := digit_octet (h c List.mem_cons_self)
    refine ⟨ascii c, octets digits ++ rest, by rw [octets_ascii single]; rfl, digit, ?_⟩
    rw [skipDigits_reads (fun d hd => h d (List.mem_cons_of_mem c hd)) hr]

theorem exponentSign_reads {sign : List Char} (h : sign = [] ∨ sign = ['-'] ∨ sign = ['+'])
    {b : UInt8} (digit : isDigit b = true) (bytes : Bytes) :
    (exponentSign (octets sign ++ b :: bytes)).2 = b :: bytes := by
  rcases h with rfl | rfl | rfl
  · have noMinus : b ≠ ascii '-' := by rintro rfl; cases digit
    have noPlus : b ≠ ascii '+' := by rintro rfl; cases digit
    rw [octets_nil, List.nil_append, exponentSign, if_neg noMinus, if_neg noPlus]
  · rfl
  · rfl

theorem startsWithDigit_exponent {text : List Char} (h : Exponent text) {rest : Bytes}
    (hr : Ends rest) : startsWithDigit (octets text ++ rest) = false := by
  cases h with
  | none => exact startsWithDigit_of_ends hr
  | some hl => rcases hl with rfl | rfl <;> (rw [octets_ascii (by decide)]; rfl)

theorem skipAfterDecimals_reads {text : List Char} (h : Exponent text) {rest : Bytes}
    (hr : Ends rest) : skipAfterDecimals (octets text ++ rest) = .ok ((), rest) := by
  cases h with
  | none => exact skipAfterDecimals_of_ends hr
  | @some letter sign digits hl hs nonempty h =>
    obtain ⟨b, bytes, starts, digit, left⟩ :=
      skipDigits_cases nonempty h (startsWithDigit_of_ends hr)
    have isLetter : (ascii letter = ascii 'e' || ascii letter = ascii 'E') = true ∧
        letter.toNat < 0x80 := by
      rcases hl with rfl | rfl <;> decide
    rw [octets_ascii isLetter.2, octets_append, List.cons_append, List.append_assoc, starts,
      skipAfterDecimals, if_pos isLetter.1, skipExponent, exponentSign_reads hs digit]
    simp only [digit, if_true, left]

/-- Without decimals an exponent follows at once, or nothing does. -/
theorem skipAfterWhole_exponent {text : List Char} (h : Exponent text) {rest : Bytes}
    (hr : Ends rest) :
    skipAfterWhole (octets text ++ rest) = skipAfterDecimals (octets text ++ rest) := by
  cases h with
  | none =>
    cases rest with
    | nil => rfl
    | cons b rest =>
      rw [octets_nil, List.nil_append, skipAfterWhole, if_neg (hr b rfl).2.1]
  | some hl => rcases hl with rfl | rfl <;> (rw [octets_ascii (by decide)]; rfl)

theorem skipAfterWhole_reads {fraction exponent : List Char} (hf : Fraction fraction)
    (he : Exponent exponent) {rest : Bytes} (hr : Ends rest) :
    skipAfterWhole (octets fraction ++ (octets exponent ++ rest)) = .ok ((), rest) := by
  have noDigit := startsWithDigit_exponent he hr
  have afterDecimals := skipAfterDecimals_reads he hr
  cases hf with
  | none => rw [octets_nil, List.nil_append, skipAfterWhole_exponent he hr, afterDecimals]
  | @some digits nonempty h =>
    rw [octets_ascii (by decide), List.cons_append, skipAfterWhole, if_pos rfl,
      skipDigits_reads h noDigit]
    simp only
    have some : ¬0 + digits.length = 0 := by
      rw [Nat.zero_add]
      exact fun none => nonempty (List.length_eq_zero_iff.mp none)
    rw [if_neg some, afterDecimals]

theorem skipUnsigned_numeral {n : Nat} {whole fraction exponent : List Char} (hw : Digits n whole)
    (hf : Fraction fraction) (he : Exponent exponent) {rest : Bytes} (hr : Ends rest) :
    skipUnsigned (octets (whole ++ fraction ++ exponent) ++ rest) = .ok ((), rest) := by
  have noDigit : startsWithDigit (octets fraction ++ (octets exponent ++ rest)) = false := by
    cases hf with
    | none => exact startsWithDigit_exponent he hr
    | some => rw [octets_ascii (by decide)]; rfl
  rw [octets_append, octets_append, List.append_assoc, List.append_assoc,
    skipUnsigned_reads hw noDigit, skipAfterWhole_reads hf he hr]

/-- Any number is passed over, an integer or not. -/
theorem skip_reads {text : List Char} (h : Numeral text) {rest : Bytes} (hr : Ends rest) :
    ∃ b bytes, octets text ++ rest = b :: bytes ∧ starts b = true ∧
      skip (b :: bytes) = .ok ((), rest) := by
  cases h with
  | @positive n whole fraction exponent hw hf he =>
    obtain ⟨c, more, rfl, digit, _⟩ := digits_cases hw
    obtain ⟨octet, _, single⟩ := digit_octet digit
    have noSign : ascii c ≠ ascii '-' :=
      digit_octet_ne digit (by decide) (by rintro rfl; cases digit)
    have read := skipUnsigned_numeral hw hf he hr
    rw [List.cons_append, List.cons_append, octets_ascii single] at read ⊢
    refine ⟨_, _, rfl, by rw [starts, octet, Bool.or_true], ?_⟩
    rw [skip, if_neg noSign]
    exact read
  | negative hw hf he =>
    rw [octets_ascii (by decide)]
    exact ⟨_, _, rfl, by decide, skipUnsigned_numeral hw hf he hr⟩

end JsonNumeral

namespace JsonSkip

theorem word_reads (expected rest : Bytes) : word expected (expected ++ rest) = .ok ((), rest) := by
  induction expected with
  | nil => rfl
  | cons b expected ih =>
    rw [List.cons_append, word]
    simp only [if_true, ih]

theorem starts_spec {b : UInt8} (h : JsonNumeral.starts b = true) :
    isSpace b = false ∧ Frame.ofOpening? b = none ∧ b ≠ ascii ']' ∧ b ≠ ascii 'n' ∧
      b ≠ ascii 't' ∧ b ≠ ascii 'f' ∧ b ≠ ascii '\x22' := by
  rw [JsonNumeral.starts, Bool.or_eq_true] at h
  rcases h with minus | digit
  · rw [beq_iff_eq.mp minus]
    decide
  · have other {c : Char} (h : isDigit (ascii c) = false) : b ≠ ascii c := by
      rintro rfl
      exact absurd digit (by rw [h]; decide)
    refine ⟨JsonNumeral.isSpace_of_digit digit, ?_, other (by decide), other (by decide),
      other (by decide), other (by decide), other (by decide)⟩
    have noList : b ≠ Frame.list.opening := other (c := '[') (by decide)
    have noObject : b ≠ Frame.object.opening := other (c := '\x7b') (by decide)
    rw [Frame.ofOpening?, if_neg noList, if_neg noObject]

/-- What a scalar begins with tells it from a container. -/
theorem scalar_reads {text : List Char} (h : Scalar text) {rest : Bytes} (hr : Ends rest) :
    ∃ b bytes, octets text ++ rest = b :: bytes ∧ isSpace b = false ∧
      Frame.ofOpening? b = none ∧ b ≠ ascii ']' ∧ scalar (b :: bytes) = .ok ((), rest) := by
  cases h with
  | null =>
    refine ⟨ascii 'n', _, rfl, by decide, by decide, by decide, ?_⟩
    rw [scalar, peek_here (by decide)]
    exact word_reads (octets ['n', 'u', 'l', 'l']) rest
  | true =>
    refine ⟨ascii 't', _, rfl, by decide, by decide, by decide, ?_⟩
    rw [scalar, peek_here (by decide)]
    exact word_reads (octets ['t', 'r', 'u', 'e']) rest
  | false =>
    refine ⟨ascii 'f', _, rfl, by decide, by decide, by decide, ?_⟩
    rw [scalar, peek_here (by decide)]
    exact word_reads (octets ['f', 'a', 'l', 's', 'e']) rest
  | string h =>
    obtain ⟨inside, letters, quoted⟩ := quoted_octets h rest
    refine ⟨_, _, quoted, by decide, by decide, by decide, ?_⟩
    rw [scalar, peek_here (by decide)]
    exact JsonString.skip_inside letters.inside rest
  | number h =>
    obtain ⟨b, bytes, begins, starts, read⟩ := JsonNumeral.skip_reads h hr
    obtain ⟨visible, noFrame, noEnd, n, t, f, quote⟩ := starts_spec starts
    refine ⟨b, bytes, begins, visible, noFrame, noEnd, ?_⟩
    rw [scalar, peek_here visible]
    simp only [n, t, f, quote, if_false, starts, if_true]
    exact read

/-- How reading goes on when the containers around a value have been left as far as they end. -/
def proceed (fuel : Nat) : List Frame → JsonReader Unit
  | [] => pure ()
  | .list :: outer => run fuel (.list :: outer)
  | .object :: outer => do
    key
    run fuel (.object :: outer)

/-- How reading goes on behind a value. -/
def resume (fuel : Nat) (frames : List Frame) : JsonReader Unit :=
  leave frames >>= proceed fuel

theorem run_succ (fuel : Nat) (frames : List Frame) :
    run (fuel + 1) frames = step frames >>= proceed fuel := by
  rw [run]
  congr 1

/-- What is no container is passed over in one step. -/
theorem run_of_scalar {gap : List Char} (hg : Gap gap) {b : UInt8} {bytes rest : Bytes}
    (visible : isSpace b = false) (noFrame : Frame.ofOpening? b = none)
    (read : scalar (b :: bytes) = .ok ((), rest)) (fuel : Nat) (frames : List Frame) :
    run (fuel + 1) frames (octets gap ++ b :: bytes) = resume fuel frames rest := by
  rw [run_succ, step, bind_assoc, peek_gap hg visible]
  simp only [noFrame, bind_assoc]
  rw [bind_of_ok read]
  rfl

theorem resume_closed {gap : List Char} (hg : Gap gap) (frame : Frame) (fuel : Nat)
    (outer : List Frame) (rest : Bytes) :
    resume fuel (frame :: outer) (octets gap ++ frame.closing :: rest) =
      resume fuel outer rest := by
  have visible : isSpace frame.closing = false := by cases frame <;> decide
  have noComma : frame.closing ≠ ascii ',' := by cases frame <;> decide
  rw [resume, leave, bind_assoc, peek_gap hg visible]
  simp only [noComma, if_false, if_true, bind_assoc]
  rfl

theorem resume_comma {gap : List Char} (hg : Gap gap) (frame : Frame) (fuel : Nat)
    (outer : List Frame) (rest : Bytes) :
    resume fuel (frame :: outer) (octets gap ++ ascii ',' :: rest) =
      proceed fuel (frame :: outer) rest := by
  rw [resume, leave, bind_assoc, peek_gap hg (by decide)]
  simp only [if_true, bind_assoc]
  rfl

theorem ofOpening?_opening (frame : Frame) : Frame.ofOpening? frame.opening = some frame := by
  cases frame <;> decide

/-- A container is entered, or left at once where its bracket stands next. -/
theorem run_enters {outside inside : List Char} (ho : Gap outside) (hi : Gap inside)
    (frame : Frame) (fuel : Nat) (outer : List Frame) {b : UInt8} (visible : isSpace b = false)
    (bytes : Bytes) :
    run (fuel + 1) outer (octets outside ++ frame.opening :: (octets inside ++ b :: bytes)) =
      ((if b = frame.closing then do take; leave outer else return frame :: outer) >>=
        proceed fuel) (b :: bytes) := by
  have opens : isSpace frame.opening = false := by cases frame <;> decide
  rw [run_succ, step, bind_assoc, peek_gap ho opens]
  simp only [ofOpening?_opening, enter, bind_assoc, take_bind]
  rw [peek_gap hi visible]

theorem run_empty {outside inside : List Char} (ho : Gap outside) (hi : Gap inside) (frame : Frame)
    (fuel : Nat) (outer : List Frame) (rest : Bytes) :
    run (fuel + 1) outer
      (octets outside ++ frame.opening :: (octets inside ++ frame.closing :: rest)) =
        resume fuel outer rest := by
  have visible : isSpace frame.closing = false := by cases frame <;> decide
  rw [run_enters ho hi frame fuel outer visible]
  simp only [if_true, bind_assoc, take_bind]
  rfl

theorem run_opened {outside inside : List Char} (ho : Gap outside) (hi : Gap inside)
    (frame : Frame) (fuel : Nat) (outer : List Frame) {b : UInt8} (visible : isSpace b = false)
    (more : b ≠ frame.closing) (bytes : Bytes) :
    run (fuel + 1) outer (octets outside ++ frame.opening :: (octets inside ++ b :: bytes)) =
      proceed fuel (frame :: outer) (b :: bytes) := by
  rw [run_enters ho hi frame fuel outer visible]
  simp only [more, if_false]
  rfl

/-- The octet of a closing bracket ends whatever it stands behind. -/
theorem ends_closing (frame : Frame) (rest : Bytes) : Ends (frame.closing :: rest) := by
  intro b hb
  cases hb
  cases frame <;> decide

theorem octets_container (frame : Frame) (inside : List Char) (rest : Bytes) :
    octets (opening frame :: (inside ++ [closing frame])) ++ rest =
      frame.opening :: (octets inside ++ frame.closing :: rest) := by
  have opens : (opening frame).toNat < 0x80 := by cases frame <;> decide
  have closes : (closing frame).toNat < 0x80 := by cases frame <;> decide
  rw [octets_ascii opens, octets_append, octets_ascii closes, octets_nil]
  cases frame <;> simp [opening, closing, Frame.opening, Frame.closing]

end JsonSkip

end CompilerDriver

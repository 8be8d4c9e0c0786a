import CompilerDriver.Proofs.ReaderSteps

namespace CompilerDriver

open JsonGrammar Utf8

namespace JsonNumeral

open JsonReader (Ends Takes)

theorem digit_octet {c : Char} (h : c.isDigit = true) :
    isDigit (ascii c) = true ∧ digitOf (ascii c) = c.toNat - '0'.toNat ∧ c.toNat < 0x80 := by
  simp only [Char.isDigit, ge_iff_le, Bool.and_eq_true, decide_eq_true_eq] at h
  have low : 48 ≤ c.toNat := h.1
  have high : c.toNat ≤ 57 := h.2
  have octet : (ascii c).toNat = c.toNat := toNat_ofNat_of_lt (by omega)
  refine ⟨?_, ?_, by omega⟩
  · rw [isDigit, Bool.and_eq_true, decide_eq_true_eq, decide_eq_true_eq, UInt8.le_iff_toNat_le,
      UInt8.le_iff_toNat_le, octet]
    exact ⟨low, high⟩
  · rw [digitOf, octet]
    rfl

theorem le_ofDigitChars (n : Nat) (digits : List Char) : n ≤ Nat.ofDigitChars 10 digits n := by
  induction digits generalizing n with
  | nil => simp
  | cons c digits ih =>
    rw [Nat.ofDigitChars_cons]
    have later := ih (10 * n + (c.toNat - '0'.toNat))
    omega

theorem startsWithDigit_of_ends {rest : Bytes} (h : Ends rest) : startsWithDigit rest = false := by
  cases rest with
  | nil => rfl
  | cons b rest => exact (h b rfl).1

theorem absorb_reads {limit : Nat} {digits : List Char} (h : ∀ d ∈ digits, d.isDigit = true)
    {rest : Bytes} (hr : startsWithDigit rest = false) (n count : Nat)
    (small : Nat.ofDigitChars 10 digits n ≤ limit) :
    absorb limit n count (octets digits ++ rest) =
      (Nat.ofDigitChars 10 digits n, count + digits.length, rest) := by
  induction digits generalizing n count with
  | nil =>
    cases rest with
    | nil => rfl
    | cons b rest =>
      have noDigit : isDigit b = false := hr
      simp [absorb, noDigit]
  | cons c digits ih =>
    obtain ⟨digit, value, single⟩ := digit_octet (h c List.mem_cons_self)
    rw [Nat.ofDigitChars_cons] at small ⊢
    have step : n * 10 + digitOf (ascii c) = 10 * n + (c.toNat - '0'.toNat) := by
      rw [value, Nat.mul_comm]
    have bound := le_ofDigitChars (10 * n + (c.toNat - '0'.toNat)) digits
    have fits : (isDigit (ascii c) && decide (n * 10 + digitOf (ascii c) ≤ limit)) = true := by
      rw [digit, step, Bool.true_and, decide_eq_true_eq]
      exact Nat.le_trans bound small
    rw [octets_ascii single, List.cons_append, absorb, if_pos fits, step,
      ih (fun d hd => h d (List.mem_cons_of_mem c hd)) _ _ small, List.length_cons,
      Nat.add_right_comm, Nat.add_assoc]

theorem skipDigits_reads {digits : List Char} (h : ∀ d ∈ digits, d.isDigit = true)
    {rest : Bytes} (hr : startsWithDigit rest = false) (count : Nat) :
    skipDigits count (octets digits ++ rest) = (count + digits.length, rest) := by
  induction digits generalizing count with
  | nil =>
    cases rest with
    | nil => rfl
    | cons b rest =>
      have noDigit : isDigit b = false := hr
      simp [skipDigits, noDigit]
  | cons c digits ih =>
    obtain ⟨digit, _, single⟩ := digit_octet (h c List.mem_cons_self)
    rw [octets_ascii single, List.cons_append, skipDigits, if_pos digit,
      ih (fun d hd => h d (List.mem_cons_of_mem c hd)), List.length_cons, Nat.add_right_comm,
      Nat.add_assoc]

/-- The octet that a numeral without a sign begins with. -/
theorem digits_cases {n : Nat} {text : List Char} (h : Digits n text) :
    ∃ c more, text = c :: more ∧ c.isDigit = true ∧ (∀ d ∈ more, d.isDigit = true) ∧
      n = Nat.ofDigitChars 10 text 0 ∧ (c = '0' → more = []) := by
  cases h with
  | zero => exact ⟨'0', [], rfl, rfl, by simp, rfl, fun _ => rfl⟩
  | @positive c more lead nonzero h =>
    exact ⟨c, more, rfl, lead, h, rfl, fun zero => absurd zero nonzero⟩

/-- A digit is no other character. -/
theorem digit_octet_ne {c d : Char} (hc : c.isDigit = true) (hd : d.toNat < 0x80) (ne : c ≠ d) :
    ascii c ≠ ascii d := by
  obtain ⟨_, _, single⟩ := digit_octet hc
  exact fun same => ne ((octet_inj single hd).mp same)

theorem unsigned_reads {n : Nat} {text : List Char} (h : Digits n text) {rest : Bytes}
    (hr : startsWithDigit rest = false) (small : n ≤ greatestSignificand) (negative : Bool) :
    unsigned negative (octets text ++ rest) = afterWhole negative n rest := by
  cases h with
  | zero =>
    rw [octets_ascii (by decide), List.cons_append, unsigned, if_pos rfl]
    show (if startsWithDigit rest = true then _ else _) = _
    rw [hr]
    rfl
  | @positive c more lead nonzero h =>
    obtain ⟨digit, value, single⟩ := digit_octet lead
    rw [octets_ascii single, List.cons_append, unsigned]
    rw [if_neg (digit_octet_ne lead (by decide) nonzero), if_pos digit]
    rw [Nat.ofDigitChars_cons] at small ⊢
    have first : digitOf (UInt8.ofNat c.toNat) = 10 * 0 + (c.toNat - '0'.toNat) := by
      rw [value]; omega
    rw [first, absorb_reads h hr _ _ small]
    simp [hr]

theorem afterWhole_of_ends {rest : Bytes} (h : Ends rest) (negative : Bool) (n : Nat) :
    afterWhole negative n rest = whole negative n rest := by
  cases rest with
  | nil => rfl
  | cons b rest =>
    rw [afterWhole, if_neg (h b rfl).2.1, if_neg h.not_exponent]

/-- An integer of 64 bits is read as itself. -/
theorem signed_reads {n : Int} {text : List Char} (h : Integer n text)
    (range : -twoTo 63 ≤ n ∧ n < twoTo 63) {rest : Bytes} (hr : Ends rest) :
    signed (octets text ++ rest) = .ok (.integer n, rest) := by
  have noDigit := startsWithDigit_of_ends hr
  have bound : twoTo 63 ≤ greatestSignificand := by decide
  cases h with
  | @natural n _ h =>
    obtain ⟨c, more, rfl, digit, _⟩ := digits_cases h
    have single := (digit_octet digit).2.2
    have noSign : ascii c ≠ ascii '-' :=
      digit_octet_ne digit (by decide) (by rintro rfl; cases digit)
    have read := unsigned_reads h noDigit (by omega) false
    rw [octets_ascii single, List.cons_append] at read ⊢
    rw [signed, if_neg noSign, read, afterWhole_of_ends hr]
    rfl
  | @negative n text h nonzero =>
    have small : n ≠ 0 ∧ n ≤ twoTo 63 := by omega
    rw [octets_ascii (by decide), List.cons_append, signed, if_pos rfl,
      unsigned_reads h noDigit (by omega), afterWhole_of_ends hr, whole, if_neg (by decide),
      if_pos small]

-- Unfolded as a function: with its arguments in place the match would evaluate the rounding.
theorem finish_eq : finish = fun negative significand exponent rest =>
    match StepwiseDecimal.toDouble? significand exponent with
    | none => .error (.fixed .numberOutOfRange rest)
    | some x => .ok (.fraction (x.withSign negative), rest) := (rfl)

theorem finish_of_found (negative : Bool) {n : Nat} {e : Int} {y : Double}
    (h : StepwiseDecimal.toDouble? n e = some y) (rest : Bytes) :
    finish negative n e rest = .ok (.fraction (y.withSign negative), rest) := by
  rw [finish_eq]
  simp only [h]

theorem toDouble?_zero : StepwiseDecimal.toDouble? 0 0 = some (Double.zero false) := by
  decide +kernel

/-- Zero behind a sign is read as a double. -/
theorem signed_minus_zero {rest : Bytes} (hr : Ends rest) :
    signed (octets ['-', '0'] ++ rest) = .ok (.fraction (Double.zero true), rest) := by
  rw [octets_ascii (by decide), List.cons_append, signed, if_pos rfl,
    unsigned_reads .zero (startsWithDigit_of_ends hr) (Nat.zero_le _), afterWhole_of_ends hr, whole,
    if_neg (by decide), if_neg fun nonzero => nonzero.1 rfl, finish_of_found true toDouble?_zero]
  rfl

theorem isSpace_of_digit {b : UInt8} (h : isDigit b = true) : JsonReader.isSpace b = false := by
  simp only [isDigit, Bool.and_eq_true, decide_eq_true_eq, UInt8.le_iff_toNat_le,
    UInt8.reduceToNat] at h
  simp only [JsonReader.isSpace, Bool.or_eq_false_iff, beq_eq_false_iff_ne, ne_eq,
    ← UInt8.toNat_inj, UInt8.reduceToNat]
  omega

/-- The octets that a number begins with. -/
theorem integer_starts {n : Int} {text : List Char} (h : Integer n text) :
    ∃ b bytes, octets text = b :: bytes ∧ starts b = true ∧ JsonReader.isSpace b = false := by
  cases h with
  | natural h =>
    obtain ⟨c, more, rfl, digit, _⟩ := digits_cases h
    obtain ⟨octet, _, single⟩ := digit_octet digit
    refine ⟨_, _, octets_ascii single more, by rw [starts, octet, Bool.or_true], ?_⟩
    exact isSpace_of_digit octet
  | negative h => exact ⟨_, _, octets_ascii (by decide) _, by decide, by decide⟩

end JsonNumeral

namespace JsonReader

theorem integer_takes {n : Int} {text : List Char} (h : Integer n text)
    (range : -twoTo 63 ≤ n ∧ n < twoTo 63) : Takes integer text n := by
  intro gap rest hg hr
  obtain ⟨b, bytes, begins, starts, visible⟩ := JsonNumeral.integer_starts h
  have read := JsonNumeral.signed_reads h range hr
  rw [begins, List.cons_append] at read ⊢
  rw [integer, peek_gap hg visible]
  simp only [starts, if_true]
  rw [bind_of_ok read]
  simp only
  rw [if_pos (show n < twoTo 63 from range.2)]
  rfl

/-- A double is no integer, not even the zero that has a sign. -/
theorem integer_refuses_minus_zero {gap : List Char} {rest : Bytes} (hg : Gap gap)
    (hr : Ends rest) :
    integer (octets gap ++ (octets ['-', '0'] ++ rest)) =
      .error (.fixed (.invalidType (.number (.fraction (Double.zero true))) "i64") rest) := by
  have read := JsonNumeral.signed_minus_zero hr
  rw [octets_ascii (by decide), List.cons_append] at read ⊢
  rw [integer, peek_gap hg (by decide)]
  simp only [show JsonNumeral.starts (ascii '-') = true by decide, if_true]
  rw [bind_of_ok read]
  rfl

end JsonReader

end CompilerDriver

import CompilerDriver.Proofs.NumeralText
import CompilerDriver.Proofs.Recovery
import CompilerDriver.Proofs.StepwiseReading

namespace CompilerDriver

open JsonGrammar Utf8 JsonReader

namespace JsonNumeral

/-- An exponent with its sign, or none. -/
inductive Scale : Int → List Char → Prop
  | none : Scale 0 []
  | up {n : Nat} (small : n ≤ greatestExponent) : Scale n ('e' :: '+' :: Nat.toDigits 10 n)
  | down {n : Nat} (small : n ≤ greatestExponent) : Scale (-n) ('e' :: '-' :: Nat.toDigits 10 n)

/-- A numeral with a point or an exponent, with its digits as a number and the power of ten of the
last one. -/
inductive Fractional : Nat → Int → List Char → Prop
  | decimals {n : Nat} {whole tail : List Char} {e : Int} (fraction : List Char)
      (hw : Digits n whole) (some : fraction ≠ []) (hf : ∀ d ∈ fraction, d.isDigit = true)
      (hs : Scale e tail) :
      Fractional (Nat.ofDigitChars 10 fraction n) (e - fraction.length)
        (whole ++ ('.' :: fraction) ++ tail)
  | scaled {n : Nat} {whole tail : List Char} {e : Int} (hw : Digits n whole) (hs : Scale e tail)
      (some : tail ≠ []) : Fractional n e (whole ++ tail)

theorem Scale.exponent {e : Int} {tail : List Char} (h : Scale e tail) : Exponent tail := by
  have digits (n : Nat) : ∀ d ∈ Nat.toDigits 10 n, d.isDigit = true := fun d hd =>
    Nat.isDigit_of_mem_toDigits (by decide) (by decide) hd
  cases h with
  | none => exact .none
  | up =>
    show Exponent ('e' :: (['+'] ++ _))
    exact .some (.inl rfl) (by simp) Nat.toDigits_ne_nil (digits _)
  | down =>
    show Exponent ('e' :: (['-'] ++ _))
    exact .some (.inl rfl) (by simp) Nat.toDigits_ne_nil (digits _)

theorem Fractional.numeral {n : Nat} {e : Int} {text : List Char} (h : Fractional n e text)
    (negative : Bool) : Numeral (if negative then '-' :: text else text) := by
  cases h with
  | decimals fraction hw some hf hs =>
    cases negative with
    | true => exact .negative hw (.some some hf) hs.exponent
    | false => exact .positive hw (.some some hf) hs.exponent
  | scaled hw hs some =>
    cases negative with
    | true => simpa using Numeral.negative hw .none hs.exponent
    | false => simpa using Numeral.positive hw .none hs.exponent

theorem Fractional.begins {n : Nat} {e : Int} {text : List Char} (h : Fractional n e text) :
    ∃ c more, text = c :: more ∧ c.isDigit = true := by
  cases h with
  | decimals fraction hw =>
    obtain ⟨c, more, rfl, digit, _⟩ := digits_cases hw
    exact ⟨_, _, rfl, digit⟩
  | scaled hw =>
    obtain ⟨c, more, rfl, digit, _⟩ := digits_cases hw
    exact ⟨_, _, rfl, digit⟩

theorem Fractional.of_eq {n m : Nat} {e i : Int} {text : List Char} (h : Fractional n e text)
    (digits : n = m) (power : e = i) : Fractional m i text :=
  digits ▸ power ▸ h

variable (negative : Bool) (significand : Nat) (start : Int) {rest : Bytes}

theorem finish_of_ends (hr : Ends rest) :
    afterDigits negative significand start rest = finish negative significand start rest := by
  cases rest with
  | nil => rfl
  | cons b rest =>
    rw [afterDigits, if_neg hr.not_exponent]

theorem exponentDigits_reads {n : Nat} {text : List Char} (h : Digits n text) (down : Bool)
    (small : n ≤ greatestExponent) (hr : Ends rest) :
    ∃ b bytes, octets text ++ rest = b :: bytes ∧ isDigit b = true ∧
      exponentDigits negative significand start down (digitOf b) bytes =
        finish negative significand (if down then start - n else start + n) rest := by
  obtain ⟨c, more, rfl, digit, all, value, _⟩ := digits_cases h
  obtain ⟨octet, single, ascii⟩ := digit_octet digit
  have noDigit := startsWithDigit_of_ends hr
  have whole : Nat.ofDigitChars 10 more (digitOf (UInt8.ofNat c.toNat)) = n := by
    rw [value, single, Nat.ofDigitChars_cons, Nat.mul_zero, Nat.zero_add]
  refine ⟨_, octets more ++ rest, by rw [octets_ascii ascii]; rfl, octet, ?_⟩
  rw [exponentDigits, absorb_reads all noDigit _ _ (by rw [whole]; exact small), whole]
  simp only [noDigit, Bool.false_eq_true, if_false]

theorem exponent_reads {e : Int} {tail : List Char} (h : Scale e tail) (some : tail ≠ [])
    (hr : Ends rest) :
    ∃ bytes, octets tail ++ rest = ascii 'e' :: bytes ∧
      exponent negative significand start bytes = finish negative significand (start + e) rest := by
  cases h with
  | none => exact absurd rfl some
  | @up n small =>
    obtain ⟨b, bytes, begins, digit, read⟩ := exponentDigits_reads negative significand start
      (digits_toDigits n) false small hr
    refine ⟨ascii '+' :: b :: bytes, ?_, ?_⟩
    · rw [← begins, octets_ascii (by decide), octets_ascii (by decide)]
      rfl
    · rw [exponent]
      exact (if_pos digit).trans read
  | @down n small =>
    obtain ⟨b, bytes, begins, digit, read⟩ := exponentDigits_reads negative significand start
      (digits_toDigits n) true small hr
    refine ⟨ascii '-' :: b :: bytes, ?_, ?_⟩
    · rw [← begins, octets_ascii (by decide), octets_ascii (by decide)]
      rfl
    · rw [exponent]
      exact (if_pos digit).trans read

theorem afterDigits_reads {e : Int} {tail : List Char} (h : Scale e tail) (hr : Ends rest) :
    afterDigits negative significand start (octets tail ++ rest) =
      finish negative significand (start + e) rest := by
  by_cases some : tail = []
  · subst some
    cases h
    rw [Int.add_zero]
    exact finish_of_ends negative significand start hr
  · obtain ⟨bytes, begins, read⟩ := exponent_reads negative significand start h some hr
    rw [begins, afterDigits, if_pos (by decide), read]

theorem startsWithDigit_scale {e : Int} {tail : List Char} (h : Scale e tail) (hr : Ends rest) :
    startsWithDigit (octets tail ++ rest) = false :=
  startsWithDigit_exponent h.exponent hr

/-- A numeral that is no integer is read as its digits and their power of ten. -/
theorem unsigned_fractional {n : Nat} {e : Int} {text : List Char} (h : Fractional n e text)
    (small : n ≤ greatestSignificand) (hr : Ends rest) :
    unsigned negative (octets text ++ rest) = finish negative n e rest := by
  cases h with
  | @decimals n whole tail e fraction hw some hf hs =>
    have parts : octets (whole ++ ('.' :: fraction) ++ tail) ++ rest =
        octets whole ++ ascii '.' :: (octets fraction ++ (octets tail ++ rest)) := by
      simp [octets_ascii]
    have stops := startsWithDigit_scale hs hr
    have counted : fraction.length ≠ 0 := by simpa using some
    rw [parts, unsigned_reads hw rfl ((le_ofDigitChars n fraction).trans small), afterWhole,
      if_pos rfl, decimals, absorb_reads hf stops _ _ small]
    simp only [stops, Bool.false_eq_true, if_false, Nat.zero_add, counted]
    rw [afterDigits_reads negative _ _ hs hr]
    congr 1
    omega
  | scaled hw hs some =>
    obtain ⟨bytes, begins, read⟩ := exponent_reads negative n 0 hs some hr
    rw [octets_append, List.append_assoc,
      unsigned_reads hw (startsWithDigit_scale hs hr) small, begins, afterWhole,
      if_neg (by decide), if_pos (by decide), read, Int.zero_add]

end JsonNumeral

namespace NumberText

open JsonNumeral

variable {n : Nat} {exponent : Int}

theorem digits_append_zeros (h : n ≠ 0) (k : Nat) :
    Digits (n * tenTo k) (digitsOf n ++ zeros k) := by
  have some : digitsOf n ≠ [] := Nat.toDigits_ne_nil
  have lead : (digitsOf n ++ zeros k).head? ≠ Option.some '0' := by
    rw [List.head?_append_of_ne_nil _ some]
    exact head?_toDigits h
  have all := digits_of_lead (List.append_ne_nil_of_left_ne_nil some _) lead fun d hd =>
    (List.mem_append.mp hd).elim Decimal.isDigit_digitsOf Decimal.isDigit_zeros
  rwa [← Decimal.digitsValue_eq, Decimal.digitsValue_append_zeros] at all

theorem digits_take (h : n ≠ 0) {k : Nat} (pos : 0 < k) :
    Digits (Nat.ofDigitChars 10 ((digitsOf n).take k) 0) ((digitsOf n).take k) := by
  have lead : ((digitsOf n).take k).head? = (digitsOf n).head? := by
    rw [List.head?_take, if_neg pos.ne']
  refine digits_of_lead ?_ ?_ fun d hd => Decimal.isDigit_digitsOf (List.mem_of_mem_take hd)
  · rw [ne_eq, List.take_eq_nil_iff]
    rintro (none | none)
    · exact pos.ne' none
    · exact Nat.toDigits_ne_nil none
  · rw [lead]
    exact head?_toDigits h

/-- The digits of a number before and behind the place of a point. -/
theorem ofDigitChars_drop (n k : Nat) :
    Nat.ofDigitChars 10 ((digitsOf n).drop k)
      (Nat.ofDigitChars 10 ((digitsOf n).take k) 0) = n := by
  rw [← Nat.ofDigitChars_append, List.take_append_drop, ← Decimal.digitsValue_eq,
    Decimal.digitsValue_digitsOf]

theorem whole_fractional (h : n ≠ 0) (whole : 0 ≤ exponent) :
    Fractional (n * tenTo (exponent.toNat + 1)) (-1)
      (positional (digitsOf n) exponent ++ ['.', '0']) := by
  have all := Fractional.decimals ['0'] (digits_append_zeros h exponent.toNat) (by simp)
    (fun _ => Decimal.isDigit_zeros (k := 1)) .none
  have value : Nat.ofDigitChars 10 ['0'] (n * tenTo exponent.toNat) =
      n * tenTo (exponent.toNat + 1) := by
    rw [tenTo_add, ← Nat.mul_assoc, Nat.mul_comm _ (tenTo 1)]
    rfl
  rw [value, List.append_nil] at all
  rw [positional, if_pos whole]
  exact all

theorem inside_fractional (h : n ≠ 0) (part : exponent < 0)
    (inside : 0 < (digitsOf n).length + exponent) :
    Fractional n exponent (positional (digitsOf n) exponent) := by
  rw [positional, if_neg (by omega), if_pos inside, pointAfter]
  generalize place : ((digitsOf n).length + exponent : Int).toNat = k
  have some : (digitsOf n).drop k ≠ [] := by
    rw [ne_eq, List.drop_eq_nil_iff]
    omega
  have all := Fractional.decimals _ (digits_take (k := k) h (by omega)) some
    (fun d hd => Decimal.isDigit_digitsOf (List.mem_of_mem_drop hd)) .none
  have last : 0 - (((digitsOf n).drop k).length : Int) = exponent := by
    rw [List.length_drop]
    omega
  rwa [ofDigitChars_drop, last, List.append_nil] at all

theorem below_fractional (part : exponent < 0) (below : (digitsOf n).length + exponent ≤ 0) :
    Fractional n exponent (positional (digitsOf n) exponent) := by
  rw [positional, if_neg (by omega), if_neg (by omega)]
  generalize place : (-((digitsOf n).length + exponent : Int)).toNat = k
  have some : zeros k ++ digitsOf n ≠ [] :=
    List.append_ne_nil_of_right_ne_nil _ Nat.toDigits_ne_nil
  have all := Fractional.decimals _ .zero some
    (fun d hd => (List.mem_append.mp hd).elim Decimal.isDigit_zeros Decimal.isDigit_digitsOf) .none
  have last : 0 - ((zeros k ++ digitsOf n).length : Int) = exponent := by
    rw [List.length_append, zeros, List.length_replicate]
    omega
  rwa [← Decimal.digitsValue_eq, Decimal.digitsValue_zeros_append, last, List.append_nil] at all

theorem scale_digitsOf {e : Int} (small : e.natAbs ≤ greatestExponent) :
    Scale e ('e' :: (if e < 0 then '-' else '+') :: digitsOf e.natAbs) := by
  by_cases down : e < 0
  · have all := Scale.down small
    rw [if_pos down]
    rwa [show -(e.natAbs : Int) = e by omega] at all
  · have all := Scale.up small
    rw [if_neg down]
    rwa [show (e.natAbs : Int) = e by omega] at all

theorem scientific_fractional (h : n ≠ 0)
    (small : ((digitsOf n).length + exponent - 1 : Int).natAbs ≤ greatestExponent) :
    Fractional n exponent (scientific (digitsOf n) exponent) := by
  have first := digits_take h Nat.one_pos
  have value := ofDigitChars_drop n 1
  have isDigit : ∀ d ∈ (digitsOf n).drop 1, d.isDigit = true := fun d hd =>
    Decimal.isDigit_digitsOf (List.mem_of_mem_drop hd)
  have some : digitsOf n ≠ [] := Nat.toDigits_ne_nil
  have scale := scale_digitsOf small
  generalize digitsOf n = digits at *
  match digits with
  | [] => exact absurd rfl some
  | [d] =>
    have all := Fractional.scaled first scale (by simp)
    exact all.of_eq value (by simp)
  | d :: c :: rest =>
    have all := Fractional.decimals (c :: rest) first (by simp) isDigit scale
    exact all.of_eq value (by simp only [List.length_cons]; omega)

/-- The digits and the power of ten of a number in its form for documents. -/
def documentParts (n : Nat) (exponent : Int) : Nat × Int :=
  if 0 ≤ exponent ∧ Decimal.digitCount n + exponent ≤ 16 then
    (n * tenTo (exponent.toNat + 1), -1)
  else (n, exponent)

theorem documentForm_fractional (h : n ≠ 0)
    (small : (Decimal.digitCount n + exponent - 1).natAbs ≤ greatestExponent) :
    Fractional (documentParts n exponent).1 (documentParts n exponent).2
      (documentForm (digitsOf n) exponent) := by
  have count : Decimal.digitCount n = (digitsOf n).length := rfl
  have some : 0 < (digitsOf n).length := Nat.length_toDigits_pos
  rw [documentForm, documentParts, count]
  by_cases whole : 0 ≤ exponent
  · by_cases few : (digitsOf n).length + exponent ≤ 16
    · simp only [whole, few, and_self, if_true, and_true]
      rw [if_pos (by omega)]
      exact whole_fractional h whole
    · simp only [whole, few, and_false, if_false]
      exact scientific_fractional h small
  · simp only [whole, false_and, if_false]
    by_cases shown : -5 < (digitsOf n).length + exponent ∧ (digitsOf n).length + exponent ≤ 16
    · rw [if_pos shown]
      by_cases inside : 0 < (digitsOf n).length + exponent
      · exact inside_fractional h (by omega) inside
      · exact below_fractional (by omega) (by omega)
    · rw [if_neg shown]
      exact scientific_fractional h small

theorem documentParts_le (few : n ≤ tenTo 17 + 1) (exponent : Int) :
    (documentParts n exponent).1 ≤ tenTo 17 + 1 := by
  unfold documentParts
  split
  next short =>
    have digits := Decimal.lt_tenTo_digitCount n
    calc n * tenTo (exponent.toNat + 1)
        ≤ tenTo (Decimal.digitCount n) * tenTo (exponent.toNat + 1) :=
          Nat.mul_le_mul_right _ digits.le
      _ = tenTo (Decimal.digitCount n + (exponent.toNat + 1)) := (tenTo_add _ _).symm
      _ ≤ tenTo 17 := Decimal.tenTo_le (by omega)
      _ ≤ tenTo 17 + 1 := Nat.le_succ _
  · exact few

end NumberText

namespace Double

open JsonNumeral NumberText StepwiseDecimal

/-- The number that reading makes of the numeral that a document holds for this one. -/
def reread? (x : Double) : Option Double :=
  let d := x.shortest .even
  let parts := documentParts d.digits d.exponent
  (StepwiseDecimal.toDouble? parts.1 parts.2).map (·.withSign d.negative)

variable {x : Double} {digits : Nat} {exponent : Int}

theorem shortest_zero (h : x.magnitude = 0) (tie : Tie) :
    x.shortest tie = ⟨x.negative, 0, 0⟩ := by
  rw [shortest, if_pos h]

theorem few_le_greatest {n : Nat} (h : n ≤ tenTo 17 + 1) :
    n ≤ tenTo StepwiseDecimal.greatestPower :=
  h.trans (by decide +kernel)

/-- Reading the parts of a numeral that was written never fails. -/
theorem toDouble?_documentParts (few : digits ≤ tenTo 17 + 1)
    (whole : ∀ zeros : Nat, exponent = zeros →
      ∃ y, StepwiseDecimal.toDouble? digits zeros = some y) :
    ∃ y, StepwiseDecimal.toDouble? (documentParts digits exponent).1
      (documentParts digits exponent).2 = some y := by
  have small := few_le_greatest (documentParts_le few exponent)
  by_cases short : 0 ≤ exponent ∧ Decimal.digitCount digits + exponent ≤ 16
  · rw [documentParts, if_pos short] at small ⊢
    exact toDouble?_of_neg small (show (-1 : Int) < 0 by decide)
  · rw [documentParts, if_neg short] at small ⊢
    by_cases neg : exponent < 0
    · exact toDouble?_of_neg small neg
    · obtain ⟨zeros, rfl⟩ := Int.eq_ofNat_of_zero_le (Int.not_lt.mp neg)
      exact whole zeros rfl

theorem reread?_found (x : Double) : ∃ y, x.reread? = some y := by
  have parts : ∃ digits exponent, x.shortest .even = ⟨x.negative, digits, exponent⟩ ∧
      ∃ y, StepwiseDecimal.toDouble? (documentParts digits exponent).1
        (documentParts digits exponent).2 = some y := by
    by_cases zero : x.magnitude = 0
    · refine ⟨0, 0, shortest_zero zero .even, toDouble?_documentParts (Nat.zero_le _) ?_⟩
      intro zeros same
      rw [← same]
      exact ⟨_, JsonNumeral.toDouble?_zero⟩
    · obtain ⟨digits, exponent, short, _, _, few⟩ := shortest_found .even zero
      refine ⟨digits, exponent, short, toDouble?_documentParts few ?_⟩
      rintro zeros rfl
      exact toDouble?_of_shortest zero short
  obtain ⟨digits, exponent, short, y, read⟩ := parts
  refine ⟨y.withSign x.negative, ?_⟩
  rw [reread?, short]
  simp only [read, Option.map_some]

def reread (x : Double) : Double :=
  x.reread?.getD x

theorem reread?_eq (x : Double) : x.reread? = some x.reread := by
  obtain ⟨y, read⟩ := reread?_found x
  rw [reread, read]
  rfl

theorem places_le : 2 * ((tenTo 17 + 1) * twoTo 1074) < tenTo 400 := by
  decide +kernel

/-- The shortest numeral of a number has no exponent that is too long to be read. -/
theorem exponent_range (positive : x.magnitude ≠ 0)
    (near : magnitudeNear (digits * tenTo exponent.toNat) (tenTo (-exponent).toNat) = x.magnitude)
    (few : digits ≤ tenTo 17 + 1) : -400 ≤ exponent ∧ exponent ≤ 308 := by
  constructor
  · by_contra low
    have lifted := midpoint_le_of_lt_magnitudeNear (m := 0) (tenTo_pos (-exponent).toNat)
      (near ▸ Nat.pos_of_ne_zero positive)
    have least : unitsOf 0 + unitsOf 1 = 1 := by decide +kernel
    have whole : exponent.toNat = 0 := by omega
    rw [least, Nat.one_mul, whole, show tenTo 0 = 1 from rfl, Nat.mul_one] at lifted
    have places : tenTo 400 ≤ tenTo (-exponent).toNat := Decimal.tenTo_le (by omega)
    have scaled := Nat.mul_le_mul_right (twoTo 1074) few
    have beyond := places_le
    omega
  · by_cases neg : exponent < 0
    · omega
    obtain ⟨zeros, rfl⟩ := Int.eq_ofNat_of_zero_le (Int.not_lt.mp neg)
    rw [Int.toNat_natCast, Int.toNat_eq_zero.mpr (by omega)] at near
    have below := mul_le_ceiling (near.trans_le (magnitude_le_greatest x))
    have most := zeros_le (digits_ne_zero Nat.one_pos (near.trans_ne positive)) below
    exact Int.ofNat_le.mpr most

theorem scale_of_shortest (range : -400 ≤ exponent ∧ exponent ≤ 308) (few : digits ≤ tenTo 17 + 1) :
    (Decimal.digitCount digits + exponent - 1).natAbs ≤ greatestExponent := by
  have long : Decimal.digitCount digits ≤ 18 :=
    (Nat.length_toDigits_le_iff (by decide) (by decide)).mpr (few.trans_lt (by decide))
  have room : 1000 ≤ greatestExponent := by decide
  omega

/-- A document holds a number as digits, with a point or an exponent, under its sign. -/
theorem documentText_fractional (x : Double) : ∃ n e text, Fractional n e text ∧
    n ≤ tenTo 17 + 1 ∧ x.documentText.toList = (if x.negative then '-' :: text else text) ∧
    x.reread? = (StepwiseDecimal.toDouble? n e).map (·.withSign x.negative) := by
  by_cases zero : x.magnitude = 0
  · refine ⟨0, -1, ['0', '.', '0'], ?_, Nat.zero_le _, ?_, ?_⟩
    · exact .decimals ['0'] .zero (by simp) (fun _ => Decimal.isDigit_zeros (k := 1)) .none
    · rw [documentText, shortest_zero zero]
      exact String.toList_ofList
    · have parts : documentParts 0 0 = (0, -1) := by decide
      rw [reread?, shortest_zero zero]
      simp only [parts]
  · obtain ⟨digits, exponent, short, reads, _, few⟩ := shortest_found .even zero
    have near := (readsBack_iff x.magnitude_lt).mp reads
    have some := digits_ne_zero (tenTo_pos _) (near.trans_ne zero)
    have range := exponent_range zero near few
    refine ⟨_, _, _, documentForm_fractional some (scale_of_shortest range few),
      documentParts_le few exponent, ?_, ?_⟩
    · rw [documentText, short]
      simp only [if_neg some]
      exact String.toList_ofList
    · rw [reread?, short]

theorem documentText_numeral (x : Double) : Numeral x.documentText.toList := by
  obtain ⟨_, _, text, fractional, _, written, _⟩ := documentText_fractional x
  rw [written]
  exact fractional.numeral x.negative

theorem finish_of_reread? {n : Nat} {e : Int}
    (h : x.reread? = (StepwiseDecimal.toDouble? n e).map (·.withSign x.negative)) (rest : Bytes) :
    finish x.negative n e rest = .ok (.fraction x.reread, rest) := by
  rw [reread?_eq] at h
  obtain ⟨y, found, same⟩ := Option.map_eq_some_iff.mp h.symm
  rw [finish_of_found x.negative found, same]

/-- A number in a document is read as what stepwise reading makes of it. -/
theorem signed_documentText (x : Double) {rest : Bytes} (hr : Ends rest) :
    JsonNumeral.signed (octets x.documentText.toList ++ rest) =
      .ok (.fraction x.reread, rest) := by
  obtain ⟨n, e, text, fractional, few, written, read⟩ := documentText_fractional x
  have room : tenTo 17 + 1 ≤ greatestSignificand := by decide +kernel
  have small := few.trans room
  obtain ⟨c, more, begins, digit⟩ := fractional.begins
  have unsigned := unsigned_fractional x.negative fractional small hr
  have finished := finish_of_reread? read rest
  rw [written]
  cases sign : x.negative with
  | true =>
    rw [sign] at unsigned finished
    rw [if_pos rfl, octets_ascii (by decide), List.cons_append, JsonNumeral.signed, if_pos rfl,
      unsigned, finished]
  | false =>
    rw [sign] at unsigned finished
    have single := (digit_octet digit).2.2
    have noSign : ascii c ≠ ascii '-' :=
      digit_octet_ne digit (by decide) (by rintro rfl; cases digit)
    rw [if_neg (by decide), begins, octets_ascii single, List.cons_append, JsonNumeral.signed,
      if_neg noSign]
    rw [begins, octets_ascii single, List.cons_append] at unsigned
    rw [unsigned, finished]

end Double

end CompilerDriver

import CompilerDriver.Proofs.ReaderSteps

namespace CompilerDriver

open JsonGrammar Utf8

namespace JsonGrammar

theorem letters_plain {cs : List Char}
    (h : ∀ c ∈ cs, 0x20 ≤ c.toNat ∧ c ≠ '\x22' ∧ c ≠ '\\') : Letters cs cs := by
  induction cs with
  | nil => exact .nil
  | cons c cs ih =>
    obtain ⟨control, quote, backslash⟩ := h c List.mem_cons_self
    have head : Letter c [c] := .plain control quote backslash
    exact .cons head (ih fun d hd => h d (List.mem_cons_of_mem c hd))

/-- A string without awkward characters may be written as it is. -/
theorem quoted_plain {s : String} (h : ∀ c ∈ s.toList, 0x20 ≤ c.toNat ∧ c ≠ '\x22' ∧ c ≠ '\\') :
    Quoted s ('\x22' :: (s.toList ++ ['\x22'])) :=
  .quoted (letters_plain h)

/-- What says some characters may stand between quotes. -/
theorem Letters.inside {cs text : List Char} (h : Letters cs text) : Inside text := by
  induction h with
  | nil => exact .nil
  | cons head _ ih =>
    cases head with
    | plain control quote backslash => exact .plain control quote backslash ih
    | short h => exact .short h ih
    | unit h => exact .unit h ih
    | pair first second =>
      rw [List.cons_append, List.cons_append, List.append_assoc]
      exact .unit first (.unit second ih)

end JsonGrammar

namespace JsonString

theorem octetsOnto_end (found rest : Bytes) :
    octetsOnto found (ascii '\x22' :: rest) = .ok (found.reverse, rest) := by
  rw [octetsOnto, if_pos rfl]

theorem octetsOnto_escape {bytes rest : Bytes} {c : Char} (h : escape bytes = .ok (c, rest))
    (found : Bytes) :
    octetsOnto found (ascii '\\' :: bytes) =
      octetsOnto ((String.utf8EncodeChar c).reverse ++ found) rest := by
  rw [octetsOnto, if_neg (by decide), if_pos rfl]
  split <;> simp_all

/-- The octets of a string that stand for themselves. -/
def Plain (b : UInt8) : Prop :=
  b ≠ ascii '\x22' ∧ b ≠ ascii '\\' ∧ ¬b < 0x20

theorem octetsOnto_plain {run : Bytes} (h : ∀ b ∈ run, Plain b) (found rest : Bytes) :
    octetsOnto found (run ++ rest) = octetsOnto (run.reverse ++ found) rest := by
  induction run generalizing found with
  | nil => rfl
  | cons b run ih =>
    obtain ⟨quote, backslash, control⟩ := h b List.mem_cons_self
    rw [List.cons_append, octetsOnto, if_neg quote, if_neg backslash, if_neg control,
      ih fun d hd => h d (List.mem_cons_of_mem b hd)]
    simp

theorem plain_of_mem {c : Char} (control : 0x20 ≤ c.toNat) (quote : c ≠ '\x22')
    (backslash : c ≠ '\\') {b : UInt8} (h : b ∈ String.utf8EncodeChar c) : Plain b := by
  have own (d : Char) (hd : d.toNat < 0x80) (ne : c ≠ d) : b ≠ ascii d := by
    rintro rfl
    have octet : (ascii d).toNat = d.toNat := toNat_ofNat_of_lt (by omega)
    rcases mem_utf8EncodeChar h with large | same
    · omega
    · exact ne (Char.toNat_inj.mp (same.symm.trans octet))
  refine ⟨own _ (by decide) quote, own _ (by decide) backslash, ?_⟩
  rw [UInt8.lt_iff_toNat_lt]
  show ¬b.toNat < 0x20
  rcases mem_utf8EncodeChar h with large | same <;> omega

theorem hexDigit?_eq_some {n : Nat} {c : Char} (h : HexDigit n c) :
    hexDigit? (ascii c) = some n ∧ c.toNat < 0x80 := by
  cases h with
  | lower h =>
    revert n
    decide
  | upper h =>
    revert n
    decide

theorem unit_reads {n : Nat} {text : List Char} (h : CodeUnit n text) (rest : Bytes) :
    unit (octets text ++ rest) = .ok (n, rest) := by
  obtain ⟨ha, hb, hc, hd⟩ := h
  obtain ⟨w, sw⟩ := hexDigit?_eq_some ha
  obtain ⟨x, sx⟩ := hexDigit?_eq_some hb
  obtain ⟨y, sy⟩ := hexDigit?_eq_some hc
  obtain ⟨z, sz⟩ := hexDigit?_eq_some hd
  rw [octets_ascii sw, octets_ascii sx, octets_ascii sy, octets_ascii sz]
  simp [unit, w, x, y, z]

theorem codePoint_of_unit {c : Char} {digits : List Char} (h : CodeUnit c.toNat digits)
    (rest : Bytes) : codePoint (octets digits ++ rest) = .ok (c, rest) := by
  have valid : c.toNat < 0xD800 ∨ 0xDFFF < c.toNat ∧ c.toNat < 0x110000 := c.valid
  rw [codePoint, unit_reads h]
  simp only
  rw [if_neg (by omega), if_neg (by omega), Char.ofNat_toNat]

theorem codePoint_of_pair {c : Char} {high low : Nat} {first second : List Char}
    (hf : CodeUnit high first) (hs : CodeUnit low second) (hh : 0xD800 ≤ high ∧ high ≤ 0xDBFF)
    (hl : 0xDC00 ≤ low ∧ low ≤ 0xDFFF)
    (value : c.toNat = (high - 0xD800) * 0x400 + (low - 0xDC00) + 0x10000) (rest : Bytes) :
    codePoint (octets (first ++ '\\' :: 'u' :: second) ++ rest) = .ok (c, rest) := by
  have text : octets (first ++ '\\' :: 'u' :: second) ++ rest =
      octets first ++ ascii '\\' :: ascii 'u' :: (octets second ++ rest) := by
    rw [octets_append, octets_ascii (c := '\\') (by decide), octets_ascii (c := 'u') (by decide)]
    simp
  rw [codePoint, text, unit_reads hf]
  simp only
  rw [if_neg (by omega), if_pos hh, lowHalf, if_pos rfl]
  simp only [if_true]
  rw [unit_reads hs]
  simp only
  rw [if_pos hl, ← value, Char.ofNat_toNat]

theorem shortEscape?_eq_some {name c : Char} (h : (name, c) ∈ shortEscapes) :
    shortEscape? (ascii name) = some c ∧ name.toNat < 0x80 := by
  simp only [shortEscapes, List.mem_cons, Prod.mk.injEq, List.not_mem_nil, or_false] at h
  rcases h with ⟨rfl, rfl⟩ | ⟨rfl, rfl⟩ | ⟨rfl, rfl⟩ | ⟨rfl, rfl⟩ | ⟨rfl, rfl⟩ | ⟨rfl, rfl⟩ |
    ⟨rfl, rfl⟩ | ⟨rfl, rfl⟩ <;> decide

theorem escape_unit (bytes : Bytes) : escape (ascii 'u' :: bytes) = codePoint bytes := rfl

/-- Reading past one character of a string keeps the octets of that character. -/
theorem octetsOnto_letter {c : Char} {text : List Char} (h : Letter c text) (found rest : Bytes) :
    octetsOnto found (octets text ++ rest) =
      octetsOnto ((String.utf8EncodeChar c).reverse ++ found) rest := by
  cases h with
  | plain control quote backslash =>
    rw [octets_cons, octets_nil, List.append_nil]
    exact octetsOnto_plain (fun b hb => plain_of_mem control quote backslash hb) found rest
  | @short name h =>
    obtain ⟨known, small⟩ := shortEscape?_eq_some h
    rw [octets_ascii (by decide), octets_ascii small, List.cons_append]
    apply octetsOnto_escape
    rw [List.cons_append, escape, known]
    rfl
  | unit h =>
    rw [octets_ascii (by decide), octets_ascii (by decide), List.cons_append]
    apply octetsOnto_escape
    rw [List.cons_append, escape_unit]
    exact codePoint_of_unit h rest
  | pair hf hs hh hl value =>
    rw [octets_ascii (by decide), octets_ascii (by decide), List.cons_append]
    apply octetsOnto_escape
    rw [List.cons_append, escape_unit]
    exact codePoint_of_pair hf hs hh hl value rest

theorem octetsOnto_letters {cs text : List Char} (h : Letters cs text) (found rest : Bytes) :
    octetsOnto found (octets text ++ ascii '\x22' :: rest) =
      .ok (found.reverse ++ octets cs, rest) := by
  induction h generalizing found with
  | nil =>
    rw [octets_nil, List.append_nil]
    exact octetsOnto_end found rest
  | cons head tail ih =>
    rw [octets_append, List.append_assoc, octetsOnto_letter head, ih, octets_cons]
    simp

/-- A string is read as what it stands for once its opening quote has been taken. -/
theorem body_reads {s : String} {inside : List Char} (h : Letters s.toList inside) (rest : Bytes) :
    body (octets inside ++ ascii '\x22' :: rest) = .ok (s, rest) := by
  rw [body, octetsOnto_letters h]
  simp only [List.reverse_nil, List.nil_append]
  rw [decode_octets, String.ofList_toList]

end JsonString

namespace JsonReader

theorem quoted_octets {s : String} {text : List Char} (h : Quoted s text) (rest : Bytes) :
    ∃ inside, Letters s.toList inside ∧
      octets text ++ rest = ascii '\x22' :: (octets inside ++ ascii '\x22' :: rest) := by
  obtain @⟨inside, letters⟩ := h
  refine ⟨inside, letters, ?_⟩
  rw [octets_ascii (by decide), octets_append, octets_ascii (c := '\x22') (by decide)]
  simp

theorem string_takes {s : String} {text : List Char} (h : Quoted s text) : Takes string text s := by
  intro gap rest hg _
  obtain ⟨inside, letters, quoted⟩ := quoted_octets h rest
  rw [quoted, string, peek_gap hg (by decide)]
  exact JsonString.body_reads letters rest

theorem quoted_takes (s : String) (text : List Char) (h : Quoted s text) :
    Takes string text s ∧ BeginsApart (ascii 'n') text := by
  refine ⟨string_takes h, ?_⟩
  obtain ⟨inside, _, begins⟩ := quoted_octets h []
  rw [List.append_nil] at begins
  exact ⟨_, _, begins, by decide, by decide⟩

end JsonReader

end CompilerDriver

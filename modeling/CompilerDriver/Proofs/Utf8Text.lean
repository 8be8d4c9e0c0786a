import CompilerDriver.Utf8

namespace CompilerDriver

namespace Utf8

/-- The octets of a sequence of characters. -/
def octets (text : List Char) : Bytes :=
  text.flatMap String.utf8EncodeChar

theorem encode_ofList (text : List Char) : encode (String.ofList text) = octets text := by
  simp [encode, octets]

@[simp] theorem octets_nil : octets [] = [] := rfl

theorem octets_cons (c : Char) (text : List Char) :
    octets (c :: text) = String.utf8EncodeChar c ++ octets text := rfl

@[simp] theorem octets_append (a b : List Char) : octets (a ++ b) = octets a ++ octets b := by
  simp [octets]

theorem encode_append (a b : String) : encode (a ++ b) = encode a ++ encode b := by
  simp [encode, List.flatMap_append]

theorem isTail_iff (b : UInt8) : isTail b = true ↔ 0x80 ≤ b.toNat ∧ b.toNat < 0xC0 := by
  simp [isTail, UInt8.lt_iff_toNat_lt, UInt8.le_iff_toNat_le]

theorem isSecond_iff (a b : UInt8) :
    isSecond a b = true ↔ (0x80 ≤ b.toNat ∧ b.toNat < 0xC0) ∧
      (a.toNat = 0xE0 → 0xA0 ≤ b.toNat) ∧ (a.toNat = 0xED → b.toNat < 0xA0) ∧
      (a.toNat = 0xF0 → 0x90 ≤ b.toNat) ∧ (a.toNat = 0xF4 → b.toNat < 0x90) := by
  simp [isSecond, isTail_iff, ← UInt8.toNat_inj, UInt8.lt_iff_toNat_lt, UInt8.le_iff_toNat_le,
    Decidable.imp_iff_not_or, and_assoc]

theorem front_one {a : UInt8} (h : a.toNat < 0x80) (rest : Bytes) :
    front (a :: rest) = .char (Char.ofNat a.toNat) rest := by
  have small : a < 0x80 := UInt8.lt_iff_toNat_lt.mpr h
  simp [front, small]

/-- The first octet of a character that takes several ones. -/
theorem lead_spec {a : UInt8} (h : 0xC2 ≤ a.toNat ∧ a.toNat < 0xF5) :
    ¬a < 0x80 ∧ ¬a < 0xC2 ∧ ¬0xF5 ≤ a := by
  simp only [UInt8.lt_iff_toNat_lt, UInt8.le_iff_toNat_le, UInt8.reduceToNat]
  omega

theorem front_two {a b : UInt8} (ha : 0xC2 ≤ a.toNat ∧ a.toNat < 0xE0)
    (hb : 0x80 ≤ b.toNat ∧ b.toNat < 0xC0) (rest : Bytes) :
    front (a :: b :: rest) =
      .char (Char.ofNat ((a.toNat - 0xC0) * 64 + (b.toNat - 0x80))) rest := by
  obtain ⟨alone, low, high⟩ := lead_spec (a := a) (by omega)
  have two : a < 0xE0 := UInt8.lt_iff_toNat_lt.mpr ha.2
  have second : isSecond a b = true := (isSecond_iff a b).mpr (by omega)
  simp [front, alone, low, high, second, two]

theorem front_three {a b c : UInt8} (ha : 0xE0 ≤ a.toNat ∧ a.toNat < 0xF0)
    (hb : isSecond a b = true) (hc : isTail c = true) (rest : Bytes) :
    front (a :: b :: c :: rest) =
      .char (Char.ofNat
        ((a.toNat - 0xE0) * 4096 + (b.toNat - 0x80) * 64 + (c.toNat - 0x80))) rest := by
  obtain ⟨alone, low, high⟩ := lead_spec (a := a) (by omega)
  have two : ¬a < 0xE0 := by simpa [UInt8.lt_iff_toNat_lt] using ha.1
  have three : a < 0xF0 := UInt8.lt_iff_toNat_lt.mpr ha.2
  simp [front, alone, low, high, hb, two, hc, three]

theorem front_four {a b c d : UInt8} (ha : 0xF0 ≤ a.toNat ∧ a.toNat < 0xF5)
    (hb : isSecond a b = true) (hc : isTail c = true) (hd : isTail d = true) (rest : Bytes) :
    front (a :: b :: c :: d :: rest) =
      .char (Char.ofNat ((a.toNat - 0xF0) * 262144 + (b.toNat - 0x80) * 4096 +
        (c.toNat - 0x80) * 64 + (d.toNat - 0x80))) rest := by
  obtain ⟨alone, low, high⟩ := lead_spec (a := a) (by omega)
  have three : ¬a < 0xF0 := by simpa [UInt8.lt_iff_toNat_lt] using ha.1
  have two : ¬a < 0xE0 := fun h => three (UInt8.lt_trans h (by decide))
  simp [front, alone, low, high, hb, two, hc, three, hd]

/-- An octet that is made of a number small enough gives it back. -/
theorem toNat_ofNat_of_lt {n : Nat} (h : n < 256) : (UInt8.ofNat n).toNat = n := by
  rw [UInt8.toNat_ofNat']
  omega

theorem octets_ascii {c : Char} (h : c.toNat < 0x80) (text : List Char) :
    octets (c :: text) = UInt8.ofNat c.toNat :: octets text := by
  have single : String.utf8EncodeChar c = [UInt8.ofNat c.toNat] := by
    unfold String.utf8EncodeChar
    simp only
    rw [if_pos (show c.val.toNat ≤ 0x7f from Nat.lt_succ_iff.mp h)]
    rfl
  rw [octets_cons, single]
  rfl

theorem length_le_octets (text : List Char) : text.length ≤ (octets text).length := by
  induction text with
  | nil => exact Nat.le_refl _
  | cons c text ih =>
    have size := c.utf8Size_pos
    rw [octets_cons, List.length_append, String.length_utf8EncodeChar, List.length_cons]
    omega

theorem octet_inj {c d : Char} (hc : c.toNat < 0x80) (hd : d.toNat < 0x80) :
    UInt8.ofNat c.toNat = UInt8.ofNat d.toNat ↔ c = d := by
  rw [← UInt8.toNat_inj, toNat_ofNat_of_lt (by omega), toNat_ofNat_of_lt (by omega),
    Char.toNat_inj]

/-- Outside the basic set all octets of a character are large. -/
theorem mem_utf8EncodeChar {c : Char} {b : UInt8} (h : b ∈ String.utf8EncodeChar c) :
    0x80 ≤ b.toNat ∨ b.toNat = c.toNat := by
  have large {n : Nat} (hn : 0x80 ≤ n ∧ n < 256) : 0x80 ≤ (UInt8.ofNat n).toNat := by
    rw [toNat_ofNat_of_lt hn.2]
    exact hn.1
  unfold String.utf8EncodeChar at h
  simp only at h
  split at h
  · rw [List.mem_singleton.mp h]
    exact .inr (toNat_ofNat_of_lt (by omega))
  left
  split at h
  · simp only [List.mem_cons, List.not_mem_nil, or_false] at h
    rcases h with rfl | rfl <;> exact large (by omega)
  split at h
  · simp only [List.mem_cons, List.not_mem_nil, or_false] at h
    rcases h with rfl | rfl | rfl <;> exact large (by omega)
  · simp only [List.mem_cons, List.not_mem_nil, or_false] at h
    rcases h with rfl | rfl | rfl | rfl <;> exact large (by omega)

/-- The octet of a character of the basic set comes from no other character. -/
theorem not_mem_octets {c : Char} (small : c.toNat < 0x80) {text : List Char} (h : c ∉ text) :
    UInt8.ofNat c.toNat ∉ octets text := by
  intro member
  obtain ⟨d, hd, hb⟩ := List.mem_flatMap.mp member
  have own : (UInt8.ofNat c.toNat).toNat = c.toNat := toNat_ofNat_of_lt (by omega)
  rcases mem_utf8EncodeChar hb with large | same
  · omega
  · exact h (Char.toNat_inj.mp (own.symm.trans same) ▸ hd)

/-- Decoding a character that has been encoded gives it back and takes no more. -/
theorem front_utf8EncodeChar (c : Char) (rest : Bytes) :
    front (String.utf8EncodeChar c ++ rest) = .char c rest := by
  have valid : c.val.toNat < 0xD800 ∨ 0xDFFF < c.val.toNat ∧ c.val.toNat < 0x110000 := c.valid
  have back : Char.ofNat c.val.toNat = c := Char.ofNat_toNat c
  unfold String.utf8EncodeChar
  simp only
  generalize c.val.toNat = v at *
  split
  · rw [List.singleton_append, front_one, toNat_ofNat_of_lt (by omega), back]
    rw [toNat_ofNat_of_lt (by omega)]
    omega
  split
  · have first : (UInt8.ofNat (v / 64 % 32 + 192)).toNat = v / 64 % 32 + 192 :=
      toNat_ofNat_of_lt (by omega)
    have last : (UInt8.ofNat (v % 64 + 128)).toNat = v % 64 + 128 := toNat_ofNat_of_lt (by omega)
    have value : (v / 64 % 32 + 192 - 0xC0) * 64 + (v % 64 + 128 - 0x80) = v := by omega
    rw [List.cons_append, List.cons_append, List.nil_append,
      front_two (by omega) (by omega), first, last, value, back]
  have last : (UInt8.ofNat (v % 64 + 128)).toNat = v % 64 + 128 := toNat_ofNat_of_lt (by omega)
  have before : (UInt8.ofNat (v / 64 % 64 + 128)).toNat = v / 64 % 64 + 128 :=
    toNat_ofNat_of_lt (by omega)
  split
  · have first : (UInt8.ofNat (v / 4096 % 16 + 224)).toNat = v / 4096 % 16 + 224 :=
      toNat_ofNat_of_lt (by omega)
    have second : isSecond (UInt8.ofNat (v / 4096 % 16 + 224)) (UInt8.ofNat (v / 64 % 64 + 128)) =
        true := by
      rw [isSecond_iff, first, before]
      omega
    have value : (v / 4096 % 16 + 224 - 0xE0) * 4096 + (v / 64 % 64 + 128 - 0x80) * 64 +
        (v % 64 + 128 - 0x80) = v := by omega
    rw [List.cons_append, List.cons_append, List.cons_append, List.nil_append,
      front_three (by omega) second ((isTail_iff _).mpr (by omega)), first, before, last, value,
      back]
  · have first : (UInt8.ofNat (v / 262144 % 8 + 240)).toNat = v / 262144 % 8 + 240 :=
      toNat_ofNat_of_lt (by omega)
    have next : (UInt8.ofNat (v / 4096 % 64 + 128)).toNat = v / 4096 % 64 + 128 :=
      toNat_ofNat_of_lt (by omega)
    have second : isSecond (UInt8.ofNat (v / 262144 % 8 + 240))
        (UInt8.ofNat (v / 4096 % 64 + 128)) = true := by
      rw [isSecond_iff, first, next]
      omega
    have value : (v / 262144 % 8 + 240 - 0xF0) * 262144 + (v / 4096 % 64 + 128 - 0x80) * 4096 +
        (v / 64 % 64 + 128 - 0x80) * 64 + (v % 64 + 128 - 0x80) = v := by omega
    rw [List.cons_append, List.cons_append, List.cons_append, List.cons_append, List.nil_append,
      front_four (by omega) second ((isTail_iff _).mpr (by omega)) ((isTail_iff _).mpr (by omega)),
      first, next, before, last, value, back]

theorem ofNat_eq_of_eq_toNat {b : UInt8} {n : Nat} (h : n = b.toNat) : UInt8.ofNat n = b := by
  rw [h]
  exact UInt8.ofNat_toNat

/-- A number that may stand for a character is the number of that character. -/
theorem val_ofNat {n : Nat} (h : n < 0xD800 ∨ 0xDFFF < n ∧ n < 0x110000) :
    (Char.ofNat n).val.toNat = n := by
  have made : Char.ofNat n = Char.ofNatAux n h := dif_pos h
  rw [made]
  rfl

theorem utf8EncodeChar_one {a : UInt8} (h : a.toNat < 0x80) :
    String.utf8EncodeChar (Char.ofNat a.toNat) = [a] := by
  unfold String.utf8EncodeChar
  simp only [val_ofNat (n := a.toNat) (by omega)]
  rw [if_pos (by omega), ofNat_eq_of_eq_toNat rfl]

theorem utf8EncodeChar_two {a b : UInt8} (ha : 0xC2 ≤ a.toNat ∧ a.toNat < 0xE0)
    (hb : 0x80 ≤ b.toNat ∧ b.toNat < 0xC0) :
    String.utf8EncodeChar (Char.ofNat ((a.toNat - 0xC0) * 64 + (b.toNat - 0x80))) = [a, b] := by
  have valid := val_ofNat (n := (a.toNat - 0xC0) * 64 + (b.toNat - 0x80)) (by omega)
  generalize hn : (a.toNat - 0xC0) * 64 + (b.toNat - 0x80) = n at *
  unfold String.utf8EncodeChar
  simp only [valid]
  rw [if_neg (by omega), if_pos (by omega), ofNat_eq_of_eq_toNat (b := a) (by omega),
    ofNat_eq_of_eq_toNat (b := b) (by omega)]

theorem utf8EncodeChar_three {a b c : UInt8} (ha : 0xE0 ≤ a.toNat ∧ a.toNat < 0xF0)
    (hb : isSecond a b = true) (hc : isTail c = true) :
    String.utf8EncodeChar (Char.ofNat
        ((a.toNat - 0xE0) * 4096 + (b.toNat - 0x80) * 64 + (c.toNat - 0x80))) = [a, b, c] := by
  rw [isSecond_iff] at hb
  rw [isTail_iff] at hc
  have valid := val_ofNat
    (n := (a.toNat - 0xE0) * 4096 + (b.toNat - 0x80) * 64 + (c.toNat - 0x80)) (by omega)
  generalize hn : (a.toNat - 0xE0) * 4096 + (b.toNat - 0x80) * 64 + (c.toNat - 0x80) = n at *
  unfold String.utf8EncodeChar
  simp only [valid]
  rw [if_neg (by omega), if_neg (by omega), if_pos (by omega),
    ofNat_eq_of_eq_toNat (b := a) (by omega), ofNat_eq_of_eq_toNat (b := b) (by omega),
    ofNat_eq_of_eq_toNat (b := c) (by omega)]

theorem utf8EncodeChar_four {a b c d : UInt8} (ha : 0xF0 ≤ a.toNat ∧ a.toNat < 0xF5)
    (hb : isSecond a b = true) (hc : isTail c = true) (hd : isTail d = true) :
    String.utf8EncodeChar (Char.ofNat ((a.toNat - 0xF0) * 262144 + (b.toNat - 0x80) * 4096 +
        (c.toNat - 0x80) * 64 + (d.toNat - 0x80))) = [a, b, c, d] := by
  rw [isSecond_iff] at hb
  rw [isTail_iff] at hc hd
  have valid := val_ofNat (n := (a.toNat - 0xF0) * 262144 + (b.toNat - 0x80) * 4096 +
    (c.toNat - 0x80) * 64 + (d.toNat - 0x80)) (by omega)
  generalize hn : (a.toNat - 0xF0) * 262144 + (b.toNat - 0x80) * 4096 +
    (c.toNat - 0x80) * 64 + (d.toNat - 0x80) = n at *
  unfold String.utf8EncodeChar
  simp only [valid]
  rw [if_neg (by omega), if_neg (by omega), if_neg (by omega),
    ofNat_eq_of_eq_toNat (b := a) (by omega), ofNat_eq_of_eq_toNat (b := b) (by omega),
    ofNat_eq_of_eq_toNat (b := c) (by omega), ofNat_eq_of_eq_toNat (b := d) (by omega)]

/-- What stands in front of the rest once a character has been decoded is its encoding. -/
theorem eq_utf8EncodeChar_of_front {bytes rest : Bytes} {c : Char}
    (h : front bytes = .char c rest) : bytes = String.utf8EncodeChar c ++ rest := by
  unfold front at h
  (repeat' split at h) <;> simp only [Front.char.injEq, reduceCtorEq] at h <;>
    obtain ⟨rfl, rfl⟩ := h <;>
    simp only [Bool.or_eq_true, decide_eq_true_eq, not_or, UInt8.lt_iff_toNat_lt,
      UInt8.le_iff_toNat_le, UInt8.reduceToNat, Bool.not_eq_true', Bool.not_eq_false] at *
  · rw [utf8EncodeChar_one (by assumption)]
    rfl
  · rw [utf8EncodeChar_two (by omega) ((isSecond_iff _ _).mp (by assumption)).1]
    rfl
  · rw [utf8EncodeChar_three (by omega) (by assumption) (by assumption)]
    rfl
  · rw [utf8EncodeChar_four (by omega) (by assumption) (by assumption) (by assumption)]
    rfl

@[simp] theorem front_nil : front [] = .empty := rfl

theorem front_eq_empty_iff {bytes : Bytes} : front bytes = .empty ↔ bytes = [] := by
  constructor
  · intro h
    unfold front at h
    (repeat' split at h) <;> first | rfl | cases h
  · rintro rfl
    rfl

theorem piecesOnto_of_char {bytes rest : Bytes} {c : Char} (h : front bytes = .char c rest)
    (found : List Piece) : piecesOnto found bytes = piecesOnto (.char c :: found) rest := by
  rw [piecesOnto]
  split <;> simp_all

theorem piecesOnto_of_broken {bytes run rest : Bytes} {cut : Bool}
    (h : front bytes = .broken run cut rest) (found : List Piece) :
    piecesOnto found bytes = piecesOnto (.broken run cut :: found) rest := by
  rw [piecesOnto]
  split <;> simp_all

theorem piecesOnto_nil (found : List Piece) : piecesOnto found [] = found.reverse := by
  rw [piecesOnto]
  split <;> simp_all

theorem piecesOnto_append (found earlier : List Piece) (bytes : Bytes) :
    piecesOnto (found ++ earlier) bytes = earlier.reverse ++ piecesOnto found bytes := by
  induction found, bytes using piecesOnto.induct with
  | case1 found bytes h =>
    rw [front_eq_empty_iff.mp h, piecesOnto_nil, piecesOnto_nil, List.reverse_append]
  | case2 found bytes c rest h ih => rw [piecesOnto_of_char h, piecesOnto_of_char h, ← ih]; rfl
  | case3 found bytes run cut rest h ih =>
    rw [piecesOnto_of_broken h, piecesOnto_of_broken h, ← ih]; rfl

@[simp] theorem pieces_nil : pieces [] = [] :=
  piecesOnto_nil []

theorem pieces_of_char {bytes rest : Bytes} {c : Char} (h : front bytes = .char c rest) :
    pieces bytes = .char c :: pieces rest := by
  rw [pieces, piecesOnto_of_char h]
  exact piecesOnto_append [] [.char c] rest

theorem pieces_of_broken {bytes run rest : Bytes} {cut : Bool}
    (h : front bytes = .broken run cut rest) :
    pieces bytes = .broken run cut :: pieces rest := by
  rw [pieces, piecesOnto_of_broken h]
  exact piecesOnto_append [] [.broken run cut] rest

/-- Encoded text is taken apart into its characters, whatever follows it. -/
theorem pieces_octets_append (text : List Char) (rest : Bytes) :
    pieces (octets text ++ rest) = text.map .char ++ pieces rest := by
  induction text with
  | nil => rfl
  | cons c text ih =>
    rw [octets_cons, List.append_assoc, pieces_of_char (front_utf8EncodeChar c _), ih]
    rfl

theorem textOnto_chars (text : List Char) (found : List Char) (index : Nat) :
    textOnto found index (text.map .char) = .ok (String.ofList (found.reverse ++ text)) := by
  induction text generalizing found index with
  | nil => simp [textOnto]
  | cons c text ih =>
    rw [List.map_cons, textOnto, ih]
    simp

theorem decode_octets (text : List Char) : decode (octets text) = .ok (String.ofList text) := by
  have whole := pieces_octets_append text []
  rw [List.append_nil, pieces_nil, List.append_nil] at whole
  rw [decode, whole]
  exact textOnto_chars text [] 0

/-- Encoding and decoding give every text back. -/
theorem decode_encode (text : String) : decode (encode text) = .ok text := by
  have back := decode_octets text.toList
  rwa [String.ofList_toList] at back

theorem encode_injective : Function.Injective encode := by
  intro a b same
  have read := decode_encode a
  rw [same, decode_encode] at read
  exact (Except.ok.inj read).symm

/-- Text that comes out of pieces was there as its octets. -/
theorem eq_of_textOnto {bytes : Bytes} {found : List Char} {index : Nat} {text : String}
    (h : textOnto found index (pieces bytes) = .ok text) :
    ∃ more, text = String.ofList (found.reverse ++ more) ∧ bytes = octets more := by
  induction n : bytes.length using Nat.strongRecOn generalizing bytes found index with
  | ind n ih =>
    subst n
    cases taken : front bytes with
    | empty =>
      rw [front_eq_empty_iff.mp taken, pieces_nil, textOnto, Except.ok.injEq] at h
      exact ⟨[], by rw [List.append_nil, h], front_eq_empty_iff.mp taken⟩
    | char c rest =>
      rw [pieces_of_char taken, textOnto] at h
      obtain ⟨more, rfl, behind⟩ := ih _ (front_char_length taken) h rfl
      refine ⟨c :: more, by simp, ?_⟩
      rw [eq_utf8EncodeChar_of_front taken, behind, octets_cons]
    | broken run cut rest =>
      rw [pieces_of_broken taken, textOnto] at h
      cases h

/-- Octets are decoded to a text exactly when they are its encoding. -/
theorem decode_eq_ok_iff {bytes : Bytes} {text : String} :
    decode bytes = .ok text ↔ bytes = encode text := by
  constructor
  · intro h
    obtain ⟨more, rfl, same⟩ := eq_of_textOnto h
    rw [same, List.reverse_nil, List.nil_append, encode_ofList]
  · rintro rfl
    exact decode_encode text

/-- What decoding that never fails makes of a sequence of octets, as characters. -/
def shown (bytes : Bytes) : List Char :=
  (pieces bytes).map Piece.shown

@[simp] theorem shown_nil : shown [] = [] := by
  simp [shown]

theorem shown_of_char {bytes rest : Bytes} {c : Char} (h : front bytes = .char c rest) :
    shown bytes = c :: shown rest := by
  rw [shown, pieces_of_char h]
  rfl

theorem shown_of_broken {bytes run rest : Bytes} {cut : Bool}
    (h : front bytes = .broken run cut rest) : shown bytes = '\ufffd' :: shown rest := by
  rw [shown, pieces_of_broken h]
  rfl

theorem shown_octets_append (text : List Char) (rest : Bytes) :
    shown (octets text ++ rest) = text ++ shown rest := by
  rw [shown, pieces_octets_append, List.map_append, List.map_map]
  congr 1
  exact List.map_id text

theorem decodeLossy_encode (text : String) : decodeLossy (encode text) = text := by
  have back := shown_octets_append text.toList []
  rw [List.append_nil] at back
  show String.ofList (shown (octets text.toList)) = text
  rw [back]
  simp [shown]

/-- Octets that follow do not change the character in front. -/
theorem front_append_of_char {bytes rest : Bytes} {c : Char} (h : front bytes = .char c rest)
    (more : Bytes) : front (bytes ++ more) = .char c (rest ++ more) := by
  unfold front at h
  (repeat' split at h) <;> simp only [Front.char.injEq, reduceCtorEq] at h <;>
    (obtain ⟨rfl, rfl⟩ := h
     simp only [List.cons_append, front, *, if_true, if_false, Bool.false_eq_true])

theorem front_append_of_broken {bytes run rest : Bytes} (h : front bytes = .broken run false rest)
    (more : Bytes) : front (bytes ++ more) = .broken run false (rest ++ more) := by
  unfold front at h
  (repeat' split at h) <;>
    simp only [Front.broken.injEq, reduceCtorEq, false_and, and_false, true_and] at h <;>
    (obtain ⟨rfl, rfl⟩ := h
     simp only [List.cons_append, front, *, if_true, if_false, Bool.false_eq_true])

/-- A character that is cut short by the end is broken off as well by a character that takes
one octet. -/
theorem front_append_of_cut {bytes run rest : Bytes} (h : front bytes = .broken run true rest)
    {a : UInt8} (ha : a < 0x80) (more : Bytes) :
    rest = [] ∧ front (bytes ++ a :: more) = .broken run false (a :: more) := by
  have noTail : (!isTail a) = true := by
    rw [Bool.not_eq_true', ← Bool.not_eq_true, isTail_iff]
    have := UInt8.lt_iff_toNat_lt.mp ha
    simp only [UInt8.reduceToNat] at this
    omega
  have noSecond (lead : UInt8) : (!isSecond lead a) = true := by
    have := UInt8.lt_iff_toNat_lt.mp ha
    simp only [UInt8.reduceToNat] at this
    rw [Bool.not_eq_true', ← Bool.not_eq_true, isSecond_iff]
    omega
  unfold front at h
  (repeat' split at h) <;>
    simp only [Front.broken.injEq, reduceCtorEq, false_and, and_false, true_and] at h <;>
    (obtain ⟨rfl, rfl⟩ := h
     simp only [List.cons_append, List.nil_append, front, *, if_true, if_false,
       Bool.false_eq_true, and_self])

/-- An octet that is a character by itself starts a new character wherever it stands, so what
stands before it does not reach over it. -/
theorem shown_append_of_ascii {a : UInt8} (ha : a < 0x80) (before more : Bytes) :
    shown (before ++ a :: more) = shown before ++ shown (a :: more) := by
  induction h : before.length using Nat.strongRecOn generalizing before with
  | ind n ih =>
    subst h
    cases h : front before with
    | empty => rw [front_eq_empty_iff.mp h, List.nil_append, shown_nil, List.nil_append]
    | char c rest =>
      have shorter := front_char_length h
      rw [shown_of_char (front_append_of_char h _), ih _ shorter rest rfl, shown_of_char h,
        List.cons_append]
    | broken run cut rest =>
      have shorter := front_broken_length h
      cases cut with
      | false =>
        rw [shown_of_broken (front_append_of_broken h _), ih _ shorter rest rfl,
          shown_of_broken h, List.cons_append]
      | true =>
        obtain ⟨rfl, broken⟩ := front_append_of_cut h ha more
        rw [shown_of_broken broken, shown_of_broken h, shown_nil]
        rfl

/-- A character of the basic set comes from its own octet only. -/
theorem front_char_ascii {bytes rest : Bytes} {c : Char} (h : front bytes = .char c rest)
    (hc : c.toNat < 0x80) : bytes = UInt8.ofNat c.toNat :: rest := by
  have single := octets_ascii hc []
  rw [octets_cons, octets_nil, List.append_nil] at single
  rw [eq_utf8EncodeChar_of_front h, single, List.singleton_append]

theorem front_char_suffix {bytes rest : Bytes} {c : Char} (h : front bytes = .char c rest) :
    rest <:+ bytes := by
  unfold front at h
  (repeat' split at h) <;> simp only [Front.char.injEq, reduceCtorEq] at h <;>
    simp [← h.2, List.suffix_cons_iff]

theorem front_broken_suffix {bytes run rest : Bytes} {cut : Bool}
    (h : front bytes = .broken run cut rest) : rest <:+ bytes := by
  unfold front at h
  (repeat' split at h) <;> simp only [Front.broken.injEq, reduceCtorEq] at h <;>
    simp [← h.2.2, List.suffix_cons_iff]

/-- A character of the basic set is only shown where its octet stands. -/
theorem mem_of_mem_shown {c : Char} (hc : 0 < c.toNat ∧ c.toNat < 0x80) {bytes : Bytes}
    (h : c ∈ shown bytes) : UInt8.ofNat c.toNat ∈ bytes := by
  induction n : bytes.length using Nat.strongRecOn generalizing bytes with
  | ind n ih =>
    subst n
    cases taken : front bytes with
    | empty =>
      rw [front_eq_empty_iff.mp taken, shown_nil] at h
      cases h
    | char d rest =>
      have shorter := front_char_length taken
      rw [shown_of_char taken, List.mem_cons] at h
      obtain rfl | h := h
      · rw [front_char_ascii taken hc.2]
        exact List.mem_cons_self
      · exact (front_char_suffix taken).subset (ih _ shorter h rfl)
    | broken run cut rest =>
      have shorter := front_broken_length taken
      rw [shown_of_broken taken, List.mem_cons] at h
      obtain rfl | h := h
      · exact absurd hc (by decide)
      · exact (front_broken_suffix taken).subset (ih _ shorter h rfl)

end Utf8

end CompilerDriver

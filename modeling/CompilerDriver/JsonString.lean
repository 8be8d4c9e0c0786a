import CompilerDriver.Hexadecimal
import CompilerDriver.JsonReader

namespace CompilerDriver

namespace JsonString

def hexDigit? (b : UInt8) : Option Nat :=
  hexValue? b.toNat

/-- Four hexadecimal digits. -/
def unit : JsonReader Nat
  | a :: b :: c :: d :: rest =>
    match hexDigit? a, hexDigit? b, hexDigit? c, hexDigit? d with
    | some w, some x, some y, some z => .ok (w * 4096 + x * 256 + y * 16 + z, rest)
    | _, _, _, _ => .error (.fixed .invalidEscape rest)
  | _ => .error (.fixed .endOfString [])

theorem unit_length {bytes rest : Bytes} {n : Nat} (h : unit bytes = .ok (n, rest)) :
    rest.length < bytes.length := by
  unfold unit at h
  (repeat' split at h) <;> simp only [Except.ok.injEq, Prod.mk.injEq, reduceCtorEq] at h
  simp only [← h.2, List.length_cons]
  omega

/-- The second half of a pair of surrogates, behind the first one. -/
def lowHalf (high : Nat) : JsonReader Char
  | [] => .error (.fixed .endOfString [])
  | b :: rest =>
    if b = ascii '\x5c' then
      match rest with
      | [] => .error (.fixed .endOfString [])
      | u :: rest =>
        if u = ascii 'u' then
          match unit rest with
          | .error fault => .error fault
          | .ok (low, rest) =>
            if 0xDC00 ≤ low ∧ low ≤ 0xDFFF then
              .ok (Char.ofNat ((high - 0xD800) * 0x400 + (low - 0xDC00) + 0x10000), rest)
            else .error (.fixed .loneSurrogate rest)
        else .error (.fixed .unexpectedEndOfHexEscape rest)
    else .error (.fixed .unexpectedEndOfHexEscape rest)

theorem lowHalf_length {high : Nat} {bytes rest : Bytes} {c : Char}
    (h : lowHalf high bytes = .ok (c, rest)) : rest.length < bytes.length := by
  unfold lowHalf at h
  (repeat' split at h) <;> simp only [Except.ok.injEq, Prod.mk.injEq, reduceCtorEq] at h
  next unitRead _ =>
    have := unit_length unitRead
    simp only [← h.2, List.length_cons]
    omega

/-- The character of a hexadecimal escape, which two escapes write when it lies beyond the basic
plane. -/
def codePoint : JsonReader Char := fun bytes =>
  match unit bytes with
  | .error fault => .error fault
  | .ok (n, rest) =>
    if 0xDC00 ≤ n ∧ n ≤ 0xDFFF then .error (.fixed .loneSurrogate rest)
    else if 0xD800 ≤ n ∧ n ≤ 0xDBFF then lowHalf n rest
    else .ok (Char.ofNat n, rest)

theorem codePoint_length {bytes rest : Bytes} {c : Char} (h : codePoint bytes = .ok (c, rest)) :
    rest.length < bytes.length := by
  unfold codePoint at h
  split at h
  · cases h
  next unitRead =>
    have := unit_length unitRead
    split at h
    · cases h
    · split at h
      · have := lowHalf_length h
        omega
      · simp only [Except.ok.injEq, Prod.mk.injEq] at h
        simp only [← h.2]
        omega

/-- The character that stands behind a backslash for one that is awkward to write. -/
def shortEscape? (b : UInt8) : Option Char :=
  if b = ascii '\x22' then some '\x22'
  else if b = ascii '\x5c' then some '\x5c'
  else if b = ascii '/' then some '/'
  else if b = ascii 'b' then some '\x08'
  else if b = ascii 'f' then some '\x0c'
  else if b = ascii 'n' then some '\n'
  else if b = ascii 'r' then some '\r'
  else if b = ascii 't' then some '\t'
  else none

/-- What a backslash begins. -/
def escape : JsonReader Char
  | [] => .error (.fixed .endOfString [])
  | b :: rest =>
    match shortEscape? b with
    | some c => .ok (c, rest)
    | none => if b = ascii 'u' then codePoint rest else .error (.fixed .invalidEscape rest)

theorem escape_length {bytes rest : Bytes} {c : Char} (h : escape bytes = .ok (c, rest)) :
    rest.length < bytes.length := by
  unfold escape at h
  split at h
  · cases h
  · split at h
    · simp only [Except.ok.injEq, Prod.mk.injEq] at h
      simp [← h.2]
    · split at h
      · have := codePoint_length h
        simp only [List.length_cons]
        omega
      · cases h

/-- The octets up to the closing quote, with every escape replaced by the character it stands
for. Whether they are text is not asked. -/
def octetsOnto (found : Bytes) (bytes : Bytes) : Except JsonFault (Bytes × Bytes) :=
  match bytes with
  | [] => .error (.fixed .endOfString [])
  | b :: rest =>
    if b = ascii '\x22' then .ok (found.reverse, rest)
    else if b = ascii '\x5c' then
      match _h : escape rest with
      | .error fault => .error fault
      | .ok (c, rest) => octetsOnto ((String.utf8EncodeChar c).reverse ++ found) rest
    else if b < 0x20 then .error (.fixed .controlCharacter rest)
    else octetsOnto (b :: found) rest
termination_by bytes.length
decreasing_by
  · have := escape_length _h
    simp only [List.length_cons]
    omega
  · simp

/-- A string whose opening quote has been taken. That it is text is checked once the closing quote
has been found; a fault is placed as many octets before the end as stand unread there. -/
def body : JsonReader String := fun bytes =>
  match octetsOnto [] bytes with
  | .error fault => .error fault
  | .ok (octets, rest) =>
    match Utf8.decode octets with
    | .ok text => .ok (text, rest)
    | .error fault =>
      let unread := octets.length - fault.index + rest.length
      .error (.fixed .invalidCodePoint (bytes.drop (bytes.length - unread)))

/-- Passes over a string whose opening quote has been taken; an escape needs only its form. -/
def skip (bytes : Bytes) : Except JsonFault (Unit × Bytes) :=
  match bytes with
  | [] => .error (.fixed .endOfString [])
  | b :: rest =>
    if b = ascii '\x22' then .ok ((), rest)
    else if b = ascii '\x5c' then
      match rest with
      | [] => .error (.fixed .endOfString [])
      | e :: rest =>
        if (shortEscape? e).isSome then skip rest
        else if e = ascii 'u' then
          match _h : unit rest with
          | .error fault => .error fault
          | .ok (_, rest) => skip rest
        else .error (.fixed .invalidEscape rest)
    else if b < 0x20 then .error (.fixed .controlCharacter (b :: rest))
    else skip rest
termination_by bytes.length
decreasing_by
  · simp only [List.length_cons]
    omega
  · have := unit_length _h
    simp only [List.length_cons]
    omega
  · simp

end JsonString

end CompilerDriver

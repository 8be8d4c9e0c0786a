namespace CompilerDriver

/-- Octets as files, streams, arguments and paths hold them, not yet known to be text. -/
abbrev Bytes := List UInt8

namespace Utf8

/-- What a sequence of octets begins with. A broken front is the longest run that starts a
character and does not finish it, or one octet that starts none; it is `cut` when the end of the
sequence stopped it and not a wrong octet. -/
inductive Front where
  | empty
  | char (c : Char) (rest : Bytes)
  | broken (octets : Bytes) (cut : Bool) (rest : Bytes)

def isTail (b : UInt8) : Bool :=
  0x80 ≤ b && b < 0xC0

/-- Whether `b` may stand behind the leading octet `a`. Overlong forms, surrogates and values
beyond the last code point are excluded by the second octet alone. -/
def isSecond (a b : UInt8) : Bool :=
  isTail b && (a != 0xE0 || 0xA0 ≤ b) && (a != 0xED || b < 0xA0) &&
    (a != 0xF0 || 0x90 ≤ b) && (a != 0xF4 || b < 0x90)

def front : Bytes → Front
  | [] => .empty
  | a :: r =>
    if a < 0x80 then .char (Char.ofNat a.toNat) r
    else if a < 0xC2 || 0xF5 ≤ a then .broken [a] false r
    else match r with
      | [] => .broken [a] true []
      | b :: r₂ =>
        if !isSecond a b then .broken [a] false r
        else if a < 0xE0 then
          .char (Char.ofNat ((a.toNat - 0xC0) * 64 + (b.toNat - 0x80))) r₂
        else match r₂ with
          | [] => .broken [a, b] true []
          | c :: r₃ =>
            if !isTail c then .broken [a, b] false r₂
            else if a < 0xF0 then
              .char (Char.ofNat
                ((a.toNat - 0xE0) * 4096 + (b.toNat - 0x80) * 64 + (c.toNat - 0x80))) r₃
            else match r₃ with
              | [] => .broken [a, b, c] true []
              | d :: r₄ =>
                if !isTail d then .broken [a, b, c] false r₃
                else
                  .char (Char.ofNat ((a.toNat - 0xF0) * 262144 + (b.toNat - 0x80) * 4096 +
                    (c.toNat - 0x80) * 64 + (d.toNat - 0x80))) r₄

theorem front_char_length {bytes rest : Bytes} {c : Char} (h : front bytes = .char c rest) :
    rest.length < bytes.length := by
  unfold front at h
  (repeat' split at h) <;> simp only [Front.char.injEq, reduceCtorEq] at h <;>
    simp only [← h.2, List.length_cons] <;> omega

theorem front_broken_length {bytes octets rest : Bytes} {cut : Bool}
    (h : front bytes = .broken octets cut rest) : rest.length < bytes.length := by
  unfold front at h
  (repeat' split at h) <;> simp only [Front.broken.injEq, reduceCtorEq] at h <;>
    simp only [← h.2.2, List.length_cons, List.length_nil] <;> omega

/-- A sequence of octets taken apart into characters and broken runs. -/
inductive Piece where
  | char (c : Char)
  | broken (octets : Bytes) (cut : Bool)

def piecesOnto (found : List Piece) (bytes : Bytes) : List Piece :=
  match _h : front bytes with
  | .empty => found.reverse
  | .char c rest => piecesOnto (.char c :: found) rest
  | .broken octets cut rest => piecesOnto (.broken octets cut :: found) rest
termination_by bytes.length
decreasing_by
  · exact front_char_length _h
  · exact front_broken_length _h

def pieces (bytes : Bytes) : List Piece :=
  piecesOnto [] bytes

/-- The first place where a sequence of octets stops being text. The length is absent when the
sequence ends inside a character. -/
structure Fault where
  index : Nat
  length : Option Nat
deriving DecidableEq

def Fault.message (fault : Fault) : String :=
  match fault.length with
  | some n => s!"invalid utf-8 sequence of {n} bytes from index {fault.index}"
  | none => s!"incomplete utf-8 byte sequence from index {fault.index}"

def textOnto (found : List Char) (index : Nat) : List Piece → Except Fault String
  | [] => .ok (String.ofList found.reverse)
  | .char c :: rest => textOnto (c :: found) (index + c.utf8Size) rest
  | .broken octets cut :: _ => .error ⟨index, if cut then none else some octets.length⟩

/-- Strict decoding: text, or where it breaks first. -/
def decode (bytes : Bytes) : Except Fault String :=
  textOnto [] 0 (pieces bytes)

def Piece.shown : Piece → Char
  | .char c => c
  | .broken _ _ => '\ufffd'

/-- Decoding that never fails: every broken run becomes one replacement character. -/
def decodeLossy (bytes : Bytes) : String :=
  String.ofList ((pieces bytes).map Piece.shown)

def encode (text : String) : Bytes :=
  text.toList.flatMap String.utf8EncodeChar

end Utf8

end CompilerDriver

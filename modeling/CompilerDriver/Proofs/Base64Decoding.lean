import CompilerDriver.Base64
import Mathlib.Data.List.Basic

namespace CompilerDriver

namespace Base64

/-- The digits in the order of their values. -/
def alphabet : List Char :=
  "ABCDEFGHIJKLMNOPQRSTUVWXYZabcdefghijklmnopqrstuvwxyz0123456789+/".toList

def value? (c : Char) : Option Nat :=
  alphabet.idxOf? c

/-- The octet whose bits begin with those of one digit and end with those of the next. -/
def octet (high low : Nat) : UInt8 :=
  UInt8.ofNat (high + low)

/-- The three octets that four digits stand for. -/
def decodeGroup? (a b c d : Char) : Option Bytes := do
  let w ← value? a
  let x ← value? b
  let y ← value? c
  let z ← value? d
  return [octet (w * 4) (x / 16), octet (x % 16 * 16) (y / 4), octet (y % 4 * 64) z]

/-- The octets that the last four characters stand for, of which one or two may be filling. Bits
behind the last octet must not be set. -/
def decodeLast? (a b c d : Char) : Option Bytes :=
  if d ≠ '=' then decodeGroup? a b c d
  else if c ≠ '=' then do
    let w ← value? a
    let x ← value? b
    let y ← value? c
    if y % 4 = 0 then return [octet (w * 4) (x / 16), octet (x % 16 * 16) (y / 4)] else none
  else do
    let w ← value? a
    let x ← value? b
    if x % 16 = 0 then return [octet (w * 4) (x / 16)] else none

/-- The octets that a text of digits stands for; absent for any other text. -/
def decode? : List Char → Option Bytes
  | [] => some []
  | a :: b :: c :: d :: rest =>
    if rest = [] then decodeLast? a b c d
    else do
      let octets ← decodeGroup? a b c d
      return octets ++ (← decode? rest)
  | _ => none

theorem digit_mem {n : Nat} (h : n < 64) : digit n ∈ alphabet := by
  revert n
  decide +kernel

theorem value?_digit {n : Nat} (h : n < 64) : value? (digit n) = some n := by
  revert n
  decide +kernel

theorem digit_ne {n : Nat} (h : n < 64) : digit n ≠ '=' := by
  revert n
  decide +kernel

/-- The bits of three octets in groups of six. -/
theorem group_eq (a b c : UInt8) :
    group a b c =
      [digit (a.toNat / 4), digit (a.toNat % 4 * 16 + b.toNat / 16),
        digit (b.toNat % 16 * 4 + c.toNat / 64), digit (c.toNat % 64)] := by
  have ha := a.toNat_lt
  have hb := b.toNat_lt
  have hc := c.toNat_lt
  have first : (a.toNat * 65536 + b.toNat * 256 + c.toNat) / 262144 = a.toNat / 4 := by omega
  have second : (a.toNat * 65536 + b.toNat * 256 + c.toNat) / 4096 % 64 =
      a.toNat % 4 * 16 + b.toNat / 16 := by omega
  have third : (a.toNat * 65536 + b.toNat * 256 + c.toNat) / 64 % 64 =
      b.toNat % 16 * 4 + c.toNat / 64 := by omega
  have fourth : (a.toNat * 65536 + b.toNat * 256 + c.toNat) % 64 = c.toNat % 64 := by omega
  simp only [group, first, second, third, fourth]

theorem mem_alphabet_of_group {a b c : UInt8} {d : Char} (h : d ∈ group a b c) :
    d ∈ alphabet := by
  have ha := a.toNat_lt
  have hb := b.toNat_lt
  have hc := c.toNat_lt
  rw [group_eq] at h
  simp only [List.mem_cons, List.not_mem_nil, or_false] at h
  rcases h with rfl | rfl | rfl | rfl <;> exact digit_mem (by omega)

theorem encodeOnto_eq : ∀ (bytes : Bytes) (found : List Char),
    encodeOnto found bytes = found.reverse ++ encode bytes
  | [], found => by simp [encode, encodeOnto]
  | [a], found => by simp [encode, encodeOnto]
  | [a, b], found => by simp [encode, encodeOnto]
  | a :: b :: c :: rest, found => by
    rw [encode, encodeOnto, encodeOnto, encodeOnto_eq rest, encodeOnto_eq rest]
    simp

theorem encode_cons (a b c : UInt8) (rest : Bytes) :
    encode (a :: b :: c :: rest) = group a b c ++ encode rest := by
  rw [encode, encodeOnto, encodeOnto_eq]
  simp

theorem encode_one (a : UInt8) :
    encode [a] = [digit (a.toNat / 4), digit (a.toNat % 4 * 16), '=', '='] := by
  simp [encode, encodeOnto, group_eq]

theorem encode_two (a b : UInt8) :
    encode [a, b] =
      [digit (a.toNat / 4), digit (a.toNat % 4 * 16 + b.toNat / 16), digit (b.toNat % 16 * 4),
        '='] := by
  simp [encode, encodeOnto, group_eq]

/-- Only digits, with at most two signs of filling behind them. -/
theorem exists_digits : ∀ bytes : Bytes, ∃ digits filling,
    encode bytes = digits ++ List.replicate filling '=' ∧ filling ≤ 2 ∧ ∀ c ∈ digits, c ∈ alphabet
  | [] => ⟨[], 0, rfl, by decide, by simp⟩
  | [a] => by
    have ha := a.toNat_lt
    have first : digit (a.toNat / 4) ∈ alphabet := digit_mem (by omega)
    have last : digit (a.toNat % 4 * 16) ∈ alphabet := digit_mem (by omega)
    refine ⟨[digit (a.toNat / 4), digit (a.toNat % 4 * 16)], 2, encode_one a, by decide, ?_⟩
    simp [first, last]
  | [a, b] => by
    have ha := a.toNat_lt
    have hb := b.toNat_lt
    have first : digit (a.toNat / 4) ∈ alphabet := digit_mem (by omega)
    have second : digit (a.toNat % 4 * 16 + b.toNat / 16) ∈ alphabet := digit_mem (by omega)
    have last : digit (b.toNat % 16 * 4) ∈ alphabet := digit_mem (by omega)
    refine ⟨[_, _, _], 1, encode_two a b, by decide, ?_⟩
    simp [first, second, last]
  | a :: b :: c :: rest => by
    obtain ⟨digits, filling, same, few, each⟩ := exists_digits rest
    refine ⟨group a b c ++ digits, filling, by rw [encode_cons, same, List.append_assoc], few, ?_⟩
    intro d member
    exact (List.mem_append.mp member).elim mem_alphabet_of_group (each d)

theorem length_encode : ∀ bytes : Bytes, (encode bytes).length = 4 * ((bytes.length + 2) / 3)
  | [] => rfl
  | [a] => by simp [encode_one]
  | [a, b] => by simp [encode_two]
  | a :: b :: c :: rest => by
    rw [encode_cons, List.length_append, length_encode rest, group_eq]
    simp only [List.length_cons, List.length_nil]
    omega

theorem octet_of_parts {high low : Nat} {a : UInt8} (h : high + low = a.toNat) :
    octet high low = a := by
  rw [octet, h]
  exact UInt8.ofNat_toNat

section

variable {w x y z : Nat}

theorem decodeGroup?_digits (hw : w < 64) (hx : x < 64) (hy : y < 64) (hz : z < 64) :
    decodeGroup? (digit w) (digit x) (digit y) (digit z) =
      some [octet (w * 4) (x / 16), octet (x % 16 * 16) (y / 4), octet (y % 4 * 64) z] := by
  simp [decodeGroup?, value?_digit, hw, hx, hy, hz]

theorem decodeLast?_three (hw : w < 64) (hx : x < 64) (hy : y < 64) (unset : y % 4 = 0) :
    decodeLast? (digit w) (digit x) (digit y) '=' =
      some [octet (w * 4) (x / 16), octet (x % 16 * 16) (y / 4)] := by
  simp [decodeLast?, value?_digit, digit_ne, hw, hx, hy, unset]

theorem decodeLast?_two (hw : w < 64) (hx : x < 64) (unset : x % 16 = 0) :
    decodeLast? (digit w) (digit x) '=' '=' = some [octet (w * 4) (x / 16)] := by
  simp [decodeLast?, value?_digit, hw, hx, unset]

end

/-- Four characters without filling are decoded by themselves, also when they are the last. -/
theorem decode?_cons {a b c d : Char} (full : d ≠ '=') (rest : List Char) :
    decode? (a :: b :: c :: d :: rest) = do
      let octets ← decodeGroup? a b c d
      return octets ++ (← decode? rest) := by
  rw [decode?]
  by_cases last : rest = []
  · subst last
    rw [if_pos rfl, decodeLast?, if_pos full]
    simp [decode?]
  · rw [if_neg last]

/-- Decoding gives back what has been encoded. -/
theorem decode?_encode : ∀ bytes : Bytes, decode? (encode bytes) = some bytes
  | [] => rfl
  | [a] => by
    have ha := a.toNat_lt
    rw [encode_one, decode?, if_pos rfl, decodeLast?_two (by omega) (by omega) (by omega),
      octet_of_parts (a := a) (by omega)]
  | [a, b] => by
    have ha := a.toNat_lt
    have hb := b.toNat_lt
    rw [encode_two, decode?, if_pos rfl,
      decodeLast?_three (by omega) (by omega) (by omega) (by omega),
      octet_of_parts (a := a) (by omega), octet_of_parts (a := b) (by omega)]
  | a :: b :: c :: rest => by
    have ha := a.toNat_lt
    have hb := b.toNat_lt
    have hc := c.toNat_lt
    have full : digit (c.toNat % 64) ≠ '=' := digit_ne (by omega)
    have four : group a b c ++ encode rest = digit (a.toNat / 4) ::
        digit (a.toNat % 4 * 16 + b.toNat / 16) :: digit (b.toNat % 16 * 4 + c.toNat / 64) ::
          digit (c.toNat % 64) :: encode rest := by rw [group_eq]; rfl
    rw [encode_cons, four, decode?_cons full,
      decodeGroup?_digits (by omega) (by omega) (by omega) (by omega), decode?_encode rest,
      octet_of_parts (a := a) (by omega), octet_of_parts (a := b) (by omega),
      octet_of_parts (a := c) (by omega)]
    rfl

theorem encode_injective : Function.Injective encode := by
  intro a b same
  have back := decode?_encode a
  rw [same, decode?_encode] at back
  exact (Option.some.inj back).symm

end Base64

end CompilerDriver

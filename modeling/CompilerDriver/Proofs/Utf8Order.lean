import CompilerDriver.Proofs.Utf8Text
import Mathlib.Data.List.Lex

namespace CompilerDriver

namespace Utf8

/-- The order of texts by their octets. -/
def Precedes (a b : String) : Prop :=
  List.Lex (· < ·) (encode a) (encode b)

theorem lex_of_lt {m n : Nat} (h : m < n) (hn : n < 256) (a b : Bytes) :
    List.Lex (· < ·) (UInt8.ofNat m :: a) (UInt8.ofNat n :: b) := by
  refine .rel ?_
  rw [UInt8.lt_iff_toNat_lt, toNat_ofNat_of_lt (h.trans hn), toNat_ofNat_of_lt hn]
  exact h

/-- Octets that grow with the quotients of two numbers, and the octets behind them if these are the
same. -/
theorem lex_of_quotients {m n v w : Nat} (place : Nat) (h : v < w) (hn : n < 256) {a b : Bytes}
    (less : v / place < w / place → m < n)
    (same : v / place = w / place → m = n ∧ List.Lex (· < ·) a b) :
    List.Lex (· < ·) (UInt8.ofNat m :: a) (UInt8.ofNat n :: b) := by
  rcases (Nat.div_le_div_right h.le : v / place ≤ w / place).lt_or_eq with apart | alike
  · exact lex_of_lt (less apart) hn a b
  · obtain ⟨rfl, rest⟩ := same alike
    exact .cons rest

/-- A character with a smaller number has smaller octets, whatever follows them. -/
theorem lex_utf8EncodeChar {c d : Char} (h : c < d) (a b : Bytes) :
    List.Lex (· < ·) (String.utf8EncodeChar c ++ a) (String.utf8EncodeChar d ++ b) := by
  have below : c.val.toNat < d.val.toNat := h
  have bound : d.val.toNat < 0x110000 := by
    have valid : d.val.toNat < 0xD800 ∨ 0xDFFF < d.val.toNat ∧ d.val.toNat < 0x110000 := d.valid
    omega
  unfold String.utf8EncodeChar
  simp only
  generalize c.val.toNat = v at *
  generalize d.val.toNat = w at *
  -- The more octets a character takes, the larger its first octet.
  split
  · split
    · exact lex_of_lt (by omega) (by omega) _ _
    split
    · exact lex_of_lt (by omega) (by omega) _ _
    split <;> exact lex_of_lt (by omega) (by omega) _ _
  rw [if_neg (show ¬w ≤ 127 by omega)]
  split
  · split
    · refine lex_of_quotients 64 below (by omega) (by omega) fun _ => ⟨by omega, ?_⟩
      exact lex_of_lt (by omega) (by omega) _ _
    split <;> exact lex_of_lt (by omega) (by omega) _ _
  rw [if_neg (show ¬w ≤ 2047 by omega)]
  split
  · split
    · refine lex_of_quotients 4096 below (by omega) (by omega) fun _ => ⟨by omega, ?_⟩
      refine lex_of_quotients 64 below (by omega) (by omega) fun _ => ⟨by omega, ?_⟩
      exact lex_of_lt (by omega) (by omega) _ _
    · exact lex_of_lt (by omega) (by omega) _ _
  rw [if_neg (show ¬w ≤ 65535 by omega)]
  refine lex_of_quotients 262144 below (by omega) (by omega) fun _ => ⟨by omega, ?_⟩
  refine lex_of_quotients 4096 below (by omega) (by omega) fun _ => ⟨by omega, ?_⟩
  refine lex_of_quotients 64 below (by omega) (by omega) fun _ => ⟨by omega, ?_⟩
  exact lex_of_lt (by omega) (by omega) _ _

theorem lex_octets {cs ds : List Char} (h : cs < ds) :
    List.Lex (· < ·) (octets cs) (octets ds) := by
  induction h with
  | @nil d ds =>
    obtain ⟨b, more, encoded⟩ := List.exists_cons_of_length_pos
      (String.length_utf8EncodeChar d ▸ d.utf8Size_pos)
    rw [octets_nil, octets_cons, encoded]
    exact .nil
  | rel h => exact lex_utf8EncodeChar h _ _
  | cons _ ih => exact List.Lex.append_left (· < ·) ih _

/-- Texts in increasing order of their characters are so of their octets. -/
theorem precedes_of_lt {a b : String} (h : a < b) : Precedes a b :=
  lex_octets h

end Utf8

end CompilerDriver

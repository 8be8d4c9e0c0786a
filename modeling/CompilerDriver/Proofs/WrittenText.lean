import CompilerDriver.JsonText
import CompilerDriver.Proofs.StringReading
import Mathlib.Data.List.Forall2

namespace CompilerDriver

open JsonGrammar Utf8

variable {α : Type}

namespace JsonText

theorem octets_hexDigit {n : Nat} (h : n < 16) (text : List Char) :
    octets (Nat.digitChar n :: text) = hexDigit n :: octets text :=
  octets_ascii (JsonString.hexDigit?_eq_some (.lower h)).2 text

/-- A character is written in one of the ways that the grammar has for it. -/
theorem char_written (c : Char) : ∃ text, Letter c text ∧ octets text = char c := by
  have short (name : Char) (h : (name, c) ∈ shortEscapes)
      (written : char c = [ascii '\\', ascii name]) :
      ∃ text, Letter c text ∧ octets text = char c := by
    have small := (JsonString.shortEscape?_eq_some h).2
    refine ⟨['\\', name], .short h, ?_⟩
    rw [written, octets_ascii (by decide), octets_ascii small]
    rfl
  by_cases quote : c = '\x22'
  · subst quote
    exact short '\x22' (by decide) rfl
  by_cases backslash : c = '\\'
  · subst backslash
    exact short '\\' (by decide) rfl
  by_cases back : c = '\x08'
  · subst back
    exact short 'b' (by decide) rfl
  by_cases tab : c = '\t'
  · subst tab
    exact short 't' (by decide) rfl
  by_cases line : c = '\n'
  · subst line
    exact short 'n' (by decide) rfl
  by_cases page : c = '\x0c'
  · subst page
    exact short 'f' (by decide) rfl
  by_cases carriage : c = '\r'
  · subst carriage
    exact short 'r' (by decide) rfl
  rw [char, if_neg quote, if_neg backslash, if_neg back, if_neg tab, if_neg line, if_neg page,
    if_neg carriage]
  by_cases control : c.toNat < 0x20
  · have high : c.toNat / 16 < 16 := by omega
    have low : c.toNat % 16 < 16 := by omega
    have zero : HexDigit 0 '0' := .lower (by decide)
    have digits := CodeUnit.digits zero zero (.lower high) (.lower low)
    rw [show 0 * 4096 + 0 * 256 + c.toNat / 16 * 16 + c.toNat % 16 = c.toNat by omega] at digits
    refine ⟨_, .unit digits, ?_⟩
    rw [if_pos control, octets_ascii (by decide), octets_ascii (by decide),
      octets_ascii (by decide), octets_ascii (by decide), octets_hexDigit high, octets_hexDigit low]
    rfl
  · refine ⟨[c], .plain (Nat.not_lt.mp control) quote backslash, ?_⟩
    rw [if_neg control, octets_cons, octets_nil, List.append_nil]

theorem letters_written (cs : List Char) :
    ∃ inside, Letters cs inside ∧ octets inside = cs.flatMap char := by
  induction cs with
  | nil => exact ⟨[], .nil, rfl⟩
  | cons c cs ih =>
    obtain ⟨text, letter, written⟩ := char_written c
    obtain ⟨more, letters, rest⟩ := ih
    refine ⟨text ++ more, .cons letter letters, ?_⟩
    rw [octets_append, written, rest, List.flatMap_cons]

theorem string_written (s : String) : ∃ text, Quoted s text ∧ octets text = string s := by
  obtain ⟨inside, letters, written⟩ := letters_written s.toList
  refine ⟨_, .quoted letters, ?_⟩
  rw [octets_ascii (by decide), octets_append, written, octets_ascii (by decide)]
  rfl

section

variable {spells : α → List Char → Prop} {value : α → JsonValue}

theorem items_written {as : List α}
    (each : ∀ a ∈ as, ∃ text, spells a text ∧ octets text = (value a).write) :
    ∃ inside, Items spells false as inside ∧ octets (inside ++ [']']) = items (as.map value) := by
  induction as with
  | nil => exact ⟨[], .nil gap_nil, rfl⟩
  | cons a as ih =>
    obtain ⟨text, spelled, written⟩ := each a List.mem_cons_self
    obtain ⟨more, tail, rest⟩ := ih fun b hb => each b (List.mem_cons_of_mem a hb)
    refine ⟨_, .cons gap_nil gap_nil spelled tail, ?_⟩
    rw [List.map_cons, items, ← rest, ← written]
    simp [separator, octets_ascii]

theorem list_written {as : List α}
    (each : ∀ a ∈ as, ∃ text, spells a text ∧ octets text = (value a).write) :
    ∃ text, Listed spells as text ∧ octets text = (JsonValue.list (as.map value)).write := by
  cases as with
  | nil => exact ⟨_, .list (.nil gap_nil), rfl⟩
  | cons a as =>
    obtain ⟨text, spelled, written⟩ := each a List.mem_cons_self
    obtain ⟨more, tail, rest⟩ := items_written fun b hb => each b (List.mem_cons_of_mem a hb)
    refine ⟨_, .list (.cons gap_nil gap_nil spelled tail), ?_⟩
    rw [List.map_cons, JsonValue.write, ← rest, ← written]
    simp [separator, octets_ascii]

end

/-- The text of a member's value is the one that is written for it. -/
structure Spelled (member : String × JsonValue) (text : String × List Char) : Prop where
  key : text.1 = member.1
  value : WellFormed .value text.2
  written : octets text.2 = member.2.write

theorem member_written {member : String × JsonValue} {text : String × List Char}
    (h : Spelled member text) :
    ∃ whole, Member text whole ∧
      octets whole = string member.1 ++ ascii ':' :: member.2.write := by
  obtain ⟨name, spelling⟩ := text
  obtain ⟨rfl, value, written⟩ := h
  obtain ⟨quoted, key, named⟩ := string_written member.1
  refine ⟨_, .member (.label key gap_nil) gap_nil value, ?_⟩
  rw [← written, ← named]
  simp [octets_ascii]

theorem members_written {members : List (String × JsonValue)} {texts : List (String × List Char)}
    (h : List.Forall₂ Spelled members texts) :
    ∃ inside, Items Member false texts inside ∧
      octets (inside ++ ['\x7d']) = JsonText.members members := by
  induction h with
  | nil => exact ⟨[], .nil gap_nil, rfl⟩
  | @cons member text members texts head _ ih =>
    obtain ⟨whole, spelled, written⟩ := member_written head
    obtain ⟨more, tail, rest⟩ := ih
    refine ⟨_, .cons gap_nil gap_nil spelled tail, ?_⟩
    rw [JsonText.members, ← rest]
    simp [separator, octets_ascii, written]

theorem object_written {members : List (String × JsonValue)} {texts : List (String × List Char)}
    (h : List.Forall₂ Spelled members texts) :
    ∃ text, Object texts text ∧ octets text = (JsonValue.object members).write := by
  cases h with
  | nil => exact ⟨_, .object (.nil gap_nil), rfl⟩
  | @cons member text members texts head others =>
    obtain ⟨whole, spelled, written⟩ := member_written head
    obtain ⟨more, tail, rest⟩ := members_written others
    refine ⟨_, .object (.cons gap_nil gap_nil spelled tail), ?_⟩
    rw [JsonValue.write, ← rest]
    simp [separator, octets_ascii, written]

end JsonText

end CompilerDriver

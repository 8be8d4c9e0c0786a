import CompilerDriver.Caret

namespace CompilerDriver

namespace Caret

/-- The 16-bit units of a character: its own number, or a pair of surrogates. -/
def codeUnits (c : Char) : List UInt16 :=
  if c.toNat < 0x10000 then [UInt16.ofNat c.toNat]
  else
    [UInt16.ofNat (0xD800 + (c.toNat - 0x10000) / 0x400),
      UInt16.ofNat (0xDC00 + (c.toNat - 0x10000) % 0x400)]

def utf16 (text : String) : List UInt16 :=
  text.toList.flatMap codeUnits

def tabUnit : UInt16 :=
  UInt16.ofNat '\t'.toNat

/-- What stands below a unit of a line in front of a caret. -/
def below (unit : UInt16) : Char :=
  if unit = tabUnit then '\t' else ' '

@[simp] theorem utf16_append (a b : String) : utf16 (a ++ b) = utf16 a ++ utf16 b := by
  simp [utf16]

theorem below_of_ne {n : Nat} (small : n < 0x10000) (h : n ≠ '\t'.toNat) :
    below (UInt16.ofNat n) = ' ' := by
  refine if_neg fun same => h ?_
  have value := congrArg UInt16.toNat same
  rwa [tabUnit, UInt16.toNat_ofNat_of_lt' small, UInt16.toNat_ofNat_of_lt' (by decide)] at value

/-- Half of a pair of surrogates is never a tab. -/
theorem map_below_codeUnits (c : Char) :
    (codeUnits c).map below = if c = '\t' then ['\t'] else List.replicate (units c) ' ' := by
  by_cases tab : c = '\t'
  · subst tab
    rfl
  rw [if_neg tab, codeUnits, units]
  by_cases basic : c.toNat < 0x10000
  · have other : c.toNat ≠ '\t'.toNat := fun same => tab (Char.toNat_inj.mp same)
    rw [if_pos basic, if_pos basic, List.map_singleton, below_of_ne basic other]
    rfl
  · have valid : c.toNat < 0xD800 ∨ 0xDFFF < c.toNat ∧ c.toNat < 0x110000 := c.valid
    have high : 0xD800 + (c.toNat - 0x10000) / 0x400 < 0xDC00 := by omega
    have low : 0xDC00 + (c.toNat - 0x10000) % 0x400 < 0xE000 := by omega
    have tabValue : '\t'.toNat = 9 := rfl
    rw [if_neg basic, if_neg basic, List.map_cons, List.map_singleton,
      below_of_ne (by omega) (by omega), below_of_ne (by omega) (by omega)]
    rfl

theorem blanks_eq (line : String) : blanks line.toList = (utf16 line).map below := by
  rw [blanks, utf16, List.map_flatMap]
  simp only [map_below_codeUnits]

theorem toList_lead (line : String) (column : Int) :
    (lead line column).toList = ((utf16 line).take column.toNat).map below := by
  rw [lead, String.toList_ofList, blanks_eq, List.map_take]

theorem length_lead (line : String) (column : Int) :
    ((lead line column).length : Int) = min (max column 0) (utf16 line).length := by
  rw [← String.length_toList, toList_lead, List.length_map, List.length_take]
  omega

theorem getElem_lead {line : String} {column : Int} {k : Nat}
    (h : k < (lead line column).toList.length) :
    ∃ unit, (utf16 line)[k]? = some unit ∧ (lead line column).toList[k] = below unit := by
  have bound : k < ((utf16 line).take column.toNat).length := by
    rwa [toList_lead, List.length_map] at h
  refine ⟨((utf16 line).take column.toNat)[k], ?_, ?_⟩
  · rw [← List.getElem?_eq_getElem bound, List.getElem?_take_of_lt]
    rw [List.length_take] at bound
    omega
  · simp only [toList_lead, List.getElem_map]

theorem lead_append (a b : String) (column : Int) :
    lead (a ++ b) column = lead a column ++ lead b (max (column - (utf16 a).length) 0) := by
  apply String.toList_injective
  rw [String.toList_append, toList_lead, toList_lead, toList_lead, utf16_append, List.take_append,
    List.map_append]
  congr 3
  omega

theorem lead_prefix {first last : Int} (h : first ≤ last) (line : String) :
    (lead line first).toList <+: (lead line last).toList := by
  rw [toList_lead, toList_lead]
  exact (List.take_prefix_take_left (by omega)).map below

/-- A caret stands under the unit of its column: before it there is one character for each unit of
the line up to there, a tab for a tab and a blank for any other. So what stands before it is made
up along any cut of the line, and grows with the column. -/
theorem lead_columns :
    (∀ (line : String) (column : Int),
      ((lead line column).length : Int) = min (max column 0) (utf16 line).length ∧
      ∀ (k : Nat) (inside : k < (lead line column).toList.length),
        ∃ unit, (utf16 line)[k]? = some unit ∧
          (lead line column).toList[k] = if unit = tabUnit then '\t' else ' ') ∧
    (∀ (a b : String) (column : Int),
      lead (a ++ b) column = lead a column ++ lead b (max (column - (utf16 a).length) 0)) ∧
    ∀ (line : String) (first last : Int), first ≤ last →
      (lead line first).toList <+: (lead line last).toList :=
  ⟨fun line column => ⟨length_lead line column, fun _ inside => getElem_lead inside⟩, lead_append,
    fun line _ _ h => lead_prefix h line⟩

/-- A caret inside a pair of surrogates, behind a tab. -/
theorem lead_columns_in_pair :
    let line := "\t😀x"
    utf16 line = [9, 0xD83D, 0xDE00, 0x78] ∧ (lead line 2).toList[1]? = some ' ' ∧
      (lead line 2).toList <+: (lead line 3).toList ∧ lead line 2 = "\t " := by
  intro line
  have units : utf16 line = [9, 0xD83D, 0xDE00, 0x78] := by decide +kernel
  have two : (lead line 2).toList = ['\t', ' '] := by decide +kernel
  obtain ⟨each, -, grows⟩ := lead_columns
  have inside : 1 < (lead line 2).toList.length := by rw [two]; decide
  obtain ⟨unit, there, same⟩ := (each line 2).2 1 inside
  obtain rfl : 0xD83D = unit := by simpa [units] using there
  refine ⟨units, ?_, grows line 2 3 (by decide), ?_⟩
  · rw [List.getElem?_eq_getElem inside, same]
    rfl
  · apply String.toList_injective
    rw [two]
    rfl

end Caret

end CompilerDriver

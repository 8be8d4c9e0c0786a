namespace CompilerDriver

namespace Caret

/-- The number of 16-bit units of a character. -/
def units (c : Char) : Nat :=
  if c.toNat < 0x10000 then 1 else 2

/-- Blanks that are as wide as a line, one for each 16-bit unit, with its tabs kept. -/
def blanks (line : List Char) : List Char :=
  line.flatMap fun c => if c = '\t' then ['\t'] else List.replicate (units c) ' '

/-- What stands before a caret under a column: the blanks of the line up to that column. -/
def lead (line : String) (column : Int) : String :=
  String.ofList ((blanks line.toList).take column.toNat)

end Caret

end CompilerDriver

/-!
# Columns on a terminal

Characters take one column, East Asian wide ones two, and a tab goes on to the next stop.
-/
namespace NamingLint.Text

/-- The ranges of characters that take two columns. -/
def wideRanges : List (Nat × Nat) :=
  [(0x1100, 0x115f), (0x2e80, 0x303e), (0x3041, 0x33ff), (0x3400, 0x4dbf), (0x4e00, 0x9fff),
   (0xa000, 0xa4cf), (0xa960, 0xa97f), (0xac00, 0xd7a3), (0xf900, 0xfaff), (0xfe30, 0xfe6f),
   (0xff00, 0xff60), (0xffe0, 0xffe6), (0x1f300, 0x1f64f), (0x1f900, 0x1f9ff),
   (0x20000, 0x3fffd)]

def charWidth (c : Char) : Nat :=
  if wideRanges.any fun (low, high) => low ≤ c.toNat && c.toNat ≤ high then 2 else 1

def tabStop : Nat := 4

/-- The column behind a character at a column. -/
def advance (column : Nat) (c : Char) : Nat :=
  if c = '\t' then column + (tabStop - column % tabStop) else column + charWidth c

/-- The columns that a text takes from the start of a line. -/
def displayWidth (text : List Char) : Nat :=
  text.foldl advance 0

/-- A line with its tabs as blanks. -/
def expandTabs (column : Nat) : List Char → List Char
  | [] => []
  | c :: r =>
    let next := advance column c
    (if c = '\t' then List.replicate (next - column) ' ' else [c]) ++ expandTabs next r

end NamingLint.Text

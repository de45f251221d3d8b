import NamingLint.Text.Bytes
import NamingLint.Text.Position

/-!
# Where the lines of a text begin

A line ends at a carriage return with its line feed, at either of them alone, and at the
Unicode line and paragraph separators. The table holds the byte offset of every line start,
so that a byte offset is turned into an editor position by a search in it.
-/
namespace NamingLint.Text

/-- Whether a line ends after `c`, when `rest` follows. -/
def endsLine (c : Char) (rest : List Char) : Bool :=
  match c with
  | '\r' => rest.head? != some '\n'
  | '\n' => true
  | '\u2028' => true
  | '\u2029' => true
  | _ => false

/-- The line starts after the first one of a text that begins at byte `base`. -/
def lineStartsFrom (base : Nat) : List Char → List Nat
  | [] => []
  | c :: r =>
    if endsLine c r then (base + c.utf8Size) :: lineStartsFrom (base + c.utf8Size) r
    else lineStartsFrom (base + c.utf8Size) r

structure LineTable where
  starts : List Nat
  deriving DecidableEq, Repr

namespace LineTable

def ofText (text : List Char) : LineTable :=
  ⟨0 :: lineStartsFrom 0 text⟩

/-- The line that holds a byte offset: the last one that starts at or before it. -/
def line (table : LineTable) (offset : Nat) : Nat :=
  (table.starts.takeWhile (· ≤ offset)).length - 1

/-- The position of a byte offset of the text that the table was made from. -/
def position (table : LineTable) (text : List Char) (offset : Nat) : Position :=
  let line := table.line offset
  let start := table.starts.getD line 0
  { line, character := ((slice? start offset text).map unitLength).getD 0 }

end LineTable
end NamingLint.Text

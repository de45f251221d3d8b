import NamingLint.Text.Width

/-!
# Filling lines with words

Words go on a line as long as they fit. A word that fits on no line is cut.
-/
namespace NamingLint.Text

/-- A piece of a text that stays on one line; `joined` says that no blank goes before it. -/
structure Piece where
  chars : List Char
  joined : Bool

/-- Adds a character to the last of some pieces, which come last first, or starts a new one. -/
def addToPieces (limit : Nat) (pieces : List (List Char)) (c : Char) : List (List Char) :=
  match pieces with
  | [] => [[c]]
  | p :: r => if displayWidth (p ++ [c]) ≤ limit then (p ++ [c]) :: r else [c] :: p :: r

def piecesOf (limit : Nat) (word : List Char) : List Piece :=
  match (word.foldl (addToPieces limit) []).reverse with
  | [] => [⟨[], false⟩]
  | first :: r => ⟨first, false⟩ :: r.map fun p => ⟨p, true⟩

/-- Puts a piece on the last of some lines, which come last first, or on a new one. -/
def addPiece (limit : Nat) (lines : List (List Char)) (piece : Piece) : List (List Char) :=
  match lines with
  | [] => [piece.chars]
  | line :: r =>
    let longer := line ++ (if piece.joined then [] else [' ']) ++ piece.chars
    if displayWidth longer ≤ limit then longer :: r else piece.chars :: line :: r

/-- The lines of a text, each at most `limit` columns wide. -/
def fill (limit : Nat) (text : List Char) : List (List Char) :=
  (((text.splitOn ' ').flatMap (piecesOf limit)).foldl (addPiece limit) []).reverse

end NamingLint.Text

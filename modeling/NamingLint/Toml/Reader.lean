/-!
# Readers

A reader takes a value off the front of a text, or fails. Alternatives start again at the same
place.
-/
namespace NamingLint.Toml

abbrev Reader (α : Type) := StateT (List Char) Option α

namespace Reader
variable {α β : Type}

def charWhere (admits : Char → Bool) : Reader Char
  | [] => none
  | c :: r => if admits c then some (c, r) else none

def char (c : Char) : Reader Unit :=
  discard (charWhere (· == c))

def word : List Char → Reader Unit
  | [] => pure ()
  | c :: r => do char c; word r

/-- All characters of a class up to the first other one. -/
def charsWhere (admits : Char → Bool) : Reader (List Char) :=
  fun cs => some (cs.takeWhile admits, cs.dropWhile admits)

def someCharsWhere (admits : Char → Bool) : Reader (List Char) := do
  let first ← charWhere admits
  let rest ← charsWhere admits
  pure (first :: rest)

def endOfText : Reader Unit
  | [] => some ((), [])
  | _ :: _ => none

/-- Looks at the rest of the text without taking anything. -/
def lookingAt (holds : List Char → Bool) : Reader Unit :=
  fun cs => if holds cs then some ((), cs) else none

def manyUpTo (fuel : Nat) (p : Reader α) : Reader (List α) :=
  match fuel with
  | 0 => pure []
  | fuel + 1 => (do let a ← p; let r ← manyUpTo fuel p; pure (a :: r)) <|> pure []

/-- As many repetitions as there are, of a reader that takes at least one character. -/
def many (p : Reader α) : Reader (List α) :=
  fun cs => manyUpTo cs.length p cs

/-- One or more, with separators between them. -/
def separated (p : Reader α) (separator : Reader β) : Reader (List α) := do
  let first ← p
  let rest ← many (separator *> p)
  pure (first :: rest)

def exactly (count : Nat) (p : Reader α) : Reader (List α) :=
  match count with
  | 0 => pure []
  | count + 1 => do let a ← p; let r ← exactly count p; pure (a :: r)

end Reader

/-! ## The small parts of the format -/

open Reader

def isBlank (c : Char) : Bool := c = ' ' || c = '\t'

def isNonAscii (c : Char) : Bool := 0x80 ≤ c.toNat

/-- What a comment may hold. -/
def isCommentChar (c : Char) : Bool :=
  c = '\t' || (0x20 ≤ c.toNat && c.toNat ≤ 0x7e) || isNonAscii c

def blanks : Reader Unit := discard (charsWhere isBlank)

def newline : Reader Unit :=
  char '\n' <|> (do char '\r'; char '\n')

def lineEnd : Reader Unit := newline <|> endOfText

def comment : Reader Unit := do
  char '#'
  discard (charsWhere isCommentChar)

/-- What may follow a statement on its line. -/
def lineTail : Reader Unit := do
  blanks
  discard (optional comment)
  lineEnd

/-- Blanks, line ends and comments, as they may stand between the elements of an array. -/
def gap : Reader Unit := do
  blanks
  discard (many (do (newline <|> (do comment; newline)); blanks))

end NamingLint.Toml

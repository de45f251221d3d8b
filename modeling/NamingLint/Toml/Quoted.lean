import NamingLint.Toml.Reader

/-!
# Strings of settings files

Basic strings stand in quotes and know escapes; literal strings stand in apostrophes and know
none. Both have a form over several lines, between three marks.
-/
namespace NamingLint.Toml
open Reader

/-- What a basic string holds unescaped. -/
def isBasicChar (c : Char) : Bool :=
  isCommentChar c && c ≠ '"' && c ≠ '\\'

def isLiteralChar (c : Char) : Bool :=
  isCommentChar c && c ≠ '\x27'

def isHexDigit (c : Char) : Bool :=
  c.isDigit || ('a' ≤ c && c ≤ 'f') || ('A' ≤ c && c ≤ 'F')

def digitValue (c : Char) : Nat :=
  if c.isDigit then c.toNat - '0'.toNat
  else if c.isUpper then c.toNat - 'A'.toNat + 10
  else c.toNat - 'a'.toNat + 10

def numberOf (base : Nat) (digits : List Char) : Nat :=
  digits.foldl (fun n c => n * base + digitValue c) 0

/-- A character given by its number, which must be one. -/
def charByNumber (digits : Nat) : Reader Char := do
  let n := numberOf 16 (← exactly digits (charWhere isHexDigit))
  if n.isValidChar then pure (Char.ofNat n) else failure

def escape : Reader Char := do
  match ← charWhere (fun _ => true) with
  | 'b' => pure '\x08'
  | 'f' => pure '\x0c'
  | 'n' => pure '\n'
  | 'r' => pure '\r'
  | 't' => pure '\t'
  | '"' => pure '"'
  | '\\' => pure '\\'
  | 'u' => charByNumber 4
  | 'U' => charByNumber 8
  | _ => failure

def basicString : Reader String := do
  char '"'
  let chars ← many (charWhere isBasicChar <|> (do char '\\'; escape))
  char '"'
  pure (String.ofList chars)

def literalString : Reader String := do
  char '\x27'
  let chars ← charsWhere isLiteralChar
  char '\x27'
  pure (String.ofList chars)

/-- A backslash at the end of a line, with all white space up to the next word. -/
def joinedLine : Reader (List Char) := do
  char '\\'
  blanks
  newline
  discard (many (discard (charWhere isBlank) <|> newline))
  pure []

/-- A mark inside a string over several lines: less than three of them in a row. -/
def innerMark (mark : Char) : Reader (List Char) := do
  lookingAt fun cs => cs.take 3 ≠ [mark, mark, mark]
  char mark
  pure [mark]

def lineBreak : Reader (List Char) := do
  newline
  pure ['\n']

/-- The closing marks, with up to two more that belong to the string. -/
def closingMarks (mark : Char) : Reader (List Char) :=
  (do word (List.replicate 5 mark); pure [mark, mark]) <|>
  (do word (List.replicate 4 mark); pure [mark]) <|>
  (do word (List.replicate 3 mark); pure [])

/-- A string over several lines, of which `part` reads one part. A line end right behind the
opening marks is not in it. -/
def longString (mark : Char) (part : Reader (List Char)) : Reader String := do
  word (List.replicate 3 mark)
  discard (optional newline)
  let parts ← many (part <|> lineBreak <|> innerMark mark)
  let last ← closingMarks mark
  pure (String.ofList (parts.flatten ++ last))

def longBasicString : Reader String :=
  longString '"' <|
    (do let c ← charWhere isBasicChar; pure [c]) <|>
    joinedLine <|>
    (do char '\\'; let c ← escape; pure [c])

def longLiteralString : Reader String :=
  longString '\x27' (do let c ← charWhere isLiteralChar; pure [c])

def string : Reader String :=
  longBasicString <|> basicString <|> longLiteralString <|> literalString

end NamingLint.Toml

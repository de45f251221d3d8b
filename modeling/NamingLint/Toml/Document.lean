import NamingLint.Toml.Moment
import NamingLint.Toml.Number
import NamingLint.Toml.Table

/-!
# Settings files

A file is a sequence of lines, each a pair, a header, a comment or nothing. Its statements are
read first and then put together, so that a table defined twice is refused.
-/
namespace NamingLint.Toml
open Reader

/-- Arrays and inline tables nest less than this deep, and keys have fewer parts. -/
def depthLimit : Nat := 80

def isKeyChar (c : Char) : Bool :=
  c.isAlphanum || c = '_' || c = '-'

def keyPart : Reader String :=
  basicString <|> literalString <|> (String.ofList <$> someCharsWhere isKeyChar)

/-- A dotted key: the parts before the last, and the last. -/
def key : Reader (List String × String) := do
  let parts ← separated (do blanks; let part ← keyPart; blanks; pure part) (char '.')
  match parts.getLast? with
  | some last => if parts.length < depthLimit then pure (parts.dropLast, last) else failure
  | none => failure

def boolean : Reader Data :=
  (do word "true".toList; pure (.bool true)) <|> (do word "false".toList; pure (.bool false))

def scalar : Reader Data :=
  (.text <$> string) <|> boolean <|> moment <|> real <|> integer

/-- An array whose elements are read by `element`. -/
def arrayOf (element : Reader Data) : Reader Data := do
  char '['
  gap
  let items ← optional (separated (do let d ← element; gap; pure d) (do char ','; gap))
  if items.isSome then
    discard (optional (char ','))
    gap
  char ']'
  pure (.list (items.getD []))

/-- A table on one line whose values are read by `element`. -/
def inlineTableOf (element : Reader Data) : Reader Data := do
  char '\x7b'
  blanks
  let pairs ← optional (separated
    (do
      let (path, name) ← key
      char '='
      blanks
      let data ← element
      blanks
      pure (path, name, data))
    (char ','))
  char '\x7d'
  match (pairs.getD []).foldlM (fun entries (path, name, data) =>
      Entries.addPair path name data entries) [] with
  | some entries => pure (.record (Entries.toPairs entries))
  | none => failure

/-- A value with at most `depth` arrays and inline tables around one another. -/
def value : Nat → Reader Data
  | 0 => scalar
  | depth + 1 => scalar <|> arrayOf (value depth) <|> inlineTableOf (value depth)

inductive Statement where
  | pair (path : List String) (name : String) (data : Data)
  | header (path : List String) (name : String)
  | nextHeader (path : List String) (name : String)

def statement : Reader Statement :=
  (do
    word ['[', '[']
    let (path, name) ← key
    word [']', ']']
    lineTail
    pure (.nextHeader path name)) <|>
  (do
    char '['
    let (path, name) ← key
    char ']'
    lineTail
    pure (.header path name)) <|>
  (do
    let (path, name) ← key
    char '='
    blanks
    let data ← value (depthLimit - 1)
    lineTail
    pure (.pair path name data))

def line : Reader (Option Statement) := do
  let found ← (some <$> statement) <|> (do comment; lineEnd; pure none) <|> (do newline; pure none)
  blanks
  pure found

/-- The statements of a file, which may start with a byte order mark. -/
def statements : Reader (List Statement) := do
  discard (optional (char '\ufeff'))
  blanks
  let lines ← many line
  endOfText
  pure (lines.filterMap id)

/-- The tables read so far, and the table that pairs go to. -/
structure Draft where
  entries : Entries := []
  current : List String := []

def Draft.add (draft : Draft) : Statement → Option Draft
  | .pair path name data => do
    let entries ← Entries.inOpened (Entries.addPair path name data) draft.current draft.entries
    pure { draft with entries }
  | .header path name => do
    let entries ← Entries.openTable path name draft.entries
    pure { entries, current := path ++ [name] }
  | .nextHeader path name => do
    let entries ← Entries.openNext path name draft.entries
    pure { entries, current := path ++ [name] }

def parse (text : String) : Option Data := do
  let (found, _) ← statements.run text.toList
  let draft ← found.foldlM Draft.add {}
  pure (.record (Entries.toPairs draft.entries))

end NamingLint.Toml

import NamingLint.Data
import NamingLint.Text.Quoted

/-!
# Structured data as JSON text

One entry a line, indented by two blanks a level; an empty list or record stays on its line.
Only quotes, backslashes and control characters are escaped.
-/
namespace NamingLint.Data.Json

def hex4 (n : Nat) : String :=
  let digits := Nat.toDigits 16 n
  String.ofList (List.replicate (4 - digits.length) '0' ++ digits)

def escapeChar (c : Char) : String :=
  match c with
  | '"' => "\\\""
  | '\\' => "\\\\"
  | '\n' => "\\n"
  | '\r' => "\\r"
  | '\t' => "\\t"
  | '\x08' => "\\b"
  | '\x0c' => "\\f"
  | c => if c.toNat < 0x20 then "\\u" ++ hex4 c.toNat else c.toString

def quoted (text : String) : String :=
  "\"" ++ String.join (text.toList.map escapeChar) ++ "\""

def newLine (level : Nat) : String :=
  "\n" ++ String.ofList (List.replicate (2 * level) ' ')

/-- Items between brackets, each on a line of its own. -/
def block (opening closing : String) (level : Nat) (items : List String) : String :=
  if items.isEmpty then opening ++ closing
  else opening ++ ",".intercalate (items.map (newLine (level + 1) ++ ·)) ++ newLine level ++ closing

mutual
def render (level : Nat) : Data → String
  | .null => "null"
  | .bool b => if b then "true" else "false"
  | .integer n => toString n
  | .real spelling => spelling
  | .text s => quoted s
  | .moment spelling => quoted spelling
  | .list items => block "[" "]" level (renderItems (level + 1) items)
  | .record entries => block "\x7b" "\x7d" level (renderEntries (level + 1) entries)

def renderItems (level : Nat) : List Data → List String
  | [] => []
  | d :: r => render level d :: renderItems level r

def renderEntries (level : Nat) : List (String × Data) → List String
  | [] => []
  | (key, d) :: r => (quoted key ++ ": " ++ render level d) :: renderEntries level r
end

end NamingLint.Data.Json

/-!
# Naming rules

The table of rules is fixed. A rule has the key by which settings name it, the pattern that is
shown for it, and a sample name. Only ASCII letters and digits occur in conforming names.
-/
namespace NamingLint

inductive Rule where
  | upperSnake
  | camel
  | pascal
  deriving DecidableEq, Repr

namespace Rule

/-- Every rule, in the order of the table. -/
def all : List Rule := [upperSnake, camel, pascal]

def key : Rule → String
  | upperSnake => "UPPER_SNAKE_CASE"
  | camel => "camelCase"
  | pascal => "PascalCase"

/-- The rule as an anchored regular expression. -/
def pattern : Rule → String
  | upperSnake => "^[A-Z][A-Z0-9]*(_[A-Z0-9]+)*$"
  | camel => "^[a-z][a-zA-Z0-9]*$"
  | pascal => "^[A-Z][a-zA-Z0-9]*$"

def sample : Rule → String
  | upperSnake => "MAX_RETRY"
  | camel => "fetchData"
  | pascal => "FetchData"

def ofKey? (key : String) : Option Rule :=
  all.find? (·.key == key)

/-- A run of upper-case letters, digits and single underscores that does not end in one;
`open?` says that an underscore has just been read. -/
def upperSnakeRun (open? : Bool) : List Char → Bool
  | [] => !open?
  | c :: r =>
    if c = '_' then !open? && upperSnakeRun true r
    else (c.isUpper || c.isDigit) && upperSnakeRun false r

def admitsChars : Rule → List Char → Bool
  | _, [] => false
  | upperSnake, c :: r => c.isUpper && upperSnakeRun false r
  | camel, c :: r => c.isLower && r.all Char.isAlphanum
  | pascal, c :: r => c.isUpper && r.all Char.isAlphanum

def admits (rule : Rule) (name : String) : Bool :=
  rule.admitsChars name.toList

end Rule

/-- Whether a name passes the rule of that key. Every name passes an unknown key. -/
def followsRule (name key : String) : Bool :=
  match Rule.ofKey? key with
  | some rule => rule.admits name
  | none => true

/-- The sample name of the rule of that key; for an unknown key, the key itself. -/
def sampleFor (key : String) : String :=
  match Rule.ofKey? key with
  | some rule => rule.sample
  | none => key

end NamingLint

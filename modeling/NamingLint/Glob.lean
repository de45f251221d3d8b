/-!
# Exclude patterns

A pattern is matched against a whole relative path. `*`, `?` and classes match any character,
slashes too; `**` stands for whole components and is allowed only where it is one.
-/
namespace NamingLint

namespace Glob

/-- A run of characters in a class. -/
structure CharRange where
  low : Char
  high : Char
  deriving DecidableEq, Repr

def CharRange.admits (range : CharRange) (c : Char) : Bool :=
  range.low ≤ c && c ≤ range.high

inductive Token where
  | char (c : Char)
  | any
  /-- Any characters. -/
  | sequence
  /-- Nothing, all up to some slash, or all there is. -/
  | directories
  | oneOf (ranges : List CharRange)
  | noneOf (ranges : List CharRange)
  deriving DecidableEq, Repr

inductive Mistake where
  | wildcards
  | recursiveWildcard
  | range
  deriving DecidableEq, Repr

def Mistake.message : Mistake → String
  | wildcards => "wildcards are either regular `*` or recursive `**`"
  | recursiveWildcard => "recursive wildcards must form a single path component"
  | range => "invalid range pattern"

end Glob

/-- What is wrong with a pattern, and at which character. -/
structure GlobError where
  position : Nat
  mistake : Glob.Mistake
  deriving DecidableEq, Repr

def GlobError.message (e : GlobError) : String :=
  s!"Pattern syntax error near position {e.position}: {e.mistake.message}"

structure Glob where
  tokens : List Glob.Token
  deriving DecidableEq, Repr

namespace Glob

/-- The members of a class. -/
def ranges : List Char → List CharRange
  | a :: '-' :: b :: r => ⟨a, b⟩ :: ranges r
  | a :: r => ⟨a, a⟩ :: ranges r
  | [] => []

/-- A class without its opening bracket and negation: its ranges and its length with the closing
bracket. The first character is a member whatever it is. -/
def classBody? : List Char → Option (List CharRange × Nat)
  | [] => none
  | first :: r =>
    if r.contains ']' then
      let members := first :: r.takeWhile (· ≠ ']')
      some (ranges members, members.length + 1)
    else none

/-- The token that starts with `c` at `index`, and how many characters of the rest `r` it takes.
`before` is the character before `c`. -/
def lexeme (index : Nat) (before : Option Char) (c : Char) (r : List Char) :
    Except GlobError (Token × Nat) :=
  match c with
  | '?' => .ok (.any, 0)
  | '*' =>
    let more := (r.takeWhile (· = '*')).length
    if more = 0 then .ok (.sequence, 0)
    else if 1 < more then .error ⟨index + 2, .wildcards⟩
    else if before.all (· = '/') then
      match (r.drop 1).head? with
      | none => .ok (.directories, 1)
      | some '/' => .ok (.directories, 2)
      | some _ => .error ⟨index + 2, .recursiveWildcard⟩
    else .error ⟨index - 1, .recursiveWildcard⟩
  | '[' =>
    match r with
    | '!' :: body =>
      match classBody? body with
      | some (members, length) => .ok (.noneOf members, length + 1)
      | none => .error ⟨index, .range⟩
    | body =>
      match classBody? body with
      | some (members, length) => .ok (.oneOf members, length)
      | none => .error ⟨index, .range⟩
  | c => .ok (.char c, 0)

def tokensFrom (index : Nat) (before : Option Char) : List Char → Except GlobError (List Token)
  | [] => .ok []
  | c :: r => do
    let (token, more) ← lexeme index before c r
    let rest ← tokensFrom (index + more + 1) ((c :: r.take more).getLast?) (r.drop more)
    pure (token :: rest)
termination_by cs => cs.length
decreasing_by simp only [List.length_drop, List.length_cons]; omega

def parse (pattern : String) : Except GlobError Glob := do
  pure ⟨← tokensFrom 0 none pattern.toList⟩

def Token.admitsChar (c : Char) : Token → Bool
  | char d => c == d
  | any => true
  | oneOf ranges => ranges.any (·.admits c)
  | noneOf ranges => !ranges.any (·.admits c)
  | sequence => false
  | directories => false

/-- All that can be left of a text, from the whole of it to nothing. -/
def suffixes : List Char → List (List Char)
  | [] => [[]]
  | c :: r => (c :: r) :: suffixes r

/-- What follows each slash of a text. -/
def afterSlashes : List Char → List (List Char)
  | [] => []
  | c :: r => if c = '/' then r :: afterSlashes r else afterSlashes r

def admitsChars : List Token → List Char → Bool
  | [], cs => cs.isEmpty
  | .sequence :: ts, cs => (suffixes cs).any (admitsChars ts)
  | .directories :: ts, cs => (cs :: (afterSlashes cs ++ [[]])).any (admitsChars ts)
  | _ :: _, [] => false
  | t :: ts, c :: cs => t.admitsChar c && admitsChars ts cs

def admits (glob : Glob) (text : String) : Bool :=
  admitsChars glob.tokens text.toList

end Glob
end NamingLint

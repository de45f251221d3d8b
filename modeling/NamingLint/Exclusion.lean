import NamingLint.Glob
import NamingLint.Path

/-!
# Excluded files

A file is excluded if a pattern matches its relative path, or if the pattern, taken without its
`**`, names a run of whole components of that path.
-/
namespace NamingLint

structure ExcludePattern where
  text : String
  glob : Glob
  deriving DecidableEq, Repr

namespace ExcludePattern

def parse (text : String) : Except GlobError ExcludePattern := do
  pure ⟨text, ← Glob.parse text⟩

def withoutDoubleStars : List Char → List Char
  | '*' :: '*' :: r => withoutDoubleStars r
  | c :: r => c :: withoutDoubleStars r
  | [] => []

/-- The components that a pattern names. -/
def segments (text : String) : List String :=
  ((withoutDoubleStars text.toList).splitOn '/').filterMap fun s =>
    if s.isEmpty then none else some (String.ofList s)

/-- Whether one list stands inside another without a gap. -/
def occursIn (run : List String) : List String → Bool
  | [] => run.isEmpty
  | c :: r => run.isPrefixOf (c :: r) || occursIn run r

/-- Whether the components of a pattern, if it names any, occur in a path. -/
def namesPartOf (text : String) (path : Path) : Bool :=
  let run := segments text
  !run.isEmpty && occursIn run (path.components.map (·.text))

/-- Whether a pattern excludes a relative path, where `admits` says which texts globs match. -/
def excludes (admits : Glob → String → Bool) (pattern : ExcludePattern) (path : Path) : Bool :=
  admits pattern.glob path.text || namesPartOf pattern.text path

end ExcludePattern

def isExcluded (admits : Glob → String → Bool) (patterns : List ExcludePattern) (path : Path) :
    Bool :=
  patterns.any (·.excludes admits path)

end NamingLint

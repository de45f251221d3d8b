import NamingLint.Check
import NamingLint.FileTree
import NamingLint.Syntax.Outline

/-!
# A grammar from outlines

The outline of a source file stands beside it, under its name with `.outline` behind. A text
parses to the outline of a file with that text in the same dialect.
-/
namespace NamingLint

def outlineSuffix : String := ".outline"

/-- The tree of a file, if it has the text, is in the dialect and has an outline. -/
def outlineOf? (t : FileTree) (dialect : Dialect) (text : String) (place : Place) :
    Option Syntax.Tree := do
  let name ← place.getLast?
  guard (Dialect.ofFileName name = dialect)
  let found ← ((t.node? place).map FileTree.textOf).bind Except.toOption
  guard (found = text)
  let outline ← ((t.node? (place.dropLast ++ [name ++ outlineSuffix])).map FileTree.textOf).bind
    Except.toOption
  Syntax.Outline.parse? outline

def Grammar.ofOutlines (t : FileTree) : Grammar where
  parse dialect text :=
    match t.nodes.findSome? fun (place, _) => outlineOf? t dialect text place with
    | some tree => .ok tree
    | none => .error .noTree

end NamingLint

/-!
# Syntax trees

A concrete syntax tree as a parser leaves it: every node has a kind, a place in the text, its
role in its parent, and marks for syntax errors. Kinds and roles are words of the grammar.
-/
namespace NamingLint.Syntax

/-- A run of bytes of the text. -/
structure Span where
  start : Nat
  stop : Nat
  deriving DecidableEq, Repr, Inhabited

structure Label where
  kind : String
  /-- The role of the node in its parent. -/
  field : Option String
  /-- Named nodes stand for constructs, the others for punctuation and keywords. -/
  named : Bool
  /-- The node holds text that the grammar could not place. -/
  isError : Bool
  /-- The node was made up by the parser in place of an expected one. -/
  isMissing : Bool
  /-- Some node from here down is an error or missing. -/
  hasError : Bool
  span : Span
  deriving DecidableEq, Repr, Inhabited

inductive Tree where
  | node (label : Label) (children : List Tree)
  deriving Repr, Inhabited

namespace Tree

def label : Tree → Label
  | node l _ => l

def children : Tree → List Tree
  | node _ cs => cs

def kind (t : Tree) : String := t.label.kind
def field (t : Tree) : Option String := t.label.field
def named (t : Tree) : Bool := t.label.named
def hasError (t : Tree) : Bool := t.label.hasError
def span (t : Tree) : Span := t.label.span

/-- The node itself is an error or missing. -/
def isFault (t : Tree) : Bool := t.label.isError || t.label.isMissing

def childOf? (t : Tree) (field : String) : Option Tree :=
  t.children.find? (·.field == some field)

/-- One more row of an outline, above the trees made of the rows below it: the row takes the
trees that are deeper than itself as its children. -/
def addRow (row : Nat × Label) (below : List (Nat × Tree)) : List (Nat × Tree) :=
  (row.1, node row.2 ((below.takeWhile (row.1 < ·.1)).map (·.2))) ::
    below.dropWhile (row.1 < ·.1)

/-- The tree of an outline: its labels in pre-order, each with its depth. -/
def ofOutline? (rows : List (Nat × Label)) : Option Tree :=
  match rows.foldr addRow [] with
  | [(_, tree)] => some tree
  | _ => none

end Tree
end NamingLint.Syntax

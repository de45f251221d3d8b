import NamingLint.Event
import NamingLint.Syntax.Category
import NamingLint.Text.LineTable

/-!
# Declarations of a syntax tree

The tree is searched in pre-order through its named nodes. A function contributes its name
before anything inside it; a constant statement contributes its declarators with a plain name
and an initial value; skipped nodes contribute nothing.
-/
namespace NamingLint.Declarations
open Syntax

/-- A declared name, if its span lies in the text on character boundaries. -/
def bindingAt? (text : List Char) (name : Tree) (origin : Origin) : Option Binding :=
  (Text.slice? name.span.start name.span.stop text).map fun chars =>
    let place := (Text.LineTable.ofText text).position text name.span.start
    { name := String.ofList chars, origin, line := place.line, character := place.character,
      offset := name.span.start }

/-- What one child of a constant statement declares. Patterns have no single name. -/
def declarator? (text : List Char) (t : Tree) : Option Binding :=
  if t.named && t.kind == "variable_declarator" then
    match t.childOf? "name", t.childOf? "value" with
    | some name, some value =>
      if name.kind == "identifier" then
        bindingAt? text name (.const (initializer text value))
      else none
    | _, _ => none
  else none

/-- The role of a declaration in the header of a loop. -/
def headerField : Option String := some "initializer"

/-- Whether the first child in the header role of this node is in a loop header. -/
def hasHeader (label : Label) : Bool :=
  label.kind == "for_statement"

mutual
/-- The declarations of a node; `inHeader` says that it stands in the header of a loop. -/
def ofTree (text : List Char) (inHeader : Bool) : Tree → List Binding
  | .node l cs =>
    match categorize inHeader (.node l cs) with
    | .classLike => []
    | .typeBody => []
    | .mutableStatement => []
    | .function name => (bindingAt? text name .function).toList ++ ofForest text (hasHeader l) cs
    | .constStatement => cs.filterMap (declarator? text)
    | .other => ofForest text (hasHeader l) cs

/-- The declarations of the named nodes of a list of siblings; `header` says that the first one
in the header role stands in the header of a loop. -/
def ofForest (text : List Char) (header : Bool) : List Tree → List Binding
  | [] => []
  | t :: ts =>
    let isHeader := header && t.field == headerField
    (if t.named then ofTree text isHeader t else []) ++
      ofForest text (header && !(t.field == headerField)) ts
end

def collect (root : Tree) (text : List Char) : List Binding :=
  ofForest text (hasHeader root.label) root.children

mutual
/-- The nodes of a tree that the search skips, in pre-order. -/
def skippedIn (inHeader : Bool) : Tree → List Label
  | .node l cs =>
    match categorize inHeader (.node l cs) with
    | .classLike => [l]
    | .typeBody => [l]
    | .mutableStatement => [l]
    | .function _ => skippedAmong (hasHeader l) cs
    | .constStatement => []
    | .other => skippedAmong (hasHeader l) cs

def skippedAmong (header : Bool) : List Tree → List Label
  | [] => []
  | t :: ts =>
    let isHeader := header && t.field == headerField
    (if t.named then skippedIn isHeader t else []) ++
      skippedAmong (header && !(t.field == headerField)) ts
end

/-- The events of a search: one for each skipped node. -/
def events (root : Tree) (text : List Char) : List Event :=
  (skippedAmong (hasHeader root.label) root.children).map fun l =>
    .debug s!"skipping {l.kind} at line {Text.row l.span.start text + 1}"

end NamingLint.Declarations

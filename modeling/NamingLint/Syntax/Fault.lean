import NamingLint.Syntax.Tree

/-!
# The first fault of a syntax tree

Only subtrees that are flagged are searched, in document order.
-/
namespace NamingLint.Syntax

mutual
def firstFault : Tree → Option Tree
  | .node l cs =>
    if l.isError || l.isMissing then some (.node l cs) else firstFaultIn cs

/-- The first error or missing node of the flagged trees of a list. -/
def firstFaultIn : List Tree → Option Tree
  | [] => none
  | t :: ts =>
    if t.hasError then
      match firstFault t with
      | some fault => some fault
      | none => firstFaultIn ts
    else firstFaultIn ts
end

/-- The node that a syntax error is reported at, if the tree is not clean. -/
def faultOf? (root : Tree) : Option Tree :=
  if root.hasError then some ((firstFault root).getD root) else none

end NamingLint.Syntax

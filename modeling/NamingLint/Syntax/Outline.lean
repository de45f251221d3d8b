import NamingLint.Syntax.Tree

/-!
# Outlines

A syntax tree written as text: a line for each node, in pre-order, with its depth, marks, span,
role and kind, divided by tabs. The marks are letters: `n` for a named node, `e` for an error,
`m` for a missing node, `x` for an error from here down; a dash stands for none, and for no role.
-/
namespace NamingLint.Syntax.Outline

def rowOf? (line : String) : Option (Nat × Label) :=
  match line.splitOn "\t" with
  | [depth, marks, start, stop, field, kind] => do
    let marked (c : Char) : Bool := marks.toList.contains c
    pure (← depth.toNat?,
      { kind
        field := if field = "-" then none else some field
        named := marked 'n'
        isError := marked 'e'
        isMissing := marked 'm'
        hasError := marked 'x'
        span := ⟨← start.toNat?, ← stop.toNat?⟩ })
  | _ => none

def parse? (text : String) : Option Tree := do
  let rows ← ((text.splitOn "\n").filter (· ≠ "")).mapM rowOf?
  Tree.ofOutline? rows

end NamingLint.Syntax.Outline

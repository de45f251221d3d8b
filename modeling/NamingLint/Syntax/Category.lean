import NamingLint.Binding
import NamingLint.Syntax.Tree

/-!
# What a node means for the search of declarations
-/
namespace NamingLint.Syntax

inductive Category where
  /-- A class, skipped with its members. -/
  | classLike
  /-- An enum or interface, skipped with its members. -/
  | typeBody
  /-- A function with a name, which is judged; its body is searched. -/
  | function (name : Tree)
  /-- A constant statement: its declarators are judged and nothing below them. -/
  | constStatement
  /-- A statement of variables, skipped with its initial values. -/
  | mutableStatement
  /-- Any other node, which is searched. -/
  | other

def isConst (t : Tree) : Bool :=
  (t.childOf? "kind").any (·.kind == "const")

/-- The category of a node. A declaration in the header of a loop is no statement. -/
def categorize (inHeader : Bool) (t : Tree) : Category :=
  match t.kind with
  | "class_declaration" => .classLike
  | "abstract_class_declaration" => .classLike
  | "class" => .classLike
  | "enum_declaration" => .typeBody
  | "interface_declaration" => .typeBody
  | "function_declaration" => named
  | "generator_function_declaration" => named
  | "function_signature" => named
  | "lexical_declaration" => statement
  | "variable_declaration" => statement
  | _ => .other
where
  named : Category :=
    match t.childOf? "name" with
    | some name => .function name
    | none => .other
  statement : Category :=
    if inHeader then .other
    else if isConst t then .constStatement
    else .mutableStatement

/-- Whether a number is written as a big integer, that is, ends in `n`. -/
def isBigInt (text : List Char) (number : Tree) : Bool :=
  number.span.start < number.span.stop && Text.endsWithAt 'n' number.span.stop text

/-- A number that is no big integer. -/
def isPlainNumber (text : List Char) (t : Tree) : Bool :=
  t.kind == "number" && !isBigInt text t

def initializer (text : List Char) (value : Tree) : Initializer :=
  match value.kind with
  | "arrow_function" => .functionLike
  | "function_expression" => .functionLike
  | "function" => .functionLike
  | "generator_function" => .functionLike
  | "string" => .primitive
  | "true" => .primitive
  | "false" => .primitive
  | "number" => if isBigInt text value then .other else .primitive
  | "unary_expression" =>
    if (value.childOf? "operator").any (·.kind == "-") &&
        (value.childOf? "argument").any (isPlainNumber text) then .primitive
    else .other
  | "as_expression" =>
    if value.children.any (fun c => !c.named && c.kind == "const") then .asConst else .other
  | _ => .other

end NamingLint.Syntax

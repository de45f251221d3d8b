import NamingLint.Violation

/-!
# Declared names

A binding is a declaration found in a text. Its origin decides which rule judges its name, or
that none does.
-/
namespace NamingLint

/-- The form of the expression that a constant is bound to. -/
inductive Initializer where
  | functionLike
  | primitive
  | asConst
  | other
  deriving DecidableEq, Repr

inductive Origin where
  | function
  | const (value : Initializer)
  deriving DecidableEq, Repr

/-- The rule keys in force, one for each subject. -/
structure RuleKeys where
  constantCase : String
  functionCase : String
  deriving DecidableEq, Repr

def RuleKeys.keyFor (keys : RuleKeys) : Subject → String
  | .constant => keys.constantCase
  | .function => keys.functionCase

structure Binding where
  name : String
  origin : Origin
  line : Nat
  character : Nat
  /-- The byte offset of the name. -/
  offset : Nat
  deriving DecidableEq, Repr

/-- What a name of this origin stands for; names of other origins are free. -/
def Origin.subject? : Origin → Option Subject
  | function => some .function
  | const .functionLike => some .function
  | const .primitive => some .constant
  | const .asConst => none
  | const .other => none

namespace Binding

def subject? (b : Binding) : Option Subject :=
  b.origin.subject?

def violationOf (b : Binding) (subject : Subject) (rule : String) : Violation where
  name := b.name
  line := b.line
  character := b.character
  endCharacter := b.character + Text.unitLength b.name.toList
  subject := subject
  rule := rule
  offset := b.offset

/-- Judges a name by the rule for its subject. -/
def check (b : Binding) (keys : RuleKeys) : Option Violation :=
  match b.subject? with
  | none => none
  | some subject =>
    if followsRule b.name (keys.keyFor subject) then none
    else some (b.violationOf subject (keys.keyFor subject))

end Binding
end NamingLint

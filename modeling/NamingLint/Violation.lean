import NamingLint.Locale
import NamingLint.Rule
import NamingLint.Text.Bytes
import NamingLint.Text.Position

/-!
# Violations

A violation is a declared name that does not follow the rule for its subject, with the place of
the name in the text both as an editor range and as a byte offset.
-/
namespace NamingLint

/-- What the offending name stands for. -/
inductive Subject where
  | constant
  | function
  deriving DecidableEq, Repr, Inhabited

namespace Subject

def word : Subject → String
  | constant => "constant"
  | function => "function"

def all : List Subject := [constant, function]

def ofWord? (word : String) : Option Subject :=
  all.find? (·.word == word)

def title (subject : Subject) : Locale → String
  | .en => match subject with
    | constant => "Constant name"
    | function => "Function name"
  | .ja => match subject with
    | constant => "定数名"
    | function => "関数名"

end Subject

structure Violation where
  name : String
  line : Nat
  character : Nat
  endCharacter : Nat
  subject : Subject
  /-- The key of the rule that the name breaks. -/
  rule : String
  /-- The byte offset of the name. -/
  offset : Nat
  deriving DecidableEq, Repr, Inhabited

namespace Violation

def range (v : Violation) : Range :=
  ⟨⟨v.line, v.character⟩, ⟨v.line, v.endCharacter⟩⟩

def sample (v : Violation) : String :=
  sampleFor v.rule

def message (v : Violation) : Locale → String
  | .en => s!"{v.subject.title .en} \"{v.name}\" does not follow {v.rule} (e.g. {v.sample})"
  | .ja => s!"{v.subject.title .ja} \"{v.name}\" は {v.rule} に従っていません（例: {v.sample}）"

def advice (v : Violation) : String :=
  s!"rename to follow {v.rule}, e.g. {v.sample}"

end Violation

/-- A labelled run of bytes of a text. -/
structure Mark where
  text : String
  offset : Nat
  length : Nat
  deriving DecidableEq, Repr

/-- A violation as it is shown beside its source text. -/
structure Highlight where
  message : String
  code : String
  help : String
  mark : Mark
  deriving DecidableEq, Repr

def Violation.highlight (v : Violation) (message : String) : Highlight where
  message := message
  code := "case_lint::naming"
  help := v.advice
  mark := ⟨s!"{v.subject.word} name", v.offset, Text.byteLength v.name.toList⟩

end NamingLint

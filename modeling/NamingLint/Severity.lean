import NamingLint.Event
import NamingLint.Text.Quoted

/-!
# Severities

Settings name a severity by a word; a word that is not known stands for a warning and is
reported.
-/
namespace NamingLint

/-- From the mildest to the gravest. -/
inductive Severity where
  | hint
  | information
  | warning
  | error
  deriving DecidableEq, Repr, Inhabited

namespace Severity

def rank : Severity → Nat
  | hint => 0
  | information => 1
  | warning => 2
  | error => 3

instance : LE Severity := ⟨fun a b => a.rank ≤ b.rank⟩

instance (a b : Severity) : Decidable (a ≤ b) := inferInstanceAs (Decidable (a.rank ≤ b.rank))

/-- The severity where none is given. -/
def standard : Severity := warning

/-- The word written in results and settings. -/
def word : Severity → String
  | hint => "hint"
  | information => "information"
  | warning => "warning"
  | error => "error"

/-- The word shown to people. -/
def label : Severity → String
  | information => "info"
  | severity => severity.word

/-- The severity that a word names: lower case or capitalised, and `info` for short. -/
def ofWord? : String → Option Severity
  | "Error" => some error
  | "error" => some error
  | "Warning" => some warning
  | "warning" => some warning
  | "Information" => some information
  | "information" => some information
  | "info" => some information
  | "Hint" => some hint
  | "hint" => some hint
  | _ => none

/-- Reads any word as a severity. -/
def read (word : String) : Logged Severity :=
  match ofWord? word with
  | some severity => pure severity
  | none => ⟨warning, [.warn s!"Unknown severity {Text.quote .text word}, using warning"]⟩

def gravest? : List Severity → Option Severity
  | [] => none
  | s :: r => some (r.foldl (fun a b => if a ≤ b then b else a) s)

end Severity
end NamingLint

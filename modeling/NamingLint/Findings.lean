import NamingLint.Diagnostic
import NamingLint.Path

/-!
# Findings

What an analysis of many files found, and its totals.
-/
namespace NamingLint

structure FileReport where
  file : Path
  diagnostics : List Diagnostic
  deriving DecidableEq, Repr

/-- A file that could not be checked. -/
structure Failure where
  file : Path
  message : String
  deriving DecidableEq, Repr

structure Findings where
  reports : List FileReport := []
  failures : List Failure := []
  filesChecked : Nat := 0
  deriving DecidableEq, Repr

structure Tally where
  errors : Nat := 0
  warnings : Nat := 0
  infos : Nat := 0
  hints : Nat := 0
  deriving DecidableEq, Repr

def Tally.add (t : Tally) : Severity → Tally
  | .error => { t with errors := t.errors + 1 }
  | .warning => { t with warnings := t.warnings + 1 }
  | .information => { t with infos := t.infos + 1 }
  | .hint => { t with hints := t.hints + 1 }

namespace Findings

def diagnostics (f : Findings) : List Diagnostic :=
  f.reports.flatMap (·.diagnostics)

def violationCount (f : Findings) : Nat :=
  f.reports.foldl (fun count report => count + report.diagnostics.length) 0

def hasErrors (f : Findings) : Bool :=
  f.diagnostics.any (·.severity == .error)

def hasFailures (f : Findings) : Bool :=
  !f.failures.isEmpty

def tally (f : Findings) : Tally :=
  f.diagnostics.foldl (fun t d => t.add d.severity) {}

end Findings
end NamingLint

import NamingLint.Report.Text

/-!
# The compact report

One line for each violation, then one for each file that could not be checked.
-/
namespace NamingLint.Report

def compactLine (file : Path) (d : Diagnostic) : String :=
  s!"{placeOf file d}: {d.severity.label} [{d.violation.rule}] {d.message}"

def compactFailure (failure : Failure) : String :=
  s!"{failure.file.text}: error [parse] {failure.message}"

def compactLines (f : Findings) : List String :=
  f.reports.flatMap (fun r => r.diagnostics.map (compactLine r.file)) ++
    f.failures.map compactFailure

def compact (f : Findings) : String :=
  String.join ((compactLines f).map (· ++ "\n"))

end NamingLint.Report

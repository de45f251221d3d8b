import NamingLint.Report.Summary

/-!
# The plain report

Each violation with its place, its message and advice; then the files that could not be checked,
and the summary.
-/
namespace NamingLint.Report

def severityColour : Severity → Colour
  | .error => .red
  | .warning => .yellow
  | .information => .blue
  | .hint => .cyan

def severityMark (s : Severity) : String :=
  coloured (severityColour s) s.label

/-- The place of a diagnostic, counted from one. -/
def placeOf (file : Path) (d : Diagnostic) : String :=
  s!"{file.text}:{d.range.start.line + 1}:{d.range.start.character + 1}"

def textEntry (file : Path) (d : Diagnostic) : String :=
  s!"{d.violation.subject.word} {d.violation.rule} at {placeOf file d}\n" ++
    s!"  {severityMark d.severity}: {d.message}\n" ++
    s!"  = help: {d.violation.advice}\n\n"

def textFailure (failure : Failure) : String :=
  coloured .red "error" ++ s!": {failure.message}\n\n"

def text (f : Findings) : String :=
  String.join (f.reports.flatMap fun r => r.diagnostics.map (textEntry r.file)) ++
    String.join (f.failures.map textFailure) ++ summary f

end NamingLint.Report

import NamingLint.Data
import NamingLint.Findings
import NamingLint.Settings

/-!
# Settings and findings as structured data
-/
namespace NamingLint
open Data

def Severity.toData (s : Severity) : Data := .text s.word
def Subject.toData (s : Subject) : Data := .text s.word
def Locale.toData (l : Locale) : Data := .text l.code
def Path.toData (p : Path) : Data := .text p.text

def Data.ofNat (n : Nat) : Data := .integer n

def Position.toData (p : Position) : Data :=
  .record [("line", ofNat p.line), ("character", ofNat p.character)]

def Range.toData (r : Range) : Data :=
  .record [("start", r.start.toData), ("end", r.stop.toData)]

def Violation.toData (v : Violation) : Data :=
  .record [("name", .text v.name), ("line", ofNat v.line), ("character", ofNat v.character),
    ("end_character", ofNat v.endCharacter), ("kind", v.subject.toData), ("rule", .text v.rule),
    ("offset", ofNat v.offset)]

def Diagnostic.toData (d : Diagnostic) : Data :=
  .record [("range", d.range.toData), ("message", .text d.message),
    ("severity", d.severity.toData), ("source", .text d.source),
    ("violation", d.violation.toData)]

def FileReport.toData (r : FileReport) : Data :=
  .record [("file", r.file.toData), ("diagnostics", .list (r.diagnostics.map (·.toData)))]

def Failure.toData (f : Failure) : Data :=
  .record [("file", f.file.toData), ("message", .text f.message)]

def Findings.toData (f : Findings) : Data :=
  .record [("reports", .list (f.reports.map (·.toData))),
    ("parse_errors", .list (f.failures.map (·.toData))), ("files_checked", ofNat f.filesChecked)]

def NamingSettings.toData (s : NamingSettings) : Data :=
  .record [("constant_case", .text s.constantCase), ("function_case", .text s.functionCase),
    ("severity", s.severity.toData), ("locale", s.locale.toData)]

def ScanSettings.toData (s : ScanSettings) : Data :=
  .record [("root", s.root.toData), ("exclude", .list (s.exclude.map .text)),
    ("respect_gitignore", .bool s.respectGitignore)]

def Settings.toData (s : Settings) : Data :=
  .record [("naming", s.naming.toData), ("analyzer", s.scan.toData)]

end NamingLint

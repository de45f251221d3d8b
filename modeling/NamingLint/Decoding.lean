import NamingLint.Data
import NamingLint.Findings
import NamingLint.Settings

/-!
# Settings and findings from structured data

Unknown keys of a record say nothing. Every setting has a standard value; the fields of findings
are all required.
-/
namespace NamingLint
open Data

/-- Any text is read as a severity. -/
def Severity.ofData (d : Data) : Decoding Severity := do
  let word ← d.asText
  OptionT.lift (Severity.read word)

def Subject.ofData (f : Format) (d : Data) : Decoding Subject := d.asWord f Subject.ofWord?
def Locale.ofData (f : Format) (d : Data) : Decoding Locale := d.asWord f Locale.ofCode?
def Path.ofData (d : Data) : Decoding Path := Path.mk <$> d.asText

def Position.ofData (f : Format) (d : Data) : Decoding Position := do
  let line ← d.field 0 "line" asNat
  let character ← d.field 1 "character" asNat
  d.endFields f 2
  pure { line, character }

def Range.ofData (f : Format) (d : Data) : Decoding Range := do
  let start ← d.field 0 "start" (Position.ofData f)
  let stop ← d.field 1 "end" (Position.ofData f)
  d.endFields f 2
  pure { start, stop }

def Violation.ofData (f : Format) (d : Data) : Decoding Violation := do
  let name ← d.field 0 "name" asText
  let line ← d.field 1 "line" asNat
  let character ← d.field 2 "character" asNat
  let endCharacter ← d.field 3 "end_character" asNat
  let subject ← d.field 4 "kind" (Subject.ofData f)
  let rule ← d.field 5 "rule" asText
  let offset ← d.field 6 "offset" asNat
  d.endFields f 7
  pure { name, line, character, endCharacter, subject, rule, offset }

def Diagnostic.ofData (f : Format) (d : Data) : Decoding Diagnostic := do
  let range ← d.field 0 "range" (Range.ofData f)
  let message ← d.field 1 "message" asText
  let severity ← d.field 2 "severity" Severity.ofData
  let source ← d.field 3 "source" asText
  let violation ← d.field 4 "violation" (Violation.ofData f)
  d.endFields f 5
  pure { range, message, severity, source, violation }

def FileReport.ofData (f : Format) (d : Data) : Decoding FileReport := do
  let file ← d.field 0 "file" Path.ofData
  let diagnostics ← d.field 1 "diagnostics" (asList (Diagnostic.ofData f))
  d.endFields f 2
  pure { file, diagnostics }

def Failure.ofData (f : Format) (d : Data) : Decoding Failure := do
  let file ← d.field 0 "file" Path.ofData
  let message ← d.field 1 "message" asText
  d.endFields f 2
  pure { file, message }

def Findings.ofData (f : Format) (d : Data) : Decoding Findings := do
  let reports ← d.field 0 "reports" (asList (FileReport.ofData f))
  let failures ← d.field 1 "parse_errors" (asList (Failure.ofData f))
  let filesChecked ← d.field 2 "files_checked" asNat
  d.endFields f 3
  pure { reports, failures, filesChecked }

def NamingSettings.change (f : Format) (name : String) (d : Data) (s : NamingSettings) :
    Decoding NamingSettings :=
  match name with
  | "constant_case" => do pure { s with constantCase := ← d.asText }
  | "function_case" => do pure { s with functionCase := ← d.asText }
  | "severity" => do pure { s with severity := ← Severity.ofData d }
  | "locale" => do pure { s with locale := ← Locale.ofData f d }
  | _ => pure s

def NamingSettings.ofData (f : Format) (d : Data) : Decoding NamingSettings :=
  d.asChanges f ["constant_case", "function_case", "severity", "locale"] {}
    (NamingSettings.change f)

def ScanSettings.change (name : String) (d : Data) (s : ScanSettings) : Decoding ScanSettings :=
  match name with
  | "root" => do pure { s with root := ← Path.ofData d }
  | "exclude" => do pure { s with exclude := ← d.asList asText }
  | "respect_gitignore" => do pure { s with respectGitignore := ← d.asBool }
  | _ => pure s

def ScanSettings.ofData (f : Format) (d : Data) : Decoding ScanSettings :=
  d.asChanges f ["root", "exclude", "respect_gitignore"] {} ScanSettings.change

def Settings.change (f : Format) (name : String) (d : Data) (s : Settings) : Decoding Settings :=
  match name with
  | "naming" => do pure { s with naming := ← NamingSettings.ofData f d }
  | "analyzer" => do pure { s with scan := ← ScanSettings.ofData f d }
  | _ => pure s

def Settings.ofData (f : Format) (d : Data) : Decoding Settings :=
  d.asChanges f ["naming", "analyzer"] {} (Settings.change f)

end NamingLint

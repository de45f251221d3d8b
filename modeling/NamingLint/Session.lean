import NamingLint.Check
import NamingLint.DiagnosticStore
import NamingLint.Document
import NamingLint.Settings

/-!
# Sessions

A session takes documents as an editor hands them over and publishes what it finds. A checked
document replaces all that was published for its path; one that does not parse withdraws it;
one in another language leaves it.
-/
namespace NamingLint

/-- Why a document is handed over. -/
inductive Trigger where
  | opened
  | saved
  | focused
  | startup
  deriving DecidableEq, Repr

def Trigger.name : Trigger → String
  | opened => "Open"
  | saved => "Save"
  | focused => "FocusChange"
  | startup => "Startup"

inductive Outcome where
  /-- The language is not one that is checked. -/
  | ignored
  | checked (violations : Nat)
  | failed (error : ParseError)
  deriving DecidableEq, Repr

structure Session where
  settings : NamingSettings
  store : DiagnosticStore := .empty
  deriving Repr

namespace Session

def publish (s : NamingSettings) (violations : List Violation) : List Diagnostic :=
  violations.map fun v => .ofViolation v s.severity s.locale

def handle (c : Checker) (s : Session) (t : Trigger) (d : Document) : Logged (Outcome × Session) :=
  let file := d.path.text
  let checking :=
    .debug s!"Checking {file} on {t.name}" :: c.events d.text file s.settings.ruleKeys
  if c.languages.contains d.language then
    match c.check d.text file s.settings.ruleKeys with
    | .ok violations =>
      { value := (.checked violations.length,
          { s with store := s.store.set d.path (publish s.settings violations) })
        events := checking }
    | .error e =>
      { value := (.failed e, { s with store := s.store.clear d.path })
        events := checking ++ [.warn s!"Failed to parse {file}: {e.message}"] }
  else
    { value := (.ignored, s)
      events := [.debug s!"Ignoring {file} ({d.language}) on {t.name}"] }

def reload (s : Session) (settings : NamingSettings) : Session :=
  { s with settings }

def dispose (s : Session) : Session :=
  { s with store := .empty }

end Session
end NamingLint

import NamingLint.Severity
import NamingLint.Violation

/-!
# Diagnostics

A diagnostic is a violation made ready for publishing: with its range, its message in one
language and its severity.
-/
namespace NamingLint

structure Diagnostic where
  range : Range
  message : String
  severity : Severity
  /-- Who publishes it. -/
  source : String
  violation : Violation
  deriving DecidableEq, Repr, Inhabited

namespace Diagnostic

def standardSource : String := "case-lint"

def ofViolation (v : Violation) (severity : Severity) (locale : Locale) : Diagnostic where
  range := v.range
  message := v.message locale
  severity := severity
  source := standardSource
  violation := v

end Diagnostic
end NamingLint

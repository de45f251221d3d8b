import NamingLint.Binding
import NamingLint.Path
import NamingLint.Severity

/-!
# Settings

How names are judged and reported, and which files are looked at.
-/
namespace NamingLint

structure NamingSettings where
  constantCase : String := Rule.upperSnake.key
  functionCase : String := Rule.camel.key
  severity : Severity := .standard
  locale : Locale := .standard
  deriving DecidableEq, Repr, Inhabited

namespace NamingSettings

def ruleKeys (s : NamingSettings) : RuleKeys :=
  ⟨s.constantCase, s.functionCase⟩

/-- The rule keys that name no rule, so that names of their subject are not judged. -/
def unknownRuleKeys (s : NamingSettings) : List String :=
  [s.constantCase, s.functionCase].filter fun key => (Rule.ofKey? key).isNone

end NamingSettings

structure ScanSettings where
  root : Path := ⟨"."⟩
  exclude : List String := ["**/node_modules/**", "**/dist/**"]
  respectGitignore : Bool := true
  deriving DecidableEq, Repr, Inhabited

structure Settings where
  naming : NamingSettings := {}
  scan : ScanSettings := {}
  deriving DecidableEq, Repr, Inhabited

end NamingLint

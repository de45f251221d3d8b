import NamingLint.Findings

/-!
# The summary line

The line that ends a report for people. Its colour tells how grave the findings are.
-/
namespace NamingLint

def Findings.fails (f : Findings) : Bool :=
  f.hasErrors || f.hasFailures

namespace Report

inductive Colour where
  | red
  | yellow
  | green
  | blue
  | cyan
  deriving DecidableEq, Repr

/-- The escape sequence that switches to a colour. -/
def Colour.code : Colour → String
  | red => "\x1b[31m"
  | yellow => "\x1b[33m"
  | green => "\x1b[32m"
  | blue => "\x1b[34m"
  | cyan => "\x1b[36m"

def resetCode : String := "\x1b[0m"

def coloured (colour : Colour) (text : String) : String :=
  colour.code ++ text ++ resetCode

/-- Red for errors and failures, yellow for warnings, else green. -/
def summaryColour (f : Findings) : Colour :=
  if 0 < f.tally.errors || f.hasFailures then .red
  else if 0 < f.tally.warnings then .yellow
  else .green

def summaryText (f : Findings) : String :=
  let t := f.tally
  let failed :=
    if f.hasFailures then s!"; {f.failures.length} file(s) failed to parse" else ""
  s!"Found {t.errors} error(s), {t.warnings} warning(s), {t.infos} info(s), " ++
    s!"{t.hints} hint(s) in {f.filesChecked} file(s)" ++ failed

def summary (f : Findings) : String :=
  coloured (summaryColour f) (summaryText f) ++ "\n"

end Report
end NamingLint

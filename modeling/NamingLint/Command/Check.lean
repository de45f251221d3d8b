import NamingLint.Analysis
import NamingLint.Command.Arguments
import NamingLint.Command.Lookup

/-!
# The command `check`

Settings are found and overridden, the analysis is run, and its findings are reported. The
command fails if there are errors or files that could not be checked.
-/
namespace NamingLint.Command

/-- What is given on the command line wins. -/
def Overrides.apply (o : Overrides) (s : NamingSettings) : NamingSettings where
  constantCase := o.constantCase.getD s.constantCase
  functionCase := o.functionCase.getD s.functionCase
  severity := o.severity.getD s.severity
  locale := o.locale.getD s.locale

def unknownRuleEvents (s : NamingSettings) : List Event :=
  s.unknownRuleKeys.map fun key =>
    .warn s!"Unknown naming rule `{key}`; names of that kind will not be checked"

/-- The directory whose settings count: the path to check, if it is one, else the current one. -/
def Environment.projectDirectory (e : Environment) (path? : Option Path) : Path :=
  (path?.filter (e.files.findsDirectory e.current)).getD ⟨"."⟩

/-- The settings in force: those found, overridden by the command line. -/
def Environment.effectiveSettings (e : Environment) (config? path? : Option Path)
    (o : Overrides) : Logged (Except Complaint Settings) := do
  let source ← e.findSettings (e.projectDirectory path?) config?
  let loaded ← e.loadSettings source
  match loaded with
  | .ok s => pure (.ok { s with naming := o.apply s.naming })
  | .error cause =>
    let context := match source.path? with
      | some path => s!"Failed to load config: {path.text}"
      | none => "Failed to load default config"
    pure (.error { context, causes := cause.causes })

def Environment.analyze (e : Environment) (path? : Option Path) (patterns : List String)
    (s : Settings) : Logged (Except Complaint (Path × Findings)) :=
  match Analysis.prepare (some e.grammar) e.currentPath path? patterns s with
  | .error cause =>
    pure (.error { context := "Failed to build analyzer", causes := cause.causes })
  | .ok a => do
    Logged.emit (.info s!"Checking {a.root.text}")
    match ← a.run e.disk with
    | .error cause =>
      pure (.error { context := "Analysis failed", causes := cause.causes })
    | .ok findings => pure (.ok (a.root, findings))

def skippedEvents (f : Findings) : List Event :=
  f.failures.map fun failure => .warn s!"Skipped {failure.file.text}: {failure.message}"

/-- The report and whether the command fails. -/
def Environment.checkFiles (e : Environment) (config? path? : Option Path)
    (format : Report.Format) (patterns : List String) (o : Overrides) :
    Logged (Except Complaint (String × Bool)) := do
  match ← e.effectiveSettings config? path? o with
  | .error complaint => pure (.error complaint)
  | .ok s =>
    let _ ← (⟨(), unknownRuleEvents s.naming⟩ : Logged Unit)
    match ← e.analyze path? patterns s with
    | .error complaint => pure (.error complaint)
    | .ok (root, findings) =>
      let _ ← (⟨(), skippedEvents findings⟩ : Logged Unit)
      let report ← format.render root (e.disk.isFile root) e.disk.read findings
      pure (.ok (report, findings.fails))

def Environment.check (e : Environment) (config? path? : Option Path)
    (format : Report.Format) (patterns : List String) (o : Overrides) : Response :=
  let r := e.checkFiles config? path? format patterns o
  match r.value with
  | .ok (output, fails) =>
    { status := if fails then 1 else 0, output, events := r.events, files := e.files }
  | .error complaint =>
    { status := 1, events := r.events, complaint := some complaint, files := e.files }

end NamingLint.Command

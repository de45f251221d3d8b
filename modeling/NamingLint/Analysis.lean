import NamingLint.Exclusion
import NamingLint.Findings
import NamingLint.Session
import NamingLint.Walk

/-!
# Analysing a directory

Every TypeScript file that a walk visits and no pattern excludes is handed to one session, in
the order of paths, under its path below the root.
-/
namespace NamingLint

inductive AnalysisError where
  | noChecker
  | glob (error : GlobError)
  | walk (error : WalkError)
  deriving DecidableEq, Repr

def AnalysisError.message : AnalysisError → String
  | noChecker => "No checker configured"
  | glob e => s!"Invalid glob pattern: {e.message}"
  | walk e => s!"Failed to walk directory: {e.message}"

/-- The error and what is behind it, outermost first. -/
def AnalysisError.causes (e : AnalysisError) : List String :=
  match e with
  | noChecker => [e.message]
  | glob cause => [e.message, cause.message]
  | walk cause => [e.message, cause.message]

structure Analysis where
  grammar : Grammar
  /-- An absolute path. -/
  root : Path
  exclude : List ExcludePattern
  settings : Settings

namespace Analysis

/-- Prepares an analysis in a current directory. The root is that of the settings unless another
is given; the given patterns come before those of the settings. -/
def prepare (grammar? : Option Grammar) (current : Path) (root? : Option Path)
    (patterns : List String) (settings : Settings) : Except AnalysisError Analysis :=
  match grammar? with
  | none => .error .noChecker
  | some grammar =>
    match (patterns ++ settings.scan.exclude).mapM ExcludePattern.parse with
    | .error e => .error (.glob e)
    | .ok exclude =>
      .ok { grammar, root := current.join (root?.getD settings.scan.root), exclude, settings }

/-- The path below the root; for the root itself, its file name. -/
def relativePath (root path : Path) : Path :=
  match path.below? root with
  | some rel => if rel.text.isEmpty then fallback else rel
  | none => fallback
where
  fallback : Path := (path.fileName?.map Path.mk).getD path

/-- Whether a file is in a language that is checked. -/
def isSource (path : Path) : Bool :=
  (Language.ofPath? path).any Language.supported.contains

/-- Whether a file is excluded, where `admits` says which texts globs match. -/
def excludesBy (admits : Glob → String → Bool) (a : Analysis) (path : Path) : Bool :=
  isExcluded admits a.exclude (relativePath a.root path)

def excludes (a : Analysis) (path : Path) : Bool :=
  a.excludesBy Glob.admits path

/-- The visited files that are analysed, in the order of paths. -/
def selected (a : Analysis) (visited : List Path) : List Path :=
  ((visited.filter isSource).filter fun p => !a.excludes p).mergeSort
    fun p q => (compare p q).isLE

def leftOut (a : Analysis) (visited : List Path) : List Path :=
  (visited.filter isSource).filter a.excludes

/-- The session, the failures and the number of files so far. -/
structure Progress where
  session : Session
  failures : List Failure := []
  filesChecked : Nat := 0

def start (a : Analysis) : Progress where
  session := { settings := a.settings.naming }

def addFile (c : Checker) (root : Path) (read : Path → Except ReadError String)
    (p : Progress) (path : Path) : Logged Progress :=
  let file := relativePath root path
  let p := { p with filesChecked := p.filesChecked + 1 }
  match read path with
  | .error e =>
    { value := { p with
        failures := p.failures ++ [⟨file, s!"Failed to read {path.text}: {e.message}"⟩] }
      events := [.warn s!"Skipping unreadable {path.text}: {e.message}"] }
  | .ok text =>
    (p.session.handle c .startup (.ofText file text)).map fun (outcome, session) =>
      match outcome with
      | .failed e => { p with session, failures := p.failures ++ [⟨file, e.message⟩] }
      | _ => { p with session }

def addFiles (c : Checker) (root : Path) (read : Path → Except ReadError String) :
    Progress → List Path → Logged Progress
  | p, [] => pure p
  | p, path :: r => do addFiles c root read (← addFile c root read p path) r

def findingsOf (a : Analysis) (read : Path → Except ReadError String)
    (files : List Path) : Logged Findings :=
  (addFiles a.grammar.checker a.root read a.start files).map fun p =>
    { reports := p.session.store.entries.map fun (file, found) => ⟨file, found⟩
      failures := p.failures
      filesChecked := p.filesChecked }

def analyzeVisited (a : Analysis) (read : Path → Except ReadError String)
    (visited : List Path) : Logged Findings :=
  let files := a.selected visited
  let found := a.findingsOf read files
  let findings := found.value
  { value := findings
    events :=
      (a.leftOut visited).map (fun p => .debug s!"Excluding: {p.text}") ++
        .info s!"Found {files.length} files to analyze" :: found.events ++
        [.info (s!"Analysis complete: {findings.violationCount} violations in " ++
          s!"{findings.filesChecked} files")] }

def run (a : Analysis) (disk : Disk) : Logged (Except AnalysisError Findings) :=
  let start := Event.info s!"Starting analysis at {Text.quote .path a.root.text}"
  match disk.walk a.settings.scan.respectGitignore a.root with
  | .error e => ⟨.error (.walk e), [start]⟩
  | .ok visited =>
    let found := a.analyzeVisited disk.read visited
    ⟨.ok found.value, start :: found.events⟩

end Analysis
end NamingLint

import NamingLint.Command.Environment
import NamingLint.SettingsFile

/-!
# Finding the settings

A file named on the command line is taken; else one of the project's; else the global one; else
there are only the standard settings.
-/
namespace NamingLint.Command

inductive SettingsSource where
  | given (path : Path)
  | project (path : Path)
  | global (path : Path)
  | standard
  deriving DecidableEq, Repr

def SettingsSource.path? : SettingsSource → Option Path
  | given p => some p
  | project p => some p
  | global p => some p
  | standard => none

def projectNames : List String := ["case-lint.toml", ".case-lint.toml"]

def Environment.globalDirectory (e : Environment) : Option Path :=
  e.configDirectory.or (e.home.map (·.join ⟨".case-lint"⟩))

def Environment.isFile (e : Environment) (path : Path) : Bool :=
  e.files.findsFile e.current path

/-- Where the settings for a project directory come from. -/
def Environment.findSettings (e : Environment) (directory : Path) (given? : Option Path) :
    Logged SettingsSource :=
  match given? with
  | some path => pure (.given path)
  | none =>
    match (projectNames.map fun name => directory.join ⟨name⟩).find? e.isFile with
    | some path => ⟨.project path, [.debug s!"Found project config: {path.text}"]⟩
    | none =>
      match (e.globalDirectory.map (·.join ⟨"config.toml"⟩)).filter e.isFile with
      | some path => pure (.global path)
      | none => pure .standard

def Environment.loadSettings (e : Environment) (source : SettingsSource) :
    Logged (Except SettingsError Settings) :=
  match source with
  | .standard => ⟨.ok {}, [.debug "No config file found, using defaults"]⟩
  | .global path => do
    Logged.emit (.info s!"Using global config: {path.text}")
    Settings.load e.files e.current path
  | .given path => Settings.load e.files e.current path
  | .project path => Settings.load e.files e.current path

end NamingLint.Command

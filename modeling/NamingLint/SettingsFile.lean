import NamingLint.Decoding
import NamingLint.FileTree
import NamingLint.Toml.Document

/-!
# Settings files
-/
namespace NamingLint

inductive SettingsError where
  | unreadable (path : Path) (cause : OsError)
  | malformed
  deriving DecidableEq, Repr

def SettingsError.message : SettingsError → String
  | unreadable path cause => s!"Failed to read config file {path.text}: {cause.message}"
  | malformed => "Failed to parse config: the settings are malformed"

/-- The error and what is behind it, outermost first. -/
def SettingsError.causes (e : SettingsError) : List String :=
  match e with
  | unreadable _ cause => [e.message, cause.message]
  | malformed => [e.message]

namespace Settings

def parse (text : String) : Logged (Except SettingsError Settings) :=
  match Toml.parse text with
  | none => pure (.error .malformed)
  | some data =>
    let read := Settings.ofData .toml data
    ⟨read.result.elim (.error .malformed) .ok, read.events⟩

def load (files : FileTree) (current : Place) (path : Path) :
    Logged (Except SettingsError Settings) :=
  match files.readText current path with
  | .ok text => parse text
  | .error cause => pure (.error (.unreadable path cause))

end Settings
end NamingLint

import NamingLint.Dialect
import NamingLint.FileTree

/-!
# Documents

A document is a text under a path, in a language.
-/
namespace NamingLint

structure Document where
  path : Path
  language : String
  text : String
  deriving DecidableEq, Repr

namespace Document

/-- A document in the language of its extension. -/
def ofText (path : Path) (text : String) : Document :=
  ⟨path, (Language.ofPath? path).getD Language.plain, text⟩

def load (files : FileTree) (current : Place) (path : Path) : Except OsError Document := do
  pure (ofText path (← files.readText current path))

end Document
end NamingLint

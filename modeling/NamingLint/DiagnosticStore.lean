import NamingLint.Diagnostic
import NamingLint.Path

/-!
# The store of published diagnostics

The store keeps the diagnostics of each file in the order of paths, and no file without any.
Two spellings of one path are one file, which keeps the spelling it entered with.
-/
namespace NamingLint

structure DiagnosticStore where
  entries : List (Path × List Diagnostic)
  deriving DecidableEq, Repr

namespace DiagnosticStore

def empty : DiagnosticStore := ⟨[]⟩

/-- Puts an entry into a list that is ordered by path. -/
def insertInto (path : Path) (found : List Diagnostic) :
    List (Path × List Diagnostic) → List (Path × List Diagnostic)
  | [] => [(path, found)]
  | (p, old) :: r =>
    match compare path p with
    | .lt => (path, found) :: (p, old) :: r
    | .eq => (p, found) :: r
    | .gt => (p, old) :: insertInto path found r

def clear (store : DiagnosticStore) (path : Path) : DiagnosticStore :=
  ⟨store.entries.filter fun e => !(e.1.components == path.components)⟩

def set (store : DiagnosticStore) (path : Path) (found : List Diagnostic) : DiagnosticStore :=
  if found.isEmpty then store.clear path else ⟨insertInto path found store.entries⟩

def get (store : DiagnosticStore) (path : Path) : List Diagnostic :=
  match store.entries.find? (·.1.components == path.components) with
  | some e => e.2
  | none => []

def size (store : DiagnosticStore) : Nat :=
  store.entries.length

def isEmpty (store : DiagnosticStore) : Bool :=
  store.entries.isEmpty

end DiagnosticStore

inductive StoreChange where
  | set (path : Path) (found : List Diagnostic)
  | clear (path : Path)
  | clearAll
  deriving Repr

def DiagnosticStore.apply (store : DiagnosticStore) : StoreChange → DiagnosticStore
  | .set path found => store.set path found
  | .clear path => store.clear path
  | .clearAll => .empty

end NamingLint

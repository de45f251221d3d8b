import NamingLint.Path

/-!
# TypeScript dialects and language ids

The extension of a path decides which grammar reads a file, and which language an editor takes
it for. Only the first decision ignores case.
-/
namespace NamingLint

inductive Dialect where
  | typescript
  | tsx
  deriving DecidableEq, Repr

namespace Dialect

def name : Dialect → String
  | typescript => "typescript"
  | tsx => "tsx"

/-- The dialect of a file; all that is not `.tsx` is plain TypeScript. -/
def ofFileName (file : String) : Dialect :=
  match (Path.mk file).extension? with
  | some ext => if ext.toList.map Char.toLower = "tsx".toList then tsx else typescript
  | none => typescript

end Dialect

namespace Language

def typescript : String := "typescript"
def typescriptReact : String := "typescriptreact"
def plain : String := "plaintext"

def supported : List String := [typescript, typescriptReact]

def ofPath? (path : Path) : Option String :=
  match path.extension? with
  | some "ts" => some typescript
  | some "mts" => some typescript
  | some "cts" => some typescript
  | some "tsx" => some typescriptReact
  | _ => none

end Language
end NamingLint

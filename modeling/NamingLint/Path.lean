/-!
# Paths

A path keeps the spelling it was given. Its identity and its order are those of its components:
repeated and trailing slashes and dots that are not leading say nothing.
-/
namespace NamingLint

structure Path where
  text : String
  deriving DecidableEq, Repr, Inhabited

namespace Path

inductive Component where
  | root
  | here
  | up
  | name (text : String)
  deriving DecidableEq, Repr

namespace Component

/-- Root, dot and double dot come before every name. -/
def rank : Component → Nat
  | root => 0
  | here => 1
  | up => 2
  | name _ => 3

def text : Component → String
  | root => "/"
  | here => "."
  | up => ".."
  | name t => t

instance : Ord Component where
  compare a b := (compare a.rank b.rank).then (compare a.text b.text)

end Component

/-- The component that a stretch between slashes stands for, if it is not the first one. -/
def componentOf? (segment : List Char) : Option Component :=
  if segment = [] ∨ segment = ['.'] then none
  else if segment = ['.', '.'] then some .up
  else some (.name (String.ofList segment))

/-- The stretches between the slashes of a path. -/
def segments (p : Path) : List (List Char) :=
  p.text.toList.splitOn '/'

def isAbsolute (p : Path) : Bool :=
  p.text.toList.head? == some '/'

def components (p : Path) : List Component :=
  let names := p.segments.filterMap componentOf?
  if p.isAbsolute then .root :: names
  else if p.segments.head? = some ['.'] then .here :: names
  else names

instance : Ord Path where
  compare p q := compare p.components q.components

/-- The path that some stretches spell, with slashes between them. -/
def ofSegments (segments : List (List Char)) : Path :=
  ⟨String.ofList (['/'].intercalate segments)⟩

/-- The last component, if it is a name. -/
def fileName? (p : Path) : Option String :=
  match p.components.getLast? with
  | some (.name t) => some t
  | _ => none

/-- What follows the last dot of a file name, unless that dot is its first character. -/
def extensionOf? (name : List Char) : Option (List Char) :=
  let tail := name.reverse.takeWhile (· ≠ '.')
  if tail.length + 1 < name.length then some tail.reverse else none

def extension? (p : Path) : Option String :=
  p.fileName?.bind fun name => (extensionOf? name.toList).map String.ofList

/-- The path `q` taken from the directory `p`. -/
def join (p q : Path) : Path :=
  if q.isAbsolute then q
  else if p.text.toList.getLast?.all (· = '/') then ⟨p.text ++ q.text⟩
  else ⟨p.text ++ "/" ++ q.text⟩

/-- Whether a stretch between slashes stands for nothing. -/
def isBlank (segment : List Char) : Bool :=
  (componentOf? segment).isNone

/-- The stretches behind those of the first `n` components. -/
def dropComponents : Nat → List (List Char) → List (List Char)
  | 0, r => r
  | _ + 1, [] => []
  | n + 1, s :: r => dropComponents (if isBlank s then n + 1 else n) r

/-- The stretches up to the last component. -/
def trimRight (segments : List (List Char)) : List (List Char) :=
  (segments.reverse.dropWhile isBlank).reverse

/-- The stretches from the first component to the last one. -/
def trimSegments (segments : List (List Char)) : List (List Char) :=
  trimRight (segments.dropWhile isBlank)

/-- The path up to its last component; a leading dot stays, and so does the slash of the root. -/
def trimEnd (p : Path) : Path :=
  let kept := trimRight p.segments.tail
  if p.isAbsolute && kept.isEmpty then ⟨"/"⟩ else ofSegments (p.segments.headD [] :: kept)

/-- What is left of `p` below `base`, in the spelling of `p`. -/
def below? (p base : Path) : Option Path :=
  if base.components.isPrefixOf p.components then
    if base.components.isEmpty then some p.trimEnd
    else
      let depth := (base.segments.filterMap componentOf?).length
      some (ofSegments (trimSegments (dropComponents depth p.segments)))
  else none

end Path
end NamingLint

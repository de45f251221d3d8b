import NamingLint.Path
import NamingLint.Text.Bytes

/-!
# Directory trees

A snapshot of files and directories, with the look-ups and failures of a file system. Places are
lists of names from the top; a path is resolved to a place step by step from the current
directory.
-/
namespace NamingLint

/-- Why a path cannot be used. -/
inductive OsError where
  | notFound
  | notDirectory
  | isDirectory
  | nameTooLong
  | notUtf8
  | zeroByte
  deriving DecidableEq, Repr

def OsError.message : OsError → String
  | notFound => "No such file or directory (os error 2)"
  | notDirectory => "Not a directory (os error 20)"
  | isDirectory => "Is a directory (os error 21)"
  | nameTooLong => "File name too long (os error 36)"
  | notUtf8 => "stream did not contain valid UTF-8"
  | zeroByte => "file name contained an unexpected NUL byte"

/-- Why a file cannot be read on a machine: for a reason that a tree of files has too, or for
another one, such as a missing permission, in the words of the machine. -/
inductive ReadError where
  | os (cause : OsError)
  | other (text : String)
  deriving DecidableEq, Repr

def ReadError.message : ReadError → String
  | os cause => cause.message
  | other text => text

/-- The names from the top of the tree down. -/
abbrev Place := List String

inductive FileNode where
  | directory
  | file (content : ByteArray)

/-- The nodes of a tree by place. The top itself is always a directory. -/
structure FileTree where
  nodes : List (Place × FileNode)

namespace FileTree

def empty : FileTree := ⟨[]⟩

def node? (t : FileTree) (place : Place) : Option FileNode :=
  if place.isEmpty then some .directory else t.nodes.lookup place

def isDirectory (t : FileTree) (place : Place) : Bool :=
  match t.node? place with
  | some .directory => true
  | _ => false

/-- Puts a node at a place, in front of what was there. -/
def put (t : FileTree) (place : Place) (node : FileNode) : FileTree :=
  ⟨(place, node) :: t.nodes.filter (·.1 ≠ place)⟩

/-- A place and all the places above it, from the top down. -/
def lineage (place : Place) : List Place :=
  (List.range (place.length + 1)).map place.take

def makeDirectory (t : FileTree) (place : Place) : FileTree :=
  ((lineage place).filter fun p => (t.node? p).isNone).foldl (fun t p => t.put p .directory) t

def makeFile (t : FileTree) (place : Place) (content : ByteArray) : FileTree :=
  (t.makeDirectory place.dropLast).put place (.file content)

/-- The longest name of a file, in bytes. -/
def nameLimit : Nat := 255

/-- The place of one stretch of a path below a place. -/
def step (t : FileTree) (place : Place) (segment : List Char) : Except OsError Place :=
  match t.node? place with
  | none => .error .notFound
  | some (.file _) => .error .notDirectory
  | some .directory =>
    if segment = [] ∨ segment = ['.'] then .ok place
    else if segment = ['.', '.'] then .ok place.dropLast
    else if nameLimit < Text.byteLength segment then .error .nameTooLong
    else .ok (place ++ [String.ofList segment])

/-- The place that a path names, from a current directory; there may be nothing there. -/
def resolve (t : FileTree) (current : Place) (path : Path) : Except OsError Place :=
  if path.text.toList.contains '\x00' then .error .zeroByte
  else if path.text.isEmpty then .error .notFound
  else path.segments.foldlM t.step (if path.isAbsolute then [] else current)

def find (t : FileTree) (current : Place) (path : Path) : Except OsError FileNode := do
  let place ← t.resolve current path
  match t.node? place with
  | some node => pure node
  | none => .error .notFound

def findsDirectory (t : FileTree) (current : Place) (path : Path) : Bool :=
  match t.find current path with
  | .ok .directory => true
  | _ => false

def findsFile (t : FileTree) (current : Place) (path : Path) : Bool :=
  match t.find current path with
  | .ok (.file _) => true
  | _ => false

def hasPath (t : FileTree) (current : Place) (path : Path) : Bool :=
  match t.find current path with
  | .ok _ => true
  | .error _ => false

def textOf (node : FileNode) : Except OsError String :=
  match node with
  | .directory => .error .isDirectory
  | .file content =>
    match String.fromUTF8? content with
    | some text => .ok text
    | none => .error .notUtf8

def readText (t : FileTree) (current : Place) (path : Path) : Except OsError String := do
  textOf (← t.find current path)

/-- Writes a file in a directory that is there. -/
def writeText (t : FileTree) (current : Place) (path : Path) (text : String) :
    Except OsError FileTree := do
  let place ← t.resolve current path
  match t.node? place with
  | some .directory => .error .isDirectory
  | some (.file _) => pure (t.put place (.file text.toUTF8))
  | none =>
    match t.node? place.dropLast with
    | some .directory => pure (t.put place (.file text.toUTF8))
    | some (.file _) => .error .notDirectory
    | none => .error .notFound

end FileTree
end NamingLint

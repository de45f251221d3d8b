import NamingLint.FileTree
import NamingLint.Ignore.Rule

/-!
# Walking a directory

A walk visits every file below a directory unless an ignore file speaks against it or against a
directory on the way. Of the ignore files, `.ignore` is stronger than `.gitignore`, and that is
stronger than the exclude file of the repository; of each kind, the one in the nearest directory
that says anything decides, also in directories above the walk. The files of a repository count
inside it only, and not beyond its top.
-/
namespace NamingLint

inductive WalkError where
  | unreachable (path : Path) (cause : OsError)
  /-- Lines in ignore files above the root that are no rules. -/
  | badLines (lines : List (Path × Ignore.BadLine))
  | other (text : String)
  deriving DecidableEq, Repr

def WalkError.message : WalkError → String
  | unreachable path cause =>
    s!"{path.text}: IO error for operation on {path.text}: {cause.message}"
  | badLines lines =>
    "\n".intercalate (lines.map fun (path, bad) => s!"{path.text}: {bad.message}")
  | other text => text

namespace Walk

structure Sources where
  plain : List Ignore.Rule
  git : List Ignore.Rule
  exclude : List Ignore.Rule
  /-- The directory is the top of a repository. -/
  isRepository : Bool

def plainFile : Place := [".ignore"]
def gitFile : Place := [".gitignore"]
def excludeFile : Place := [".git", "info", "exclude"]
def repositoryMark : Place := [".git"]

def contentAt (t : FileTree) (place : Place) : List UInt8 :=
  match t.node? place with
  | some (.file content) => content.toList
  | _ => []

/-- The ignore files of a directory; `inside` says that it is not above the walk. Without
`useGit`, `.gitignore` files say nothing, nor does the mark of a repository above the walk. -/
def sourcesAt (t : FileTree) (useGit inside : Bool) (place : Place) : Sources where
  plain := Ignore.rulesOf (contentAt t (place ++ plainFile))
  git := if useGit then Ignore.rulesOf (contentAt t (place ++ gitFile)) else []
  exclude := Ignore.rulesOf (contentAt t (place ++ excludeFile))
  isRepository := (useGit || inside) && (t.node? (place ++ repositoryMark)).isSome

/-- The elements up to the first one with a property, and that one. -/
def takeThrough {α : Type} (holds : α → Bool) : List α → List α
  | [] => []
  | a :: r => if holds a then [a] else a :: takeThrough holds r

/-- What the ignore files of the directories around a path say about it. The directories come
nearest first, each with the path as seen from it. -/
def verdict? (around : List (Sources × String)) (isDirectory : Bool) : Option Ignore.Verdict :=
  let ask (rules : Sources → List Ignore.Rule) (dirs : List (Sources × String)) :=
    dirs.findSome? fun (s, path) => Ignore.verdictOf? (rules s) path isDirectory
  let inRepository :=
    if around.any (·.1.isRepository) then takeThrough (·.1.isRepository) around else []
  (ask (·.plain) around).or ((ask (·.git) inRepository).or (ask (·.exclude) inRepository))

/-- The directories above a place, nearest first, each with the path from there. -/
def surroundings (t : FileTree) (useGit : Bool) (root place : Place) : List (Sources × String) :=
  (FileTree.lineage place.dropLast).reverse.map fun dir =>
    (sourcesAt t useGit (root.length ≤ dir.length) dir,
      "/".intercalate (place.drop dir.length))

def isIgnored (t : FileTree) (useGit : Bool) (root place : Place) : Bool :=
  verdict? (surroundings t useGit root place) (t.isDirectory place) == some .ignored

/-- The places from the root, which is left out, down to a place. -/
def stepsBelow (root place : Place) : List Place :=
  (FileTree.lineage place).drop (root.length + 1)

/-- Whether a walk from a directory comes to a place below it. -/
def reaches (t : FileTree) (useGit : Bool) (root place : Place) : Bool :=
  root.isPrefixOf place && (stepsBelow root place).all fun p => !isIgnored t useGit root p

def badLinesAt (t : FileTree) (useGit : Bool) (place : Place) : List (Path × Ignore.BadLine) :=
  let files := [plainFile] ++ (if useGit then [gitFile] else []) ++ [excludeFile]
  files.flatMap fun file =>
    (Ignore.badLinesOf (contentAt t (place ++ file))).map fun bad =>
      (.mk ("/" ++ "/".intercalate (place ++ file)), bad)

/-- The lines of the ignore files above a place that are no rules, from the top down. -/
def badLinesAbove (t : FileTree) (useGit : Bool) (place : Place) : List (Path × Ignore.BadLine) :=
  (FileTree.lineage place).dropLast.flatMap (badLinesAt t useGit)

/-- The path of a place below the root, as the root is spelled. -/
def pathBelow (spelled : Path) (names : List String) : Path :=
  names.foldl (fun path name => path.join ⟨name⟩) spelled

def filesBelow (t : FileTree) (useGit : Bool) (root : Place) : List (List String) :=
  t.nodes.filterMap fun (place, node) =>
    match node with
    | .file _ => if reaches t useGit root place then some (place.drop root.length) else none
    | .directory => none

end Walk

/-- The files that a walk from an absolute path visits, in no particular order. A file is
visited as it is. -/
def FileTree.walk (t : FileTree) (useGit : Bool) (root : Path) : Except WalkError (List Path) :=
  match t.resolve [] root with
  | .error cause => .error (.unreachable root cause)
  | .ok place =>
    match t.node? place with
    | none => .error (.unreachable root .notFound)
    | some (.file _) => .ok [root]
    | some .directory =>
      let bad := Walk.badLinesAbove t useGit place
      if bad.isEmpty then .ok ((Walk.filesBelow t useGit place).map (Walk.pathBelow root))
      else .error (.badLines bad)

/-- The files of a machine, as an analysis comes to know them. -/
structure Disk where
  /-- The files that a walk from an absolute path visits, in no particular order. The flag says
  whether the ignore files of repositories count. -/
  walk : Bool → Path → Except WalkError (List Path)
  read : Path → Except ReadError String
  isFile : Path → Bool

def FileTree.disk (t : FileTree) : Disk where
  walk := t.walk
  read path := (t.readText [] path).mapError .os
  isFile := t.findsFile []

instance : Coe FileTree Disk := ⟨FileTree.disk⟩

end NamingLint

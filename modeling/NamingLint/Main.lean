import NamingLint.Command.Run
import NamingLint.OutlineGrammar

/-!
# The program

A snapshot of the files is taken, the command runs on it, and what it changed is written back.
-/
namespace NamingLint.Main

def placeOf (path : String) : Place :=
  (Path.mk path).components.filterMap fun c => match c with
    | .name n => some n
    | _ => none

def pathOf (place : Place) : String :=
  "/" ++ "/".intercalate place

/-- A snapshot and the directories that are in it as a whole. -/
structure Snapshot where
  files : FileTree := .empty
  whole : List Place := []

/-- Adds a file or a directory with all that is in it. -/
partial def addPath (s : Snapshot) (path : String) : IO Snapshot := do
  try
    let real ← IO.FS.realPath path
    let place := placeOf real.toString
    if ← real.isDir then
      if s.whole.contains place then return s
      let mut s := { files := s.files.makeDirectory place, whole := place :: s.whole }
      for entry in ← real.readDir do
        s ← addPath s entry.path.toString
      return s
    else
      return { s with files := s.files.makeFile place (← IO.FS.readBinFile real) }
  catch _ => return s

/-- Adds what a directory above the snapshot says about ignored files. -/
def addIgnoreFiles (s : Snapshot) (place : Place) : IO Snapshot :=
  [Walk.plainFile, Walk.gitFile, Walk.excludeFile].foldlM
    (fun s file => addPath s (pathOf (place ++ file))) s

def writeChanges (before after : FileTree) : IO Unit :=
  after.nodes.forM fun (place, node) => do
    match node, before.node? place with
    | .file content, some (.file old) =>
      if old.toList ≠ content.toList then IO.FS.writeBinFile (pathOf place) content
    | .file content, _ => IO.FS.writeBinFile (pathOf place) content
    | .directory, _ => pure ()

/-- The snapshot for a run: the current directory, the paths among the arguments, and the
settings of the user. -/
def takeSnapshot (current : String) (args : List String) (config home : Option String) :
    IO Snapshot := do
  let settings := config.toList ++ home.toList.map (· ++ "/.case-lint")
  let s ← ((current :: args) ++ settings).foldlM addPath {}
  (FileTree.lineage (placeOf current)).foldlM addIgnoreFiles s

def run (args : List String) : IO UInt32 := do
  let current := (← IO.FS.realPath (← IO.currentDir)).toString
  let config ← IO.getEnv "CASE_LINT_CONFIG_DIR"
  let home ← IO.getEnv "HOME"
  let files := (← takeSnapshot current args config home).files
  let environment : Command.Environment :=
    { files, current := placeOf current, configDirectory := config.map Path.mk
      home := home.map Path.mk, grammar := .ofOutlines files }
  let result := environment.run args
  IO.print result.output
  IO.eprint result.errorOutput
  writeChanges files result.files
  pure result.status.toUInt32

end NamingLint.Main

def main (args : List String) : IO UInt32 :=
  NamingLint.Main.run args

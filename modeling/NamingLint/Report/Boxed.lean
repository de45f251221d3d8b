import NamingLint.Event
import NamingLint.FileTree
import NamingLint.Report.Compact
import NamingLint.Text.Fill
import NamingLint.Text.Lines

/-!
# The report with excerpts

Each violation is shown in a box with the line it is on, the line before and the line after, and
a mark under the name.
-/
namespace NamingLint.Report

/-- The columns for running text beside its margin. -/
def boxWidth : Nat := 74

def blanks (n : Nat) : String := String.ofList (List.replicate n ' ')

def bar (n : Nat) : String := String.ofList (List.replicate n '─')

/-- The lines of a source text without their ends; nothing follows the last line end. -/
def sourceLines (source : List Char) : List (List Char) :=
  let pieces := source.splitOn '\n'
  let lines := if pieces.getLast? = some [] then pieces.dropLast else pieces
  lines.map Text.withoutReturn

/-- The message behind its mark, over as many lines as it needs. -/
def boxHeading (message : String) : String :=
  match Text.fill boxWidth message.toList with
  | [] => "  × \n"
  | first :: r =>
    "  × " ++ String.ofList first ++ "\n" ++
      String.join (r.map fun line => "  │ " ++ String.ofList line ++ "\n")

/-- A number at the right end of a field. -/
def padNumber (width n : Nat) : String :=
  blanks (width - (toString n).length) ++ toString n

def boxLine (width : Nat) (number : Nat) (line : List Char) : String :=
  s!" {padNumber width number} │ {String.ofList (Text.expandTabs 0 line)}\n"

/-- A line of the box that shows no line of the source. -/
def boxNote (width : Nat) (text : String) : String :=
  s!" {blanks width} · {text}\n"

/-- The mark under a name from one column to another, and its label. -/
def boxMark (width start stop : Nat) (label : String) : String :=
  let middle := (start + stop) / 2
  boxNote width (blanks start ++ bar (middle - start) ++ "┬" ++ bar (stop - middle - 1)) ++
    boxNote width (blanks middle ++ "╰── " ++ label)

def boxExcerpt (file : String) (source : List Char) (mark : Mark) : String :=
  let row := Text.row mark.offset source
  let column := Text.column mark.offset source
  let lines := (sourceLines source).zipIdx
  let first := row - 1
  let shown := lines.filter fun (_, i) => first ≤ i && i ≤ row + 1
  let width := (toString ((shown.getLast?.map (·.2 + 1)).getD (row + 1))).length
  let line := (lines.find? (·.2 = row)).elim [] (·.1)
  let start := Text.displayWidth (Text.charsBefore column line)
  let stop := max (Text.displayWidth (Text.charsBefore (column + mark.length) line)) (start + 1)
  let rows := shown.map fun (text, i) =>
    boxLine width (i + 1) text ++ (if i = row then boxMark width start stop mark.text else "")
  s!"{blanks (width + 2)}╭─[{file}:{row + 1}:{column + 1}]\n" ++ String.join rows ++
    s!"{blanks (width + 2)}╰────\n"

def box (file : String) (source : List Char) (h : Highlight) : String :=
  h.code ++ "\n\n" ++ boxHeading h.message ++ boxExcerpt file source h.mark ++
    "  help: " ++ h.help ++ "\n\n"

/-- The boxes of one file. A file that can no longer be read is reported in compact lines. -/
def boxedFile (path : Path) (read : Path → Except ReadError String) (r : FileReport) :
    Logged String :=
  match read path with
  | .ok source =>
    pure (String.join (r.diagnostics.map fun d =>
      box r.file.text source.toList (d.violation.highlight d.message)))
  | .error e =>
    { value := String.join (r.diagnostics.map fun d => compactLine r.file d ++ "\n")
      events := [.warn s!"Cannot re-read {path.text} for display: {e.message}"] }

/-- Where the file of a report is read from. -/
def reportPath (root : Path) (rootIsFile : Bool) (r : FileReport) : Path :=
  if rootIsFile then root else root.join r.file

def boxed (root : Path) (rootIsFile : Bool) (read : Path → Except ReadError String)
    (f : Findings) : Logged String := do
  let boxes ← f.reports.mapM fun r => boxedFile (reportPath root rootIsFile r) read r
  let failures := f.failures.map fun failure => s!"{failure.file.text}: {failure.message}\n"
  pure (String.join boxes ++ String.join failures ++ summary f)

end NamingLint.Report

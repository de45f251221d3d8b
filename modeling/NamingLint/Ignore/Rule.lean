import NamingLint.Ignore.Pattern
import NamingLint.Text.Lines

/-!
# Ignore files

An ignore file is a list of rules, one a line. The last rule that matches a path decides whether
it is ignored or kept.
-/
namespace NamingLint.Ignore

inductive Verdict where
  | ignored
  /-- Named by a rule that takes it back. -/
  | kept
  deriving DecidableEq, Repr

structure Rule where
  pattern : List Token
  verdict : Verdict
  directoryOnly : Bool
  deriving Repr

/-- A line that is no rule, with its number. -/
structure BadLine where
  number : Nat
  text : String
  error : PatternError
  deriving DecidableEq, Repr

def BadLine.message (bad : BadLine) : String :=
  s!"line {bad.number}: error parsing glob '{bad.text}': {bad.error.message}"

/-- The parts of a line in front of and behind its pattern. -/
structure Shape where
  verdict : Verdict
  /-- The pattern starts at the directory of the file. -/
  anchored : Bool
  directoryOnly : Bool
  body : List Char

/-- Takes the mark that keeps files and the leading slash off a line. -/
def headOf (line : List Char) : Verdict × Bool × List Char :=
  match line with
  | '\\' :: '!' :: r => (.ignored, false, '!' :: r)
  | '\\' :: '#' :: r => (.ignored, false, '#' :: r)
  | '!' :: '/' :: r => (.kept, true, r)
  | '!' :: r => (.kept, false, r)
  | '/' :: r => (.ignored, true, r)
  | r => (.ignored, false, r)

def shapeOf (line : List Char) : Shape :=
  let (verdict, anchored, rest) := headOf line
  if rest.getLast? = some '/' then
    let body := rest.dropLast
    { verdict, anchored, directoryOnly := true,
      body := if body.getLast? = some '\\' then body.dropLast else body }
  else { verdict, anchored, directoryOnly := false, body := rest }

/-- The pattern that a line stands for. Without a slash it may match at any depth; one that ends
in `/**` matches only below the directory. -/
def fullPattern (shape : Shape) : List Char :=
  let body := shape.body
  let free := !shape.anchored && !body.contains '/'
  let placed := if free && body ≠ ['*', '*'] then '*' :: '*' :: '/' :: body else body
  if ['/', '*', '*'].isSuffixOf placed then placed ++ ['/', '*'] else placed

/-- What is left of a line to be read: nothing of a comment, and no blanks at its end unless the
last one is escaped. -/
def contentOf (line : List Char) : List Char :=
  if line.head? = some '#' then []
  else if ['\\', ' '].isSuffixOf line then line
  else Text.trimRight line

def parseLine (number : Nat) (line : List Char) : Except BadLine (Option Rule) :=
  let content := contentOf line
  if content.isEmpty then .ok none
  else
    let shape := shapeOf content
    match parsePattern (fullPattern shape) with
    | .ok pattern => .ok (some ⟨pattern, shape.verdict, shape.directoryOnly⟩)
    | .error error => .error ⟨number, String.ofList content, error⟩

/-- The lines of a file up to the first that is not UTF-8. -/
def readableLines (bytes : List UInt8) : List (List Char) :=
  let texts := (Text.byteLines bytes).map fun line => String.fromUTF8? ⟨line.toArray⟩
  (texts.takeWhile Option.isSome).filterMap fun text =>
    text.map fun t => Text.withoutReturn t.toList

/-- The lines of a file with their numbers; byte order marks in front of the first are left
out. -/
def numberedLines (bytes : List UInt8) : List (Nat × List Char) :=
  match readableLines bytes with
  | [] => []
  | first :: r =>
    (1, first.dropWhile (· = '\ufeff')) :: r.zipIdx.map fun (line, i) => (i + 2, line)

/-- The rules of a file. Lines that are no rules are left out. -/
def rulesOf (bytes : List UInt8) : List Rule :=
  (numberedLines bytes).filterMap fun (number, line) =>
    match parseLine number line with
    | .ok rule => rule
    | .error _ => none

def badLinesOf (bytes : List UInt8) : List BadLine :=
  (numberedLines bytes).filterMap fun (number, line) =>
    match parseLine number line with
    | .ok _ => none
    | .error bad => some bad

def Rule.admits (rule : Rule) (path : String) (isDirectory : Bool) : Bool :=
  (!rule.directoryOnly || isDirectory) && Ignore.admits rule.pattern path

def verdictOf? (rules : List Rule) (path : String) (isDirectory : Bool) : Option Verdict :=
  (rules.reverse.find? (·.admits path isDirectory)).map (·.verdict)

end NamingLint.Ignore

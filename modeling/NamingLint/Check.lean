import NamingLint.Declarations
import NamingLint.Dialect
import NamingLint.Syntax.Fault

/-!
# Checking one file

A file is checked only if it parses cleanly. Then every declared name is judged, in the order
of the declarations.
-/
namespace NamingLint

inductive ParseError where
  | syntaxError (file : String) (line column : Nat)
  /-- The parser gave no tree. -/
  | unparsable (file : String)
  /-- The grammar could not be loaded. -/
  | grammar (dialect : Dialect) (reason : String)
  deriving DecidableEq, Repr

namespace ParseError

def message : ParseError → String
  | syntaxError file line column => s!"{file}:{line}:{column}: syntax error"
  | unparsable file => s!"{file}: parser produced no syntax tree"
  | grammar dialect reason => s!"failed to load {dialect.name} grammar: {reason}"

def code : ParseError → String
  | syntaxError .. => "case_lint::parse"
  | unparsable _ => "case_lint::parse"
  | grammar .. => "case_lint::grammar"

def help? : ParseError → Option String
  | syntaxError .. => some "naming conventions are only checked in files that parse cleanly"
  | unparsable _ => none
  | grammar .. => none

end ParseError

/-- What checks documents: the languages that it takes, and for a text under a file name what it
finds and the events on the way. -/
structure Checker where
  languages : List String
  check (text file : String) (keys : RuleKeys) : Except ParseError (List Violation)
  events (text file : String) (keys : RuleKeys) : List Event

/-- Why a parser gives no tree. -/
inductive GrammarFault where
  | unavailable (reason : String)
  | noTree
  deriving DecidableEq, Repr

/-- A parser for each dialect. -/
structure Grammar where
  parse : Dialect → String → Except GrammarFault Syntax.Tree

/-- The error of a tree that is not clean, at its first fault. -/
def syntaxError? (file : String) (text : List Char) (root : Syntax.Tree) : Option ParseError :=
  (Syntax.faultOf? root).map fun fault =>
    .syntaxError file (Text.row fault.span.start text + 1) (Text.column fault.span.start text + 1)

namespace Grammar

/-- The tree of a text that parses cleanly in the dialect of its file name. -/
def parseClean (g : Grammar) (text file : String) : Except ParseError Syntax.Tree :=
  let dialect := Dialect.ofFileName file
  match g.parse dialect text with
  | .error (.unavailable reason) => .error (.grammar dialect reason)
  | .error .noTree => .error (.unparsable file)
  | .ok root =>
    match syntaxError? file text.toList root with
    | some error => .error error
    | none => .ok root

def bindings (g : Grammar) (text file : String) : Except ParseError (List Binding) :=
  (g.parseClean text file).map fun root => Declarations.collect root text.toList

/-- The violations of a file, in the order of its declarations. -/
def check (g : Grammar) (text file : String) (keys : RuleKeys) :
    Except ParseError (List Violation) :=
  (g.bindings text file).map fun found => found.filterMap (·.check keys)

/-- The events of a check; a file that does not parse gives none. -/
def checkEvents (g : Grammar) (text file : String) (keys : RuleKeys) : List Event :=
  match g.parseClean text file, g.check text file keys with
  | .ok root, .ok violations =>
    Declarations.events root text.toList ++
      [.debug s!"{file}: {violations.length} naming violation(s)"]
  | _, _ => []

def checker (g : Grammar) : Checker where
  languages := Language.supported
  check := g.check
  events := g.checkEvents

end Grammar

instance : Coe Grammar Checker := ⟨Grammar.checker⟩

end NamingLint

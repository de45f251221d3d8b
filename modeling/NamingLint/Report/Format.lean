import NamingLint.Data.Json
import NamingLint.Encoding
import NamingLint.Report.Boxed

/-!
# Report formats
-/
namespace NamingLint.Report

inductive Format where
  | text
  | json
  | compact
  | boxed
  deriving DecidableEq, Repr

namespace Format

def word : Format → String
  | text => "text"
  | json => "json"
  | compact => "compact"
  | boxed => "pretty"

def all : List Format := [text, json, compact, boxed]

def ofWord? (word : String) : Option Format :=
  all.find? (·.word == word)

def render (format : Format) (root : Path) (rootIsFile : Bool)
    (read : Path → Except ReadError String) (f : Findings) : Logged String :=
  match format with
  | text => pure (Report.text f)
  | json => pure (Data.Json.render 0 f.toData ++ "\n")
  | compact => pure (Report.compact f)
  | boxed => Report.boxed root rootIsFile read f

end Format
end NamingLint.Report

/-!
# Complaints

What a command that fails says: what it could not do, and the causes behind that, outermost
first.
-/
namespace NamingLint.Command

structure Complaint where
  context : String
  causes : List String := []
  deriving DecidableEq, Repr

namespace Complaint

/-- A text whose further lines are indented. -/
def indented (indent : String) (text : String) : String :=
  ("\n" ++ indent).intercalate (text.splitOn "\n")

/-- Causes are numbered unless there is only one. -/
def causeLines : List String → List String
  | [cause] => ["    " ++ indented "    " cause]
  | causes => causes.zipIdx.map fun (cause, i) =>
    s!"    {i}: " ++ indented "       " cause

def text (c : Complaint) : String :=
  let head := s!"Error: {c.context}"
  if c.causes.isEmpty then head ++ "\n"
  else "\n".intercalate ([head, "", "Caused by:"] ++ causeLines c.causes) ++ "\n"

end Complaint
end NamingLint.Command

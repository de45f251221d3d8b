import NamingLint.Check
import NamingLint.Command.Complaint
import NamingLint.Event
import NamingLint.Walk

/-!
# What commands run in, and what they leave
-/
namespace NamingLint.Command

structure Environment where
  files : FileTree
  /-- The files as an analysis comes to know them. -/
  disk : Disk := files.disk
  current : Place
  /-- The directory of the global settings, if one is set. -/
  configDirectory : Option Path := none
  home : Option Path := none
  grammar : Grammar

def Environment.currentPath (e : Environment) : Path :=
  ⟨"/" ++ "/".intercalate e.current⟩

structure Response where
  status : Nat
  /-- The standard output. -/
  output : String := ""
  events : List Event := []
  complaint : Option Complaint := none
  /-- The files after the command. -/
  files : FileTree

namespace Response

/-- The events that are shown: without the details, unless they are asked for. -/
def shownEvents (verbose : Bool) (events : List Event) : List Event :=
  if verbose then events else events.filter (·.level ≠ .debug)

/-- The standard error: events, then the complaint. -/
def errorOutput (r : Response) (verbose : Bool) : String :=
  String.join ((shownEvents verbose r.events).map fun e => e.line ++ "\n") ++
    (r.complaint.map Complaint.text).getD ""

end Response
end NamingLint.Command

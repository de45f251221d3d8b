import NamingLint.Command.Check
import NamingLint.Command.Init
import NamingLint.Command.ListRules

/-!
# Running a command line
-/
namespace NamingLint.Command

def versionText : String := "case-lint 0.1.0\n"

def helpLines : List String :=
  ["Naming-convention linter for TypeScript constants and functions",
   "",
   "Usage: case-lint [OPTIONS] <COMMAND>",
   "",
   "Commands:",
   "  check       Check a file or every TypeScript file under a directory",
   "  list-rules  List available naming rules",
   "  init        Initialize configuration file",
   "  help        Print this message or the help of the given subcommand(s)",
   "",
   "Options:",
   "  -v, --verbose          Enable verbose output",
   "  -c, --config <CONFIG>  Path to configuration file",
   "  -h, --help             Print help",
   "  -V, --version          Print version"]

def helpText : String :=
  String.join (helpLines.map (· ++ "\n"))

def usageStatus : Nat := 2

def Environment.perform (e : Environment) (invocation : Invocation) : Response :=
  match invocation.task with
  | .check path? format patterns o => e.check invocation.config path? format patterns o
  | .listRules => { status := 0, output := ruleTable, files := e.files }
  | .init force => e.init force

/-- What a run leaves: the status, the two outputs and the files. -/
structure Result where
  status : Nat
  output : String
  errorOutput : String
  files : FileTree

def Environment.run (e : Environment) (args : List String) : Result :=
  match parseArguments args with
  | .error (.usage error) =>
    ⟨usageStatus, "", s!"error: {error.message}\n\nFor more information, try '--help'.\n", e.files⟩
  | .error .version => ⟨0, versionText, "", e.files⟩
  | .error .help => ⟨0, helpText, "", e.files⟩
  | .ok invocation =>
    let r := e.perform invocation
    ⟨r.status, r.output, r.errorOutput invocation.verbose, r.files⟩

end NamingLint.Command

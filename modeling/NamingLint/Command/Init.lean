import NamingLint.Command.Environment

/-!
# The command `init`

Writes a settings file with the standard settings into the current directory.
-/
namespace NamingLint.Command

/-- The lines of the settings file that a project starts with. -/
def starterLines : List String :=
  ["# case-lint configuration",
   "",
   "[naming]",
   "# Rule for constants bound to string, number or boolean literals.",
   "# One of: UPPER_SNAKE_CASE, camelCase, PascalCase",
   "constant_case = \"UPPER_SNAKE_CASE\"",
   "",
   "# Rule for function declarations and constants bound to functions.",
   "function_case = \"camelCase\"",
   "",
   "# Error | Warning | Information | Hint",
   "severity = \"Warning\"",
   "",
   "# Message language: en | ja",
   "locale = \"en\"",
   "",
   "[analyzer]",
   "# Root directory to analyze (default: current directory)",
   "# root = \"./src\"",
   "",
   "# Glob patterns to exclude from analysis",
   "exclude = [",
   "    \"**/node_modules/**\",",
   "    \"**/dist/**\",",
   "]",
   "",
   "# Respect .gitignore files",
   "respect_gitignore = true"]

def starterSettings : String :=
  String.join (starterLines.map (· ++ "\n"))

def starterPath : Path := ⟨"case-lint.toml"⟩

def initMessage : String :=
  s!"Created {starterPath.text}\n\nNext steps:\n" ++
    s!"  1. Edit {starterPath.text} to choose naming rules\n  2. Run: case-lint check\n"

/-- Writes the settings file; one that is there is overwritten only by force. -/
def Environment.init (e : Environment) (force : Bool) : Response :=
  if e.files.hasPath e.current starterPath && !force then
    { status := 1, files := e.files
      complaint := some
        { context := s!"Configuration file already exists at {starterPath.text}. " ++
            "Use --force to overwrite." } }
  else
    match e.files.writeText e.current starterPath starterSettings with
    | .ok files => { status := 0, output := initMessage, files }
    | .error cause =>
      { status := 1, files := e.files
        complaint := some
          { context := s!"Failed to write {starterPath.text}", causes := [cause.message] } }

end NamingLint.Command

import NamingLint.Rule

/-!
# The command `list-rules`
-/
namespace NamingLint.Command

def padRight (width : Nat) (text : String) : String :=
  text ++ String.ofList (List.replicate (width - text.length) ' ')

def ruleRow (key pattern sample : String) : String :=
  s!"{padRight 18 key} {padRight 34 pattern} {sample}\n"

def ruleTable : String :=
  "Available rules:\n\n" ++ ruleRow "Key" "Pattern" "Example" ++
    String.ofList (List.replicate 70 '-') ++ "\n" ++
    String.join (Rule.all.map fun r => ruleRow r.key r.pattern r.sample) ++
    "\nDefaults:\n" ++
    s!"  constants  - {Rule.upperSnake.key}\n  functions  - {Rule.camel.key}\n" ++
    "\nOverride per run, e.g.:\n" ++
    "  case-lint check --constant-case PascalCase --function-case camelCase\n"

end NamingLint.Command

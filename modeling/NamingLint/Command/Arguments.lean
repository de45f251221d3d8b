import NamingLint.Report.Format

/-!
# Command-line arguments

Arguments are taken one by one. Before the command only the global options are known; behind it,
those of the command too. A lone `--` ends the options.
-/
namespace NamingLint.Command

structure Overrides where
  constantCase : Option String := none
  functionCase : Option String := none
  severity : Option Severity := none
  locale : Option Locale := none
  deriving DecidableEq, Repr

inductive Verb where
  | check
  | listRules
  | init
  deriving DecidableEq, Repr

namespace Verb

def word : Verb → String
  | check => "check"
  | listRules => "list-rules"
  | init => "init"

def all : List Verb := [check, listRules, init]

def ofWord? (word : String) : Option Verb :=
  all.find? (·.word == word)

end Verb

inductive UsageError where
  | unknownOption (arg : String)
  | unknownCommand (arg : String)
  | missingCommand
  | missingValue (option : String)
  | unwantedValue (option : String)
  | repeatedOption (option : String)
  | badValue (option value : String)
  | unexpectedArgument (arg : String)
  deriving DecidableEq, Repr

def UsageError.message : UsageError → String
  | unknownOption arg => s!"unexpected argument '{arg}' found"
  | unknownCommand arg => s!"unrecognized subcommand '{arg}'"
  | missingCommand => "a subcommand is required"
  | missingValue option => s!"a value is required for '{option}' but none was supplied"
  | unwantedValue option => s!"unexpected value for '{option}'"
  | repeatedOption option => s!"the argument '{option}' cannot be used multiple times"
  | badValue option value => s!"invalid value '{value}' for '{option}'"
  | unexpectedArgument arg => s!"unexpected argument '{arg}' found"

/-- Why the arguments are not read to their end. -/
inductive Halt where
  | usage (error : UsageError)
  | version
  | help
  deriving DecidableEq, Repr

inductive Switch where
  | verbose
  | config
  | version
  | help
  | format
  | exclude
  | constantCase
  | functionCase
  | severity
  | locale
  | force
  deriving DecidableEq, Repr

namespace Switch

def all : List Switch :=
  [verbose, config, version, help, format, exclude, constantCase, functionCase, severity, locale,
   force]

def long : Switch → String
  | verbose => "verbose"
  | config => "config"
  | version => "version"
  | help => "help"
  | format => "format"
  | exclude => "exclude"
  | constantCase => "constant-case"
  | functionCase => "function-case"
  | severity => "severity"
  | locale => "locale"
  | force => "force"

def short? : Switch → Option Char
  | verbose => some 'v'
  | config => some 'c'
  | version => some 'V'
  | help => some 'h'
  | format => some 'f'
  | exclude => some 'e'
  | _ => none

def takesValue : Switch → Bool
  | verbose => false
  | version => false
  | help => false
  | force => false
  | _ => true

/-- Whether an option is known behind a command, or before any. -/
def isKnown (verb? : Option Verb) : Switch → Bool
  | verbose => true
  | config => true
  | help => true
  | version => verb?.isNone
  | force => verb? == some .init
  | _ => verb? == some .check

def name (option : Switch) : String := "--" ++ option.long

end Switch

/-- What is given on one side of the command. -/
structure Given where
  verbose : Bool := false
  config : Option Path := none
  format : Option Report.Format := none
  exclude : List String := []
  overrides : Overrides := {}
  force : Bool := false
  path : Option Path := none
  deriving DecidableEq, Repr

def severityWords : List (String × Severity) :=
  [("error", .error), ("warning", .warning), ("information", .information),
   ("info", .information), ("hint", .hint)]

namespace Given

/-- The value of an option that may be given once. -/
def once {α : Type} (option : Switch) (old : Option α) (value : String)
    (read : String → Option α) : Except Halt (Option α) :=
  if old.isSome then .error (.usage (.repeatedOption option.name))
  else
    match read value with
    | some a => .ok (some a)
    | none => .error (.usage (.badValue option.name value))

/-- A path must not be empty. -/
def readPath (value : String) : Option Path :=
  if value.isEmpty then none else some ⟨value⟩

def addFlag (g : Given) (option : Switch) : Except Halt Given :=
  let refuse : Except Halt Given := .error (.usage (.repeatedOption option.name))
  match option with
  | .verbose => if g.verbose then refuse else .ok { g with verbose := true }
  | .force => if g.force then refuse else .ok { g with force := true }
  | .version => .error .version
  | .help => .error .help
  | _ => .error (.usage (.missingValue option.name))

def addValue (g : Given) (option : Switch) (value : String) : Except Halt Given := do
  let o := g.overrides
  match option with
  | .config => pure { g with config := ← once option g.config value readPath }
  | .format => pure { g with format := ← once option g.format value Report.Format.ofWord? }
  | .exclude => pure { g with exclude := g.exclude ++ [value] }
  | .constantCase =>
    pure { g with overrides := { o with constantCase := ← once option o.constantCase value some } }
  | .functionCase =>
    pure { g with overrides := { o with functionCase := ← once option o.functionCase value some } }
  | .severity =>
    pure { g with overrides := { o with
      severity := ← once option o.severity value fun w => severityWords.lookup w } }
  | .locale =>
    pure { g with overrides := { o with locale := ← once option o.locale value Locale.ofCode? } }
  | _ => .error (.usage (.unwantedValue option.name))

end Given

structure Reading where
  verb? : Option Verb := none
  /-- What was given before the command. -/
  outer : Given := {}
  given : Given := {}
  /-- An option that still waits for its value. -/
  pending : Option Switch := none
  /-- The options have ended. -/
  ended : Bool := false
  /-- Help is asked for; the words so far name commands. -/
  helpWords : Option (List String) := none

namespace Reading

def refuse {α : Type} (error : UsageError) : Except Halt α := .error (.usage error)

def flag (r : Reading) (option : Switch) : Except Halt Reading := do
  pure { r with given := ← r.given.addFlag option }

def value (r : Reading) (option : Switch) (value : String) : Except Halt Reading := do
  pure { r with given := ← r.given.addValue option value, pending := none }

/-- An option by its long name, with the value attached to it. -/
def long (r : Reading) (arg : String) (name : List Char) (attached : Option (List Char)) :
    Except Halt Reading :=
  match Switch.all.find? fun o => o.isKnown r.verb? && o.long.toList == name with
  | none => refuse (.unknownOption arg)
  | some option =>
    match option.takesValue, attached with
    | true, some v => r.value option (String.ofList v)
    | true, none => .ok { r with pending := some option }
    | false, none => r.flag option
    | false, some _ => refuse (.unwantedValue option.name)

/-- Options by their short names, of which the last may have its value attached. -/
def shorts (arg : String) (r : Reading) : List Char → Except Halt Reading
  | [] => .ok r
  | c :: rest =>
    match Switch.all.find? fun o => o.isKnown r.verb? && o.short? == some c with
    | none => refuse (.unknownOption arg)
    | some option =>
      if option.takesValue then
        match rest with
        | [] => .ok { r with pending := some option }
        | '=' :: v => r.value option (String.ofList v)
        | v => r.value option (String.ofList v)
      else do shorts arg (← r.flag option) rest

/-- An argument that is no option. Only `check` takes one. -/
def positional (r : Reading) (arg : String) : Except Halt Reading :=
  match r.verb? with
  | none => refuse (.unknownCommand arg)
  | some .check =>
    if r.given.path.isSome then refuse (.unexpectedArgument arg)
    else
      match Given.readPath arg with
      | some path => .ok { r with given := { r.given with path := some path } }
      | none => refuse (.missingValue "[PATH]")
  | some _ => refuse (.unexpectedArgument arg)

/-- The command that an argument names, where one is expected. -/
def command (r : Reading) (arg : String) : Option Reading :=
  if r.verb?.isSome || r.pending.isSome || r.ended then none
  else if arg = "help" then some { r with helpWords := some [] }
  else (Verb.ofWord? arg).map fun verb =>
    { r with verb? := some verb, outer := r.given, given := {} }

/-- An option or the mark that ends the options; a waiting option gets no value then. -/
def option (r : Reading) (arg : String) (chars : List Char) : Except Halt Reading :=
  match r.pending with
  | some waiting => refuse (.missingValue waiting.name)
  | none =>
    match chars with
    | ['-', '-'] => .ok { r with ended := true }
    | '-' :: '-' :: rest =>
      let name := rest.takeWhile (· ≠ '=')
      r.long arg name (if rest.contains '=' then some (rest.drop (name.length + 1)) else none)
    | _ => r.shorts arg chars.tail

def looksLikeOption : List Char → Bool
  | '-' :: _ :: _ => true
  | _ => false

def add (r : Reading) (arg : String) : Except Halt Reading :=
  match r.helpWords with
  | some words => .ok { r with helpWords := some (words ++ [arg]) }
  | none =>
    if r.ended then r.positional arg
    else
      match r.command arg with
      | some next => .ok next
      | none =>
        if looksLikeOption arg.toList then r.option arg arg.toList
        else
          match r.pending with
          | some waiting => r.value waiting arg
          | none => r.positional arg

end Reading

inductive Task where
  | check (path : Option Path) (format : Report.Format) (exclude : List String)
      (overrides : Overrides)
  | listRules
  | init (force : Bool)
  deriving DecidableEq, Repr

structure Invocation where
  verbose : Bool
  config : Option Path
  task : Task
  deriving DecidableEq, Repr

/-- Whether help is asked for the program or one of its commands. -/
def isHelpTopic (words : List String) : Bool :=
  match words with
  | [] => true
  | [word] => word = "help" || (Verb.ofWord? word).isSome
  | _ => false

def Reading.finish (r : Reading) : Except Halt Invocation :=
  match r.helpWords, r.pending, r.verb? with
  | some words, _, _ =>
    if isHelpTopic words then .error .help else refuse (.unknownCommand (" ".intercalate words))
  | none, some waiting, _ => refuse (.missingValue waiting.name)
  | none, none, none => refuse .missingCommand
  | none, none, some verb =>
    let g := r.given
    .ok
      { verbose := r.outer.verbose || g.verbose
        config := g.config.or r.outer.config
        task := match verb with
          | .check => .check g.path (g.format.getD .text) g.exclude g.overrides
          | .listRules => .listRules
          | .init => .init g.force }

def parseArguments (args : List String) : Except Halt Invocation := do
  (← args.foldlM Reading.add {}).finish

end NamingLint.Command

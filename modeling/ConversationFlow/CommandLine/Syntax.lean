import ConversationFlow.Text.Basic

/-!
# The language of the command line

The program has three commands. A command has operands and options; some options belong
to the program as a whole and may stand before the command or after it. The help texts are
laid out from the tables that the reader uses, so that they name what is accepted.
-/

namespace ConversationFlow.CommandLine

/-- The name that the program is started by. -/
def programName : String := "cf"

def programVersion : String := "0.1.0"

/-- A command. -/
inductive Verb where
  | validate
  | render
  | inspect
deriving DecidableEq

namespace Verb

def all : List Verb := [.validate, .render, .inspect]

def name : Verb → String
  | .validate => "validate"
  | .render => "render"
  | .inspect => "show"

def about : Verb → String
  | .validate => "Parse and compile workflows, checking REQUIRE entries"
  | .render => "Render a workflow to pipeline JSON"
  | .inspect => "List the compiled steps of a workflow"

/-- Whether the command takes several files. -/
def takesMany (v : Verb) : Bool := v == .validate

def ofName? (t : Text) : Option Verb := all.find? fun v => v.name.toList = t

end Verb

/-- An option. -/
inductive Switch where
  | config
  | plan
  | cycles
  | logLevel
  | assign
  | cwd
  | output
  | help
  | version
deriving DecidableEq

/-- How an option is written: its long name, its letter and the name of its value. -/
structure SwitchForm where
  long : String
  letter : Option Char
  value : Option String
  about : String

namespace Switch

def form : Switch → SwitchForm
  | .config => ⟨"config", some 'c', some "CONFIG", "Path to config file"⟩
  | .plan => ⟨"plan", none, none, "Paths and counts only, no file contents or resolved prompts"⟩
  | .cycles =>
    ⟨"cycles", none, some "CYCLES", "Number of cycles to render (default: MAX-CYCLES)"⟩
  | .logLevel =>
    ⟨"log-level", some 'l', some "LOG_LEVEL", "Log level (TRACE, DEBUG, INFO, WARN, ERROR)"⟩
  | .assign => ⟨"var", none, some "KEY=VALUE", "Template variable, repeatable"⟩
  | .cwd => ⟨"cwd", none, some "CWD", "Working directory (default: current)"⟩
  | .output => ⟨"output", some 'o', some "OUTPUT", "Write to a file instead of stdout"⟩
  | .help => ⟨"help", some 'h', none, "Print help"⟩
  | .version => ⟨"version", some 'V', none, "Print version"⟩

def takesValue (s : Switch) : Bool := s.form.value.isSome

/-- The option under its long name, as messages and help texts show it. -/
def shown (s : Switch) : String :=
  "--" ++ s.form.long ++ (match s.form.value with | some v => " <" ++ v ++ ">" | none => "")

/-- The option with its letter, or with blanks in its place. -/
def entry (s : Switch) : String :=
  (match s.form.letter with | some c => String.ofList ['-', c, ',', ' '] | none => "    ") ++ s.shown

end Switch

/-- What the words of a line are read for: the program, one of its commands, or the command
that explains the others. -/
inductive Scope where
  | program
  | command (v : Verb)
  | help
deriving DecidableEq

namespace Scope

/-- The options of a scope, in the order in which its help text lists them. -/
def switches : Scope → List Switch
  | .program => [.config, .logLevel, .help, .version]
  | .command .render =>
    [.config, .plan, .cycles, .logLevel, .assign, .cwd, .output, .help]
  | .command _ => [.config, .logLevel, .help]
  | .help => []

/-- The option of a long name. -/
def ofLong? (s : Scope) (t : Text) : Option Switch :=
  s.switches.find? fun o => o.form.long.toList = t

/-- The option of a letter. -/
def ofLetter? (s : Scope) (c : Char) : Option Switch :=
  s.switches.find? fun o => o.form.letter = some c

end Scope

/-- The operand of a command, as messages show it. -/
def Verb.operand (v : Verb) : String := if v.takesMany then "<FILE>..." else "<FILE>"

namespace Scope

private def helpAbout : String := "Print this message or the help of the given subcommand(s)"

private def about : Scope → String
  | .program => "Validate, inspect and render ConversationFile workflows"
  | .command v => v.about
  | .help => helpAbout

private def usage : Scope → String
  | .program => "[OPTIONS] <COMMAND>"
  | .command v => v.name ++ " [OPTIONS] " ++ v.operand
  | .help => "help [COMMAND]..."

private def commands : Scope → List (String × String)
  | .program => (Verb.all.map fun v => (v.name, v.about)) ++ [("help", helpAbout)]
  | _ => []

private def operands : Scope → List (String × String)
  | .program => []
  | .command v => [(v.operand, if v.takesMany then "Workflow files" else "Workflow file")]
  | .help => [("[COMMAND]...", "Print help for the subcommand(s)")]

/-- A titled table of two columns; nothing for a table without rows. -/
private def table (title : String) (rows : List (String × String)) : Text :=
  let width := (rows.map (·.1.length)).foldl max 0
  let row (r : String × String) : Text :=
    "  ".toList ++ r.1.toList ++ List.replicate (width - r.1.length + 2) ' ' ++ r.2.toList ++ ['\n']
  if rows.isEmpty then [] else ['\n'] ++ title.toList ++ [':', '\n'] ++ rows.flatMap row

/-- The help text of a scope. -/
def helpText (s : Scope) : Text :=
  s.about.toList ++ "\n\nUsage: ".toList ++ programName.toList ++ [' '] ++ s.usage.toList ++ ['\n']
    ++ table "Commands" s.commands
    ++ table "Arguments" s.operands
    ++ table "Options" (s.switches.map fun o => (o.entry, o.form.about))

end Scope

end ConversationFlow.CommandLine

import ConversationFlow.Shell.Builtin.Control
import ConversationFlow.Shell.Builtin.Directory
import ConversationFlow.Shell.Builtin.Jobs
import ConversationFlow.Shell.Builtin.Limits
import ConversationFlow.Shell.Builtin.Names
import ConversationFlow.Shell.Builtin.Variables
import ConversationFlow.Shell.Condition
import ConversationFlow.Shell.Printing

/-!
# Commands of the shell

The commands of the shell by their names, other than those that run a script or a program.
-/

namespace ConversationFlow.Shell.Builtin

/-- Prints arguments by a format. -/
private def printf (arguments : List Text) : Action Nat := do
  let p := Printing.printf arguments
  (p.on .error).forM Action.warn
  Action.print (p.on .output).flatten
  if p.status = 2 then
    Action.setStatus 2
    Action.stop .failed
  return p.status

private def test (arguments : List Text) : Action Nat := do
  match Condition.evaluate (← get).world.files arguments with
  | .ok holds => return if holds then 0 else 1
  | .error message => Action.fail message

private def bracketed (arguments : List Text) : Action Nat := do
  if arguments.getLast? ≠ some [']'] then Action.fail "missing ]"
  test arguments.dropLast

/-- What a command of the shell does with its arguments. -/
def run? (name : Text) : Option (List Text → Action Nat) :=
  match String.ofList name with
  | ":" | "true" => some fun _ => return 0
  | "false" => some fun _ => return 1
  | "[" => some bracketed
  | "alias" => some aliases
  | "bg" | "fg" => some bring
  | "break" => some «break»
  | "cd" | "chdir" => some changeDirectory
  | "continue" => some «continue»
  | "echo" => some fun arguments => do
    Action.print (Printing.echo arguments)
    return 0
  | "exit" => some exit
  | "export" => some «export»
  | "getopts" => some getOptions
  | "hash" => some hash
  | "jobs" => some jobs
  | "kill" => some kill
  | "local" => some «local»
  | "printf" => some printf
  | "pwd" => some printDirectory
  | "read" => some read
  | "readonly" => some readOnly
  | "return" => some «return»
  | "set" => some set
  | "shift" => some shift
  | "test" => some test
  | "times" => some fun _ => do
    Action.print ("0m0.000000s 0m0.000000s\n0m0.000000s 0m0.000000s\n" : Text)
    return 0
  | "trap" => some trap
  | "type" => some type
  | "ulimit" => some limits
  | "umask" => some fileMask
  | "unalias" => some unalias
  | "unset" => some unset
  | "wait" => some wait
  | _ => none

end ConversationFlow.Shell.Builtin

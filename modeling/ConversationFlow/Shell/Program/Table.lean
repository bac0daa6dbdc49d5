import ConversationFlow.Shell.Printing
import ConversationFlow.Shell.Program.Lines
import ConversationFlow.Shell.Program.Files
import ConversationFlow.Shell.Program.Listing
import ConversationFlow.Shell.Program.Pause
import ConversationFlow.Shell.Program.Proposition
import ConversationFlow.Shell.Program.Sequence

/-!
# Programs by name

The programs that do something of their own. Those that start others are not among them.
-/

namespace ConversationFlow.Shell.Programs

private def echo (c : Call) : Effect := ({} : Effect).print (Printing.echoProgram c.arguments)

private def printf (c : Call) : Effect :=
  let p := Printing.printfProgram c.name c.arguments
  let e := p.parts.foldl (fun (e : Effect) part =>
    match part.1 with
    | .output => e.print part.2
    | .error => e.complain 1 c.name part.2) {}
  { e with status := p.status }

private def judged (count : Nat) (c : Call) : Effect :=
  match Proposition.judge c.files count c.arguments with
  | .ok holds => { status := if holds then 0 else 1 }
  | .error message => ({} : Effect).complain 2 c.name message

private def test (c : Call) : Effect := judged c.arguments.length c

private def bracketed (c : Call) : Effect :=
  if c.arguments.getLast? = some [']'] then judged (c.arguments.length - 1) c
  else ({} : Effect).complain 2 c.name "missing ']'"

private def printDirectory (c : Call) : Effect :=
  let table : OptionTable :=
    { letters := [('L', .never), ('P', .never)]
      names := [("logical", .never, 'L'), ("physical", .never, 'P')] }
  match table.read c.arguments with
  | .error message => .misuse 1 c.name message
  | .ok parsed =>
    let e := if parsed.operands.isEmpty then {}
      else ({} : Effect).complain 0 c.name "ignoring non-option arguments"
    e.print (octets c.files.cwd.path.text ++ ['\n'])

/-- What a program does. -/
def named? (name : Text) : Option (Call → Effect) :=
  match String.ofList name with
  | "[" => some bracketed
  | "cat" => some Concatenation.run
  | "echo" => some echo
  | "false" => some fun _ => { status := 1 }
  | "head" => some Lines.head
  | "ls" => some Listing.run
  | "mkdir" => some Files.makeDirectory
  | "printf" => some printf
  | "pwd" => some printDirectory
  | "rm" => some Files.remove
  | "seq" => some Sequence.run
  | "sleep" => some Pause.run
  | "tail" => some Lines.tail
  | "test" => some test
  | "touch" => some Files.touch
  | "true" => some fun _ => {}
  | "wc" => some Lines.count
  | _ => none

end ConversationFlow.Shell.Programs

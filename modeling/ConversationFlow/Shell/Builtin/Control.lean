import ConversationFlow.Shell.Builtin.Options

/-!
# Commands on the flow of scripts

The commands of the shell that leave loops, functions and the shell itself.
-/

namespace ConversationFlow.Shell.Builtin

private def count (arguments : List Text) : Action Nat := do
  match arguments with
  | [] => return 1
  | a :: _ =>
    let n ← Action.number a
    if n = 0 then Action.fail (("Illegal number: " : Text) ++ a)
    return n

private def leaveLoops (stop : Nat → Stop) (arguments : List Text) : Action Nat := do
  let n := min (← count arguments) (← get).loops
  if n = 0 then return 0
  Action.setStatus 0
  Action.stop (stop n)

/-- Leaves loops. -/
def «break» (arguments : List Text) : Action Nat := leaveLoops .broken arguments

/-- Goes on with the next round of a loop. -/
def «continue» (arguments : List Text) : Action Nat := leaveLoops .continued arguments

/-- Leaves a function, or what else is being run. -/
def «return» (arguments : List Text) : Action Nat := do
  if let a :: _ := arguments then Action.setStatus (← Action.number a)
  Action.stop .returned

/-- Ends the shell. -/
def exit (arguments : List Text) : Action Nat := do
  match arguments with
  | a :: _ => Action.setStatus (← Action.number a)
  | [] =>
    if let some status := (← get).interruptedStatus then Action.setStatus status
  Action.stop .exited

end ConversationFlow.Shell.Builtin

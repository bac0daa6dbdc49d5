import ConversationFlow.Command.Runner
import ConversationFlow.Shell.Evaluation

/-!
# Execution of commands

A command runs in its directory, with the settings' variables beside those it inherits
and nothing to read. It ends by itself, by a signal or with its time; what it leaves behind
is heard for a while longer. It may change files, but not the directory that the caller works
in.
-/

namespace ConversationFlow

/-- The program that is started, with its arguments. -/
def Invocation.parts : Invocation → Text × List Text
  | .script t => ("sh", [['-', 'c'], t])
  | .program name arguments => (name, arguments)

namespace CommandRunner

/-- The steps that a script may take before it counts as one that does not end. -/
def stepLimit : Nat := 200000

/-- How deep commands may stand in each other. -/
def depthLimit : Nat := 20000

/-- How long, in nanoseconds, each stream is heard after the command has ended. -/
def lingerNanos : Nat := 1000000000

/-- The files as a command sees them that starts in the runner's directory. -/
private def entered (r : CommandRunner) (fs : FileSystem) : Except FileError FileSystem := do
  let l ← fs.locate r.cwd
  match fs.node? l with
  | some .directory => return { fs with cwd := l }
  | _ => throw .notDirectory

/-- The variables that a command inherits, and those of the settings in their place or behind. -/
private def environment (r : CommandRunner) (fs : FileSystem) : List (Text × Text) :=
  let inherited := Dictionary.ofList fs.environment
  let all := r.settings.env.entries.foldl (fun d (name, value) => d.insert name value) inherited
  all.entries.map fun (name, value) => (Shell.octets name, Shell.octets value)

private def hasNul (r : CommandRunner) (name : Text) (arguments : List Text) : Bool :=
  let nul := Char.ofNat 0
  name.contains nul || arguments.any (·.contains nul) || r.cwd.text.contains nul
    || r.settings.env.entries.any fun e => e.1.contains nul || e.2.contains nul

/-- The shell in which a command is started. -/
private def machine (r : CommandRunner) (inside : FileSystem) (name : Text) : Shell.Machine :=
  { world :=
      { files := inside
        opened := #[{ target := .nothing, reads := true },
          { target := .caller .output, writes := true }, { target := .caller .error, writes := true }]
        stepsLeft := stepLimit
        nextProcess := Shell.firstProcess + 1 }
    name
    descriptors := [(0, 0), (1, 1), (2, 2)]
    process := Shell.firstProcess
    root := Shell.firstProcess
    limit := r.settings.timeout.nanos }

/-- What is heard of a stream, in the order of time. -/
private def heard (m : Shell.Machine) (s : Shell.Stream) : Text :=
  let linger := match s with
    | .output => lingerNanos
    | .error => 2 * lingerNanos
  let events := m.world.events.reverse.filter fun e => e.stream = s && e.time ≤ m.clock + linger
  Text.ofBytesLossy ((events.mergeSort fun a b => a.time ≤ b.time).flatMap (·.bytes))

/-- Runs a command. An error means that it did not start. -/
def run (r : CommandRunner) (command : Text) (fs : FileSystem) :
    Except CommandError CommandOutput × FileSystem :=
  match r.invocation command with
  | .error e => (.error e, fs)
  | .ok invocation =>
    let (name, arguments) := invocation.parts
    let environment := r.environment fs
    let path := ((environment.find? fun v => v.1 = "PATH".toList).map (·.2)).getD
      Shell.Evaluation.systemSearchPath
    let words := (name :: arguments).map Shell.octets
    let started : Except FileError (FileSystem × Text) := do
      if r.hasNul name arguments then throw (.other "nul byte found in provided data")
      let inside ← r.entered fs
      return (inside, ← Shell.SearchPath.program inside path (words.headD []))
    match started with
    | .error cause => (.error (.notStarted command cause), fs)
    | .ok (inside, program) =>
      let evaluation := Shell.Evaluation.toDepth depthLimit
      let (result, m) := Shell.Evaluation.become evaluation (words.length + 1) program words
        environment (r.machine inside program)
      let timedOut := match result with
        | .error .expired => true
        | _ => false
      let exitCode := match result with
        | .error .expired | .error (.killed _) => none
        | _ => some ((m.status % 256 : Nat) : Int)
      let m := if timedOut then { m with clock := r.settings.timeout.nanos } else m
      let output : CommandOutput :=
        { command
          exitCode
          stdout := heard m .output
          stderr := heard m .error
          timedOut
          timeout := r.settings.timeout }
      (.ok output, { m.world.files with cwd := fs.cwd })

end CommandRunner

end ConversationFlow

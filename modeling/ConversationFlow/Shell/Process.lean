import ConversationFlow.Shell.Builtin.Jobs
import ConversationFlow.Shell.Program

/-!
# Processes

A process works on a copy of the shell that starts it, and both share the world. The two go on
at the same time: a process keeps its own clock, and the shell learns of its end when it waits
for it.
-/

namespace ConversationFlow.Shell

/-- The number of the process that the caller starts. -/
def firstProcess : Nat := 4000

/-- How long, in nanoseconds, processes can go on that the first one leaves behind. -/
def graceNanos : Nat := 2000000000

namespace Machine

/-- A copy of the shell as a process of its own. Actions for signals are not taken over. -/
def forked (m : Machine) : Machine :=
  { m with
    world := { m.world with nextProcess := m.world.nextProcess + 1 }
    process := m.world.nextProcess
    ancestors := m.process :: m.ancestors
    traps := m.traps.filter fun t => t.2.isEmpty
    arrived := []
    printed := []
    jobs := []
    limit := if m.process = firstProcess then m.limit + graceNanos else m.limit }

/-- Whether actions for signals are set. -/
def hasTraps (m : Machine) : Bool := m.traps.any fun t => !t.2.isEmpty

/-- How a process ended that was stopped by something or came to its end. -/
def ending (m : Machine) : Except Stop Unit → ProcessEnd
  | .error (.killed signal) => ⟨128 + signal, some signal, m.clock⟩
  | _ => ⟨m.status % 256, none, m.clock⟩

end Machine

namespace Process

/-- Does something in a process of its own, and tells the process and how it ended. -/
def start (act : Action Unit) : Action (Nat × ProcessEnd) := fun m =>
  let child := m.forked
  let (result, ended) := act child
  let ending := ended.ending result
  let world := ended.descriptors.foldl (fun w d => w.close d.2 ending.time) ended.world
  let ignored := (ended.traps.filter (·.2.isEmpty)).map (·.1)
  let hears := m.traps.any fun t => t.1 = Signal.childEnded && !t.2.isEmpty
  let world := if hears then world.send m.process Signal.childEnded ending.time else world
  let world := { world with
    files := { world.files with cwd := m.world.files.cwd }
    past := ⟨child.process, ending.time, ignored⟩ :: world.past }
  (.ok (child.process, ending), { m with world })

/-- Gives a number to what is about to be started. -/
def claimJob : Action Nat := do
  let m ← get
  let (number, jobs) := Job.claim m.jobs
  set { m with jobs }
  return number

/-- Waits for processes that were started together. The last one tells the status. -/
def await (parts : List (Nat × ProcessEnd)) : Action Nat := do
  let world := (← get).world
  let ends := parts.map fun (process, e) => world.ending process e
  for e in ends.mergeSort fun a b => a.time ≤ b.time do
    Builtin.pauseUntil e.time
    if let some report := e.signal.bind Signal.report? then
      let _ ← Action.write 2 (report ++ ['\n'])
  Builtin.meetEndings
  Builtin.noteEnded
  return (ends.getLast?.map (·.status)).getD 0

/-- What a program is started with in this process. -/
def call (words : List Text) (environment : List (Text × Text)) : Action Call := do
  let input ← Action.readAll 0 false
  let m ← get
  let fileOf (descriptor : Nat) : Option (Location × Nat) := do
    let f ← m.world.opened[← m.opened? descriptor]?
    match f.target with
    | .file l =>
      let size := ((m.world.files.bytesAt l).toOption.getD []).length
      some (l, if f.appends then size else f.place)
    | _ => none
  return {
    name := words.headD []
    arguments := words.tail
    environment := environment
    files := m.world.files
    input := input
    inputFile := fileOf 0
    output := fileOf 1
    hasOutput := (m.opened? 1).isSome }

/-- The status of a program that cannot print. -/
private def failureStatus (program : Text) : Nat :=
  match String.ofList program with
  | "ls" => 2
  | "env" => 125
  | _ => 1

/-- Prints what a program prints; one that `stops` does so at the first failure. Tells the first
failure, and whether the messages could be printed. -/
private def print (stops : Bool) (fault : Option FileError) (isHeard : Bool) :
    List (Nat × Stream × Text) → Action (Option FileError × Bool)
  | [] => return (fault, isHeard)
  | (time, stream, t) :: rest => do
    Builtin.pauseUntil time
    match ← Action.attempt (if stream = .output then 1 else 2) t with
    | .ok () => print stops fault isHeard rest
    | .error e =>
      if stream = .error then print stops fault false rest
      else if stops then return (some e, isHeard)
      else print stops (fault.or (some e)) isHeard rest

/-- Carries out what a program does in this process. -/
def perform (program name : Text) (e : Effect) : Action Unit := do
  if let some files := e.files then
    modify fun m => { m with world := { m.world with files } }
  let (fault, isHeard) ← print (program = "cat".toList) none true e.printed
  if e.readsInput then
    if let .ok (_, ended) ← Action.readAll 0 true then Builtin.pauseUntil ended
  Builtin.pauseUntil ((← get).clock + e.pause)
  match fault with
  | none => Action.setStatus (if isHeard then e.status else failureStatus program)
  | some fault =>
    let _ ← Action.write 2 (name ++ (": write error: " : Text) ++ reason fault ++ ['\n'])
    Action.setStatus (failureStatus program)

end Process

end ConversationFlow.Shell

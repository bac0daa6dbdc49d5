import ConversationFlow.Text.Basic

/-!
# Jobs

A shell numbers what it starts in the background. A job has the processes that were started
together; its number can be given again once the shell was asked for its end. The newest job
stands first.
-/

/-! ## Signals

A signal is a number with a name. What it does to a process that has no action for it is told
here, and what is said of a process that it ended.
-/

namespace ConversationFlow.Shell.Signal

/-- The signals below this one have names of their own or ones made from their numbers. -/
def bound : Nat := 65

private def plainNames : List String := [
  "EXIT", "HUP", "INT", "QUIT", "ILL", "TRAP", "ABRT", "BUS", "FPE", "KILL", "USR1", "SEGV",
  "USR2", "PIPE", "ALRM", "TERM", "16", "CHLD", "CONT", "STOP", "TSTP", "TTIN", "TTOU",
  "URG", "XCPU", "XFSZ", "VTALRM", "PROF", "WINCH", "IO", "PWR", "SYS", "32", "33"]

def brokenPipe : Nat := 13

def termination : Nat := 15

def fault : Nat := 11

/-- What a process gets when one that it started ends. -/
def childEnded : Nat := 17

/-- The first and the last of the signals that are free for any use. -/
private def firstFree : Nat := 34

private def lastFree : Nat := 64

/-- The name of a signal. The free ones are counted from the nearer end. -/
def name (n : Nat) : Text :=
  match plainNames[n]? with
  | some t => t.toList
  | none =>
    if n = firstFree then "RTMIN"
    else if n = lastFree then "RTMAX"
    else if n - firstFree < 16 then "RTMIN+" ++ Text.ofNat (n - firstFree)
    else "RTMAX-" ++ Text.ofNat (lastFree - n)

/-- The signal that a text names, by its number or its name. -/
def ofText? (least : Nat) (t : Text) : Option Nat :=
  match Text.toNat? t with
  | some n =>
    if n < bound then some n else none
  | none => (List.range bound).find? fun n =>
      least ≤ n && Text.lowerAscii (name n) = Text.lowerAscii t

/-- Whether a signal does nothing to a process without an action for it. -/
def isHarmless (n : Nat) : Bool := [0, 17, 18, 19, 20, 21, 22, 23, 28].contains n

/-- Whether no action can be set for a signal. -/
def isFinal (n : Nat) : Bool := n = 9 || n = 19

private def descriptions : List (Nat × String) := [
  (1, "Hangup"), (2, "Interrupt"), (3, "Quit"), (4, "Illegal instruction"),
  (5, "Trace/breakpoint trap"), (6, "Aborted"), (7, "Bus error"), (8, "Floating point exception"), (9, "Killed"),
  (10, "User defined signal 1"), (11, "Segmentation fault"), (12, "User defined signal 2"),
  (13, "Broken pipe"), (14, "Alarm clock"), (15, "Terminated"), (16, "Stack fault"),
  (24, "CPU time limit exceeded"), (25, "File size limit exceeded"), (26, "Virtual timer expired"),
  (27, "Profiling timer expired"), (29, "I/O possible"), (30, "Power failure"),
  (31, "Bad system call")]

/-- What is said of a process that a signal ended. -/
def description (n : Nat) : Text :=
  match descriptions.find? fun d => d.1 = n with
  | some (_, t) => t
  | none => if firstFree ≤ n then "Real-time signal " ++ Text.ofNat (n - firstFree)
    else "Unknown signal " ++ Text.ofNat n

/-- What is said of a process that was waited for and that a signal ended, if anything is. -/
def report? (n : Nat) : Option Text :=
  if n = 2 || n = brokenPipe then none else some (description n)

end ConversationFlow.Shell.Signal

/-! ## Jobs -/

namespace ConversationFlow.Shell

/-- How a process ended: with a status, or by a signal. -/
structure ProcessEnd where
  status : Nat
  signal : Option Nat := none
  time : Nat

/-- A process of a job. The shell is told of its end when it waits for a process. -/
structure JobProcess where
  process : Nat
  ending : ProcessEnd
  isTold : Bool := false

structure Job where
  number : Nat
  processes : List JobProcess
  /-- Whether its end was waited for. -/
  isAwaited : Bool := false

/-- Why a name stands for no job. -/
inductive JobFault where
  | missing (name : Text)
  | noCurrent
  | noPrevious
  | ambiguous (name : Text)

namespace JobFault

def message : JobFault → Text
  | missing name => ("No such job: " : Text) ++ name
  | noCurrent => "No current job"
  | noPrevious => "No previous job"
  | ambiguous name => name ++ (": ambiguous" : Text)

end JobFault

namespace Job

/-- Whether the shell was told that all processes have ended. -/
def isDone (j : Job) : Bool := j.processes.all (·.isTold)

/-- The process that a job is known by. -/
def last? (j : Job) : Option JobProcess := j.processes.getLast?

def status (j : Job) : Nat := (j.last?.map (·.ending.status)).getD 0

/-- The job once the shell is told of the processes that have ended up to a time. -/
def told (time : Nat) (j : Job) : Job :=
  { j with processes := j.processes.map fun p =>
    if p.ending.time ≤ time then { p with isTold := true } else p }

/-- The least number that is free for a new job, and the jobs that are kept beside it. -/
def claim (jobs : List Job) : Nat × List Job :=
  let isTaken (n : Nat) : Bool := jobs.any fun j => j.number = n && !(j.isDone && j.isAwaited)
  let numbers := (List.range (jobs.length + 1)).map (· + 1)
  let number := (numbers.find? fun n => !isTaken n).getD 1
  (number, jobs.filter fun j => j.number ≠ number)

/-- The job that a name behind a percent sign stands for. Jobs have no texts that a name could
begin, so other names stand for none. -/
def named (jobs : List Job) (name : Text) : Except JobFault Job :=
  match name with
  | ['%'] | ['%', '+'] | ['%', '%'] => (jobs.head?.map Except.ok).getD (.error .noCurrent)
  | ['%', '-'] => (jobs.tail.head?.map Except.ok).getD (.error .noPrevious)
  | ['%', '?'] =>
    match jobs with
    | [j] => .ok j
    | [] => .error (.missing name)
    | _ => .error (.ambiguous name)
  | '%' :: t =>
    match jobs.find? fun j => Text.toNat? t = some j.number with
    | some j => .ok j
    | none => .error (.missing name)
  | _ => .error (.missing name)

/-- How a job goes. -/
private def state (j : Job) : Text :=
  if !j.isDone then "Running"
  else
    match j.last?.bind (·.ending.signal) with
    | some signal => Signal.description signal
    | none => if j.status = 0 then "Done" else ("Done(" : Text) ++ Text.ofNat j.status ++ [')']

/-- What is left of a column of a row that has some text. -/
private def gap (width : Nat) : Text := List.replicate (max 1 (33 - width)) ' '

/-- The row that shows a job among others, with the numbers of its processes if asked for. -/
def row (jobs : List Job) (withProcesses : Bool) (j : Job) : Text :=
  let mark := if (jobs.head?.map (·.number)) = some j.number then '+'
    else if (jobs.tail.head?.map (·.number)) = some j.number then '-'
    else ' '
  let number := ('[' :: Text.ofNat j.number) ++ [']', ' ', mark, ' ']
  let shown (p : JobProcess) : Text := Text.ofNat p.process ++ [' ']
  let processes := if withProcesses then (j.processes.head?.map shown).getD [] else []
  let first := number ++ processes ++ j.state
  let others := j.processes.tail.map fun p =>
    if withProcesses then
      let t := List.replicate number.length ' ' ++ shown p
      (" |\n" : Text) ++ t ++ gap t.length
    else " | "
  first ++ gap first.length ++ others.flatten ++ ['\n']

end Job

end ConversationFlow.Shell

import ConversationFlow.Shell.Builtin.Options

/-!
# Jobs and signals

The commands of the shell that show what runs in the background, wait for it and send it
signals.
-/

namespace ConversationFlow.Shell.Builtin

/-! ## Signals

A signal that reaches a shell has its action carried out between two commands, or ends the
shell. It can be on its way while the shell waits, and ends the waiting if it ends the shell or
if it is the signals that are waited for.
-/

/-- Sets what is done at signals, or shows it. -/
def trap (arguments : List Text) : Action Nat := do
  let (_, words) ← BuiltinOptions.read [] arguments
  if words.isEmpty then
    let traps := (← get).traps.mergeSort fun a b => a.1 ≤ b.1
    for (signal, action) in traps do
      Action.print (("trap -- " : Text) ++ Quoted.single action ++ ' ' :: Signal.name signal ++ ['\n'])
    return 0
  let (action, signals) : Option Text × List Text := match words with
    | [_] => (none, words)
    | a :: rest =>
      if (Text.toNat? a).any (· < Signal.bound) then (none, words)
      else (if a = ['-'] then none else some a, rest)
    | [] => (none, [])
  for t in signals do
    match Signal.ofText? 0 t with
    | none =>
      let _ ← Action.write 2 (("trap: " : Text) ++ t ++ (": bad trap\n" : Text))
      return 1
    | some signal =>
      modify fun m =>
        let others := m.traps.filter fun e => e.1 ≠ signal
        { m with traps := match action with
          | some action => (signal, action) :: others
          | none => others }
  return 0

/-! ### What signals do -/

/-- Meets a signal: an action for it waits to be carried out, or it ends the shell. -/
def meet (signal : Nat) : Action Unit := do
  let m ← get
  match m.traps.find? fun e => e.1 = signal && !Signal.isFinal signal with
  | some (_, action) =>
    if !action.isEmpty && !m.arrived.contains signal then
      set { m with arrived := m.arrived ++ [signal] }
  | none => if !Signal.isHarmless signal then Action.stop (.killed signal)

private def meetNext (time : Nat) (isInterruptible : Bool) : Nat → Action (Option Nat)
  | 0 => return none
  | fuel + 1 => do
    let m ← get
    match m.world.nextSignal? m.process time with
    | none => return none
    | some (s, world) =>
      set { m with world }
      let action := (m.traps.find? fun e => e.1 = s.signal && !Signal.isFinal s.signal).map (·.2)
      let interrupts := isInterruptible && action.any fun t => !t.isEmpty
      if interrupts || (action.isNone && !Signal.isHarmless s.signal) then
        modify fun m => { m with clock := max m.clock s.time }
      meet s.signal
      if interrupts then return some s.signal
      meetNext time isInterruptible fuel

/-- Meets the signals that come up to a time. If they can be interrupted by an action, the
first one that has an action is told, and the others are left. -/
def meetUntil (time : Nat) (isInterruptible : Bool) : Action (Option Nat) := do
  meetNext time isInterruptible ((← get).world.signals.length + 1)

/-- Waits until a time, unless a signal ends the shell before. -/
def pauseUntil (time : Nat) : Action Unit := do
  let m ← get
  let _ ← meetUntil (min (max m.clock time) m.limit) false
  Action.waitUntil time

/-! ### Sending -/

/-- Sends a signal to a process, and tells whether there is such a process. -/
private def sendTo (process signal : Nat) : Action Bool := do
  let m ← get
  if process = m.process then
    meet signal
    return true
  else if m.ancestors.contains process then
    set { m with world := m.world.send process signal m.clock }
    return true
  else
    match m.world.past.find? fun p => p.process = process with
    | none => return false
    | some p =>
      if m.clock < p.time then
        if !Signal.isHarmless signal && !p.ignored.contains signal then
          set { m with world := m.world.strike process signal m.clock }
        return true
      else
        return m.jobs.any fun j => j.processes.any fun k => k.process = process && !k.isTold

/-- Sends a signal to the process that a text names, and tells whether there is one. Jobs and
numbers below zero name groups of processes, of which the shell makes none. -/
private def send (signal : Nat) (target : Text) : Action Bool := do
  match target with
  | '%' :: _ =>
    match Job.named (← get).jobs target with
    | .ok _ => return false
    | .error fault => Action.fail fault.message
  | '-' :: t =>
    let _ ← Action.number t
    return false
  | t => sendTo (← Action.number t) signal

private def usage : Text :=
  "Usage: kill [-s sigspec | -signum | -sigspec] [pid | job]... or\nkill -l [exitstatus]"

/-- What a command that sends signals is asked to do. -/
private inductive Dispatch where
  | list (arguments : List Text)
  | send (signal : Nat) (targets : List Text)

private def dispatch (arguments : List Text) : Action Dispatch := do
  match arguments with
  | ('-' :: t) :: rest =>
    match Signal.ofText? 1 t with
    | some signal => return .send signal rest
    | none =>
      let (options, rest) ← BuiltinOptions.read [('l', false), ('s', true)] arguments
      let named ← (options.filter (·.1 = 's')).mapM fun o =>
        match Signal.ofText? 1 o.2 with
        | some signal => pure signal
        | none => Action.fail (("invalid signal number or name: " : Text) ++ o.2)
      if options.any (·.1 = 'l') then
        if named.isEmpty then return .list rest else Action.fail usage
      else return .send (named.getLast?.getD Signal.termination) rest
  | targets => return .send Signal.termination targets

/-- Sends signals to processes, or names them. -/
def kill (arguments : List Text) : Action Nat := do
  match ← dispatch arguments with
  | .list [] =>
    Action.print ("0\n" : Text)
    for n in (List.range Signal.bound).tail do Action.print (Signal.name n ++ ['\n'])
    return 0
  | .list (a :: _) =>
    let n ← Action.number a
    let n := if 128 < n then n - 128 else n
    if 0 < n && n < Signal.bound then
      Action.print (Signal.name n ++ ['\n'])
      return 0
    Action.fail (("invalid signal number or exit status: " : Text) ++ a)
  | .send _ [] => Action.fail usage
  | .send signal targets =>
    let results ← targets.mapM fun t => do
      if ← send signal t then return 0
      Action.warn "No such process\n"
      return 1
    return results.foldl max 0

/-! ## Jobs -/

/-- Notes that the shell was told of the processes that have ended. -/
def noteEnded : Action Unit :=
  modify fun m => { m with jobs := m.jobs.map fun j => j.told m.clock }

private def job (name : Text) : Action Job := do
  match Job.named (← get).jobs name with
  | .ok j => return j
  | .error fault => Action.fail fault.message

/-- Shows jobs. One that has ended is shown once. -/
def jobs (arguments : List Text) : Action Nat := do
  let (options, names) ← BuiltinOptions.read [('l', false), ('p', false)] arguments
  let letter := (options.getLast?.map (·.1)).getD ' '
  let «show» (j : Job) : Action Unit := do
    let all := (← get).jobs
    if letter = 'p' then
      if let some p := j.processes.head? then Action.print (Text.ofNat p.process ++ ['\n'])
    else
      Action.print (j.row all (letter = 'l'))
      if j.isDone then
        modify fun m => { m with jobs := m.jobs.filter fun k => k.number ≠ j.number }
  if names.isEmpty then
    noteEnded
    for j in (← get).jobs do «show» j
  else
    for name in names do «show» (← job name)
  return 0

/-- Brings a job to the front or back, which takes a terminal. -/
def bring (arguments : List Text) : Action Nat := do
  let (_, names) ← BuiltinOptions.read [] arguments
  let _ ← job (names.headD ['%'])
  Action.fail (("job " : Text) ++ names.headD "(null)" ++ (" not created under job control" : Text))

/-- Waits for processes and tells of their ends. A signal with an action ends the waiting. -/
private def waitFor (reports : Bool) (processes : List JobProcess) : Action (Option Nat) := do
  let running := processes.filter fun p => !p.isTold
  for p in running.mergeSort fun a b => a.ending.time ≤ b.ending.time do
    let m ← get
    let ending := m.world.ending p.process p.ending
    if let some signal ← meetUntil (min (max m.clock ending.time) m.limit) true then
      noteEnded
      return some signal
    Action.waitUntil ending.time
    if let some t := ending.signal.bind Signal.report? then
      if reports then
        let _ ← Action.write 2 (t ++ ['\n'])
    noteEnded
  return none

/-- The jobs with what signals have done to their processes. -/
def meetEndings : Action Unit :=
  let struck (w : World) (p : JobProcess) : JobProcess :=
    if p.isTold then p else { p with ending := w.ending p.process p.ending }
  modify fun m => { m with jobs := m.jobs.map fun j =>
    { j with processes := j.processes.map (struck m.world) } }

private def markAwaited (isMarked : Job → Bool) : Action Unit :=
  let marked (j : Job) : Job := if isMarked j then { j with isAwaited := true } else j
  modify fun m => { m with jobs := m.jobs.map marked }

/-- Waits for processes in the background, and tells how the last one ended. -/
def wait (arguments : List Text) : Action Nat := do
  let (_, words) ← BuiltinOptions.read [] arguments
  meetEndings
  if words.isEmpty then
    let interrupted ← waitFor false ((← get).jobs.flatMap (·.processes))
    markAwaited (·.isDone)
    return (interrupted.map (128 + ·)).getD 0
  let rec each : List Text → Nat → Action Nat
    | [], status => return status
    | t :: rest, status => do
      let found ← if t.head? = some '%' then some <$> job t
        else
          let n ← Action.number t
          pure ((← get).jobs.find? fun j => (j.last?.map (·.process)) = some n)
      match found with
      | none => each rest status
      | some j =>
        match ← waitFor true j.processes with
        | some signal => return 128 + signal
        | none =>
          markAwaited fun k => k.number = j.number
          each rest j.status
  each words 127

end ConversationFlow.Shell.Builtin

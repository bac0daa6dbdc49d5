import ConversationFlow.Shell.Arithmetic
import ConversationFlow.Shell.World
import ConversationFlow.Text.Dictionary

/-!
# Shells

A machine is one shell: its variables, functions and settings, where its descriptors lead,
and the world that it shares with other processes. What a shell does is an action, which
changes the machine and may stop what surrounds it.
-/

namespace ConversationFlow.Shell

structure Variable where
  value : Option Text
  exported : Bool := false
  readOnly : Bool := false

/-- Why what was being done goes no further. A loop can be left, or taken up again, from any
depth; a failure ends the command that meets it, and most often the shell. -/
inductive Stop where
  | broken (loops : Nat)
  | continued (loops : Nat)
  | returned
  | failed
  | exited
  | killed (signal : Nat)
  | expired
deriving DecidableEq

/-- How much of something a process may use, and how much it may ask for. -/
structure Limit where
  soft : Option Nat := none
  hard : Option Nat := none

structure Machine where
  world : World
  /-- What the shell calls itself in its messages. -/
  name : Text
  arguments : List Text := []
  vars : Dictionary Variable := .empty
  functions : Dictionary Command := .empty
  aliases : Dictionary Text := .empty
  /-- The actions for signals; the end of the shell is signal zero. -/
  traps : List (Nat × Text) := []
  arrived : List Nat := []
  options : List Char := []
  status : Nat := 0
  /-- The status of the last command whose output was put into a word. -/
  outputStatus : Nat := 0
  /-- The status from before the action for a signal that is being carried out. -/
  interruptedStatus : Option Nat := none
  /-- What the command being run prints when it is done. -/
  printed : Text := []
  /-- The line that messages tell, and the command that they name. -/
  line : Nat := 0
  speaker : Option Text := none
  loops : Nat := 0
  /-- How many functions are being called, each from within the one before. -/
  calls : Nat := 0
  /-- What the variables of functions stood for outside, the innermost first. -/
  scopes : List (List (Text × Option Variable)) := []
  descriptors : List (Nat × Nat) := []
  process : Nat
  /-- The processes that this one was started from, the nearest first. -/
  ancestors : List Nat := []
  /-- The process that `$$` tells. -/
  root : Nat
  lastJob : Option Nat := none
  /-- What was started in the background, the newest first. -/
  jobs : List Job := []
  /-- The argument that options are read from, and the place in it. -/
  optionIndex : Nat := 1
  optionPlace : Option Nat := none
  /-- The programs that were found on the search path, with their paths. -/
  located : Dictionary Text := .empty
  /-- The permissions that new files do not get. -/
  mask : Nat := 18
  /-- The limits that hold, other than those that allow everything. -/
  limits : List (Char × Limit) :=
    [('s', ⟨some 8192, none⟩), ('l', ⟨some 8192, some 8192⟩), ('n', ⟨some 1048576, some 1048576⟩),
      ('r', ⟨some 0, some 0⟩)]
  clock : Nat := 0
  /-- When the time of the shell is up. -/
  limit : Nat

/-- What a shell does. -/
abbrev Action := ExceptT Stop (StateM Machine)

/-- The separators of fields where nothing else is set. -/
def defaultSeparators : Text := [' ', '\t', '\n']

namespace Machine

def hasOption (m : Machine) (letter : Char) : Bool := m.options.contains letter

def get? (m : Machine) (name : Text) : Option Text := (m.vars.get? name).bind (·.value)

/-- The separators of fields. -/
def separators (m : Machine) : Text := (m.get? "IFS").getD defaultSeparators

/-- The letters of the options in the order in which the shell shows them. -/
def optionLetters : List Char :=
  ['p', 'u', 'b', 'a', 'C', 'E', 'V', 'v', 'x', 's', 'n', 'm', 'i', 'I', 'f', 'e']

/-- The value of a parameter, other than all arguments. -/
def value? (m : Machine) (name : Text) : Option Text :=
  match name with
  | ['?'] => some (Text.ofNat m.status)
  | ['$'] => some (Text.ofNat m.root)
  | ['#'] => some (Text.ofNat m.arguments.length)
  | ['!'] => m.lastJob.map Text.ofNat
  | ['-'] => some (optionLetters.filter m.hasOption)
  | _ =>
    match Text.toNat? name with
    | some 0 => some m.name
    | some (n + 1) => m.arguments[n]?
    | none => m.get? name

/-- Entries in the order in which the shell goes through a table of so many rows, which the
characters of the names tell. -/
def inRows {α : Type} (rows : Nat) (entries : List (Text × α)) : List (Text × α) :=
  let row (name : Text) : Nat :=
    ((name.map Char.toNat).foldl (· + ·) (16 * (name.head?.map Char.toNat).getD 0)) % rows
  entries.mergeSort fun a b => row a.1 ≤ row b.1

/-- The rows of the table of variables. -/
def variableRows : Nat := 39

/-- The variables that a program inherits. -/
def environment (m : Machine) : List (Text × Text) :=
  inRows variableRows (m.vars.entries.filterMap fun (name, v) =>
    if v.exported then v.value.map (name, ·) else none)

/-- Where a descriptor leads. -/
def opened? (m : Machine) (descriptor : Nat) : Option Nat :=
  (m.descriptors.find? fun d => d.1 = descriptor).map (·.2)

/-- The machine with a descriptor that leads elsewhere, or nowhere. -/
def redirect (m : Machine) (descriptor : Nat) (number : Option Nat) : Machine :=
  let others := m.descriptors.filter fun d => d.1 ≠ descriptor
  { m with descriptors := match number with
    | some n => (descriptor, n) :: others
    | none => others }

end Machine

namespace Action

def stop {α : Type} (s : Stop) : Action α := throw s

/-- Writes a text to a descriptor, or tells why that cannot be done. -/
def attempt (descriptor : Nat) (t : Text) : Action (Except FileError Unit) := fun m =>
  if t.isEmpty then (.ok (.ok ()), m)
  else
    match m.opened? descriptor with
    | none => (.ok (.error World.badDescriptor), m)
    | some number =>
      if m.world.isFull number then (.error (.killed Signal.brokenPipe), m)
      else
        match m.world.write m.clock m.process number (Text.toOctets t) with
        | .ok world => (.ok (.ok ()), { m with world })
        | .error e => (.ok (.error e), m)

/-- Writes a text to a descriptor, and tells whether that could be done. -/
def write (descriptor : Nat) (t : Text) : Action Bool :=
  return (← attempt descriptor t).toBool

/-- Prints a text when the command is done. -/
def print (t : Text) : Action Unit := modify fun m => { m with printed := m.printed ++ t }

def setStatus (status : Nat) : Action Unit := modify fun m => { m with status }

/-- Writes a message to the error output. -/
def warn (t : Text) : Action Unit := do
  let m ← get
  let speaker := match m.speaker with
    | some s => s ++ ": "
    | none => []
  let _ ← write 2 (m.name ++ ": " ++ Text.ofNat m.line ++ ": " ++ speaker ++ t ++ "\n")

/-- Reports a failure. -/
def fail {α : Type} (t : Text) : Action α := do
  warn t
  setStatus 2
  stop .failed

/-- Lets time pass. -/
def wait (nanos : Nat) : Action Unit := do
  modify fun m => { m with clock := m.clock + nanos }
  let m ← get
  if m.limit ≤ m.clock then stop .expired

/-- Waits until a time. -/
def waitUntil (time : Nat) : Action Unit := do
  wait (time - (← get).clock)

/-- Counts a command. One that is not to be run any more ends the shell as if by time. -/
def countStep : Action Unit := do
  let m ← get
  if m.world.stepsLeft = 0 then
    modify fun m => { m with clock := max m.clock m.limit }
    stop .expired
  else set { m with world := { m.world with stepsLeft := m.world.stepsLeft - 1 } }

/-- The number that an argument has to be. -/
def number (t : Text) : Action Nat := do
  match integer? false t with
  | some n =>
    if n < 0 || 2147483647 < n then fail ("Illegal number: " ++ t) else return n.toNat
  | none => fail ("Illegal number: " ++ t)

/-- Gives a variable a value or takes it away. -/
def assign (name : Text) (value : Option Text) : Action Unit := do
  if !isName name then fail (name ++ ": bad variable name")
  let m ← get
  let old := (m.vars.get? name).getD { value := none }
  if old.readOnly then fail (name ++ ": is read only")
  let exported := old.exported || (m.hasOption 'a' && value.isSome)
  set { m with vars := m.vars.insert name { old with value, exported } }
  if name = "PATH".toList then modify fun m => { m with located := .empty }
  if name = "OPTIND".toList then
    let index ← match value with
      | some t => number t
      | none => pure 1
    modify fun m => { m with optionIndex := max 1 index, optionPlace := none }

/-- Puts back what a variable was. -/
def restore (name : Text) (old : Option Variable) : Action Unit :=
  modify fun m =>
    { m with vars := match old with
      | some v => m.vars.insert name v
      | none => m.vars.erase name }

/-- Keeps what a variable stands for until the scope ends. -/
def keepLocal (name : Text) : Action Unit :=
  modify fun m =>
    match m.scopes with
    | scope :: outer =>
      if scope.any (·.1 = name) then m
      else { m with scopes := ((name, m.vars.get? name) :: scope) :: outer }
    | [] => m

/-- Ends the innermost scope. -/
def closeScope : Action Unit := do
  let m ← get
  match m.scopes with
  | scope :: outer =>
    set { m with scopes := outer }
    for (name, old) in scope do restore name old
  | [] => return ()

/-- Does something and then something else, whether or not the first is stopped. -/
def ensuring {α : Type} (act : Action α) (after : Action Unit) : Action α := do
  let result ← try Except.ok <$> act catch s => pure (.error s)
  after
  match result with
  | .ok a => return a
  | .error s => stop s

/-- All that is left to be read from a descriptor, with the time at which each part came. It is
taken only if `takes` holds. -/
def readAll (descriptor : Nat) (takes : Bool) : Action Input := do
  let m ← get
  match m.opened? descriptor with
  | none => return .error (.other "Bad file descriptor")
  | some number =>
    match m.world.unread number with
    | .error e => return .error e
    | .ok (chunks, ended) =>
      if takes then
        let size := (chunks.map (·.2.length)).foldr (· + ·) 0
        set { m with world := m.world.skip number size }
      return .ok (chunks, ended)

end Action

end ConversationFlow.Shell

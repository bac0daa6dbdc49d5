import ConversationFlow.Shell.Job
import ConversationFlow.Shell.Program
import ConversationFlow.Shell.Syntax

/-!
# What processes share

Processes share the files, the pipes between them, and the files that they have opened. An
opened file keeps its place, so what one process reads or writes moves the place for the
others. Time is counted in nanoseconds from the start; what is printed for the caller is
kept with its time, since processes do not take turns.
-/

namespace ConversationFlow.Shell

/-- Something that a process printed for the caller. -/
structure Event where
  time : Nat
  process : Nat
  stream : Stream
  bytes : Bytes

/-- A signal that was sent to a process. -/
structure Sending where
  process : Nat
  signal : Nat
  time : Nat

/-- A process that has run to its end, when that was, and the signals that it let pass. -/
structure Past where
  process : Nat
  time : Nat
  ignored : List Nat

/-- A pipe holds what was written to it and not yet read, the latest first, and the number of
the parts written so far. -/
structure Pipe where
  chunks : List Chunk := []
  size : Nat := 0
  closedAt : Nat := 0

/-- The parts that a pipe takes. -/
def Pipe.room : Nat := 30000

/-- What is in a pipe, the earliest first. -/
def Pipe.inOrder (p : Pipe) : List Chunk := p.chunks.reverse.mergeSort fun a b => a.1 ≤ b.1

/-- What an opened file leads to. -/
inductive Target where
  | caller (s : Stream)
  | file (l : Location)
  | directory
  | pipe (number : Nat)
  | nothing
  | full
deriving DecidableEq

/-- An opened file and the place in it. -/
structure OpenFile where
  target : Target
  place : Nat := 0
  reads : Bool := false
  writes : Bool := false
  appends : Bool := false

structure World where
  files : FileSystem
  opened : Array OpenFile := #[]
  pipes : Array Pipe := #[]
  /-- What was printed, the latest first. -/
  events : List Event := []
  documents : Array Word := #[]
  /-- How many more commands may run. -/
  stepsLeft : Nat
  /-- The number of the next process. -/
  nextProcess : Nat
  /-- Processes that have been run, the latest first. Since processes do not take turns, the end
  of one can lie ahead of another. -/
  past : List Past := []
  /-- Signals that were sent to processes and not yet met, the latest first. -/
  signals : List Sending := []

namespace World

/-- Keeps an opened file and gives its number. -/
def keep (w : World) (f : OpenFile) : World × Nat :=
  ({ w with opened := w.opened.push f }, w.opened.size)

/-- A new pipe with an end to write to and an end to read from. -/
def pipe (w : World) : World × Nat × Nat :=
  let target := Target.pipe w.pipes.size
  let w := { w with pipes := w.pipes.push {} }
  let (w, writer) := w.keep { target, writes := true }
  let (w, reader) := w.keep { target, reads := true }
  (w, writer, reader)

/-- Closes an opened file. The reader of a pipe does not meet the end of it before. -/
def close (w : World) (number time : Nat) : World :=
  match w.opened[number]? with
  | none => w
  | some f =>
    match f.target with
    | .pipe n =>
      if !f.writes then w
      else
        { w with pipes := w.pipes.modify n fun p => { p with closedAt := max p.closedAt time } }
    | _ => w

/-- The first signal that reaches a process up to a time, and the world in which it is met. -/
def nextSignal? (w : World) (process time : Nat) : Option (Sending × World) :=
  let (own, others) := w.signals.partition fun s => s.process = process && s.time ≤ time
  match own.reverse.mergeSort fun a b => a.time ≤ b.time with
  | [] => none
  | s :: rest => some (s, { w with signals := rest.reverse ++ others })

/-- Sends a signal to a process. -/
def send (w : World) (process signal time : Nat) : World :=
  { w with signals := ⟨process, signal, time⟩ :: w.signals }

/-- Ends a process by a signal. What it would have printed later is not printed. -/
def strike (w : World) (process signal time : Nat) : World :=
  { w.send process signal time with
    past := w.past.map fun p => if p.process = process then { p with time } else p
    events := w.events.filter fun e => e.process ≠ process || e.time ≤ time }

/-- How a process ended that signals may have been sent to. -/
def ending (w : World) (process : Nat) (e : ProcessEnd) : ProcessEnd :=
  match w.nextSignal? process e.time with
  | some (s, _) => { status := 128 + s.signal, signal := some s.signal, time := s.time }
  | none => e

/-- Whether a pipe can take no more. -/
def isFull (w : World) (number : Nat) : Bool :=
  match w.opened[number]? with
  | none => false
  | some f =>
    match f.target with
    | .pipe n => Pipe.room ≤ ((w.pipes[n]?).getD {}).size
    | _ => false

/-- An opened file that gives some bytes. -/
def source (w : World) (bytes : Bytes) : World × Nat :=
  let target := Target.pipe w.pipes.size
  let w := { w with pipes := w.pipes.push { chunks := [(0, bytes)] } }
  w.keep { target, reads := true }

/-- Bytes with others put over them from a place on. -/
def overwrite (old : Bytes) (place : Nat) (new : Bytes) : Bytes :=
  let front := old.take place
  front ++ List.replicate (place - front.length) 0 ++ new ++ old.drop (place + new.length)

/-- What is said of a descriptor that is not open in the way that is needed. -/
def badDescriptor : FileError := .other "Bad file descriptor"

/-- Writes bytes to an opened file, which has to be open for writing. -/
def write (w : World) (time process number : Nat) (bytes : Bytes) : Except FileError World :=
  match w.opened[number]? with
  | none => .error badDescriptor
  | some f =>
    if !f.writes then .error badDescriptor
    else
      match f.target with
      | .nothing | .directory => .ok w
      | .full => .error (.other "No space left on device")
      | .caller stream => .ok { w with events := ⟨time, process, stream, bytes⟩ :: w.events }
      | .pipe n =>
        .ok { w with pipes := w.pipes.modify n fun p =>
          { p with
            chunks := (time, bytes) :: p.chunks
            size := p.size + 1
            closedAt := max p.closedAt time } }
      | .file l =>
        let old := (w.files.bytesAt l).toOption.getD []
        let place := if f.appends then old.length else f.place
        .ok { w with
          files := w.files.put l (.file (overwrite old place bytes))
          opened := w.opened.setIfInBounds number { f with place := place + bytes.length } }

/-- What is left to be read from an opened file, with the time at which it ends. -/
def unread (w : World) (number : Nat) : Input :=
  match w.opened[number]? with
  | none => .error badDescriptor
  | some f =>
    if !f.reads then .error badDescriptor
    else
      match f.target with
      | .nothing | .full | .caller _ => .ok ([], 0)
      | .directory => .error .isDirectory
      | .pipe n =>
        let p := (w.pipes[n]?).getD {}
        .ok (p.inOrder, p.closedAt)
      | .file l => .ok ([(0, ((w.files.bytesAt l).toOption.getD []).drop f.place)], 0)

/-- The chunks without their first `n` bytes. -/
def dropBytes : Nat → List Chunk → List Chunk
  | 0, chunks => chunks
  | _, [] => []
  | n + 1, (time, bytes) :: rest =>
    if bytes.length ≤ n + 1 then dropBytes (n + 1 - bytes.length) rest
    else (time, bytes.drop (n + 1)) :: rest

/-- Moves the place of an opened file forward. -/
def skip (w : World) (number n : Nat) : World :=
  match w.opened[number]? with
  | none => w
  | some f =>
    match f.target with
    | .pipe k =>
      { w with pipes := w.pipes.modify k fun p =>
        { p with chunks := (dropBytes n p.inOrder).reverse } }
    | .file _ => { w with opened := w.opened.setIfInBounds number { f with place := f.place + n } }
    | _ => w

end World

end ConversationFlow.Shell

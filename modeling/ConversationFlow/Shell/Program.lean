import ConversationFlow.Files.FileSystem
import ConversationFlow.Shell.Quoted

/-!
# Programs

A program is started with arguments, an environment, the files and what there is to be
read, and what it does is a value: what it prints and when, the files that it leaves, and
its status. All texts of programs hold bytes, one in each character.
-/

namespace ConversationFlow.Shell

/-! ## Devices

Some names in the directory of devices stand for no file: what takes everything, what takes
nothing, and a terminal that is not there. None of them gives anything to read.
-/

inductive Device where
  | null
  | full
  | terminal
deriving DecidableEq

namespace Device

def named? (path : Text) : Option Device :=
  match String.ofList path with
  | "/dev/null" => some null
  | "/dev/full" => some full
  | "/dev/tty" => some terminal
  | _ => none

/-- Why a device cannot be opened. -/
def fault? (d : Device) : Option FileError :=
  if d = terminal then some (.other "No such device or address") else none

/-- Whether a path names a device. -/
def isNamed (path : Text) : Bool := (named? path).isSome

end Device

/-- The bytes of a file or a device. -/
def contentAt (fs : FileSystem) (path : Text) : Except FileError Bytes :=
  match Device.named? path with
  | none => fs.read ⟨Text.ofBytesLossy (Text.toOctets path)⟩
  | some d =>
    match d.fault? with
    | some e => .error e
    | none => .ok []

/-! ## Calls -/

/-- The streams that a program prints to. -/
inductive Stream where
  | output
  | error
deriving DecidableEq

/-- Bytes with the time at which they came. -/
abbrev Chunk := Nat × Bytes

/-- The path that a text of a program names. -/
def pathOf (t : Text) : Path := ⟨Text.ofBytesLossy (Text.toOctets t)⟩

/-- The bytes of a text, each as a character. -/
def octets (t : Text) : Text := Text.ofOctets (Text.toBytes t)

/-- What programs say of a failed access. -/
def reason : FileError → Text
  | .notFound => "No such file or directory"
  | .permissionDenied => "Permission denied"
  | .alreadyExists => "File exists"
  | .notDirectory => "Not a directory"
  | .isDirectory => "Is a directory"
  | .nameTooLong => "File name too long"
  | .nulByte | .notText => "Invalid argument"
  | .other message => message

/-- What there is to be read, and the time at which it ends. -/
abbrev Input := Except FileError (List Chunk × Nat)

/-- What a program is started with. -/
structure Call where
  /-- What the program is called in its messages. -/
  name : Text
  arguments : List Text
  environment : List (Text × Text) := []
  files : FileSystem
  input : Input
  /-- The file that the input comes from, and the place there of what comes next. -/
  inputFile : Option (Location × Nat) := none
  /-- The file that the output goes to, and the place there of what comes next. -/
  output : Option (Location × Nat) := none
  /-- Whether there is an output. -/
  hasOutput : Bool := true

/-- What a program does. -/
structure Effect where
  status : Nat := 0
  /-- What it prints, each part with the time before which that cannot be. -/
  printed : List (Nat × Stream × Text) := []
  /-- The files that it leaves, if it changes any. -/
  files : Option FileSystem := none
  /-- Whether it reads to the end of its input. -/
  readsInput : Bool := false
  /-- How long it waits before it ends. -/
  pause : Nat := 0

namespace Effect

/-- Prints more. -/
def print (e : Effect) (t : Text) : Effect :=
  if t.isEmpty then e else { e with printed := e.printed ++ [(0, .output, t)] }

/-- Complains, which sets the status. -/
def complain (e : Effect) (status : Nat) (program t : Text) : Effect :=
  { e with
    status
    printed := e.printed ++ [(0, .error, program ++ (": " : Text) ++ t ++ ['\n'])] }

/-- The end of a program that was started wrongly. -/
def misuse (status : Nat) (program t : Text) : Effect :=
  ({} : Effect).complain status program
    (t ++ ("\nTry '" : Text) ++ program ++ (" --help' for more information." : Text))

end Effect

namespace Call

/-- The files that stand for what a program has open. -/
private def inputNames : List String := ["/dev/stdin", "/dev/fd/0", "/proc/self/fd/0"]

/-- What there is to be read from a file, and whether that is the input. -/
def read (c : Call) (name : Text) : Input × Bool :=
  if inputNames.any fun n => n.toList = name then (c.input, true)
  else
    match contentAt c.files name with
    | .ok bytes => (.ok ([(0, bytes)], 0), false)
    | .error e => (.error e, false)

end Call

end ConversationFlow.Shell

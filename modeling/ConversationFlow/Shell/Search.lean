import ConversationFlow.Shell.Machine

/-!
# Search for commands

The name of a command stands for a function, a command of the shell itself, or a program. A
program is looked for in the directories of the search path; a name with a slash is a path
already.
-/

namespace ConversationFlow.Shell

/-- A command of the shell itself. A special one ends the shell when it fails; one that
declares variables takes assignments as arguments; a regular one is known without a look at the
search path. -/
structure Builtin where
  name : String
  isSpecial : Bool := false
  isRegular : Bool := false
  declares : Bool := false

namespace Builtin

private def specials : List String :=
  [".", ":", "break", "continue", "eval", "exec", "exit", "return", "set", "shift", "times", "trap",
    "unset"]

private def regulars : List String :=
  ["alias", "bg", "cd", "chdir", "command", "false", "fg", "getopts", "jobs", "kill", "read", "true",
    "umask", "unalias", "wait"]

private def others : List String := ["echo", "hash", "printf", "pwd", "test", "[", "type", "ulimit"]

def all : List Builtin :=
  (specials.map fun name => { name, isSpecial := true })
    ++ (regulars.map fun name => { name, isRegular := true })
    ++ (["export", "local", "readonly"].map fun name => { name, isSpecial := true, declares := true })
    ++ (others.map fun name => { name := name })

def named? (name : Text) : Option Builtin := all.find? fun b => b.name.toList = name

end Builtin

/-- What the name of a command stands for. -/
inductive Meaning where
  | builtin (b : Builtin)
  | function (body : Command)
  | program (paths : List Text)
  | missing (cause : FileError)

/-- The search path where none is set. -/
def defaultSearchPath : Text := "/usr/local/sbin:/usr/local/bin:/usr/sbin:/usr/bin:/sbin:/bin"

namespace SearchPath

/-- The paths that a name has in the directories of a search path. -/
def candidates (path name : Text) : List Text :=
  (path.splitOn ':').map fun dir => if dir.isEmpty then name else dir ++ '/' :: name

/-- Whether a path leads to a file, or why there is none. -/
def fileAt (fs : FileSystem) (path : Text) : Except FileError Unit :=
  if (fs.programAt? path).isSome then .ok ()
  else
    match fs.locate (pathOf path) with
    | .error e => .error e
    | .ok l => if fs.node? l == some .directory then .error .permissionDenied else .ok ()

/-- Whether an error tells no more than that there is no such file. -/
def isAbsence (e : FileError) : Bool := e = .notFound || e = .notDirectory

/-- The paths from the first one on that leads to a file, or why there is none. -/
def find (fs : FileSystem) (paths : List Text) : Except FileError (List Text) :=
  go .notFound paths
where
  go (cause : FileError) : List Text → Except FileError (List Text)
  | [] => .error cause
  | p :: rest =>
    match fileAt fs p with
    | .ok _ => .ok (p :: rest)
    | .error e => go (if isAbsence e then cause else e) rest

/-- The program that is started by the first of some paths that can be, or why none can. -/
def start (fs : FileSystem) (paths : List Text) : Except FileError Text :=
  go .notFound paths
where
  go (cause : FileError) : List Text → Except FileError Text
  | [] => .error cause
  | p :: rest =>
    match fs.programAt? p with
    | some name => .ok name
    | none =>
      if Device.isNamed p then go .permissionDenied rest
      else match fs.locate (pathOf p) with
      | .ok _ => go .permissionDenied rest
      | .error e => go (if isAbsence e then cause else e) rest

/-- The paths under which a command is looked for. -/
def pathsOf (path name : Text) : List Text := if name.contains '/' then [name] else candidates path name

/-- The program that is started by a name, or why none is. The empty name names nothing. -/
def program (fs : FileSystem) (path name : Text) : Except FileError Text :=
  if name.isEmpty then .error .notFound else start fs (pathsOf path name)

end SearchPath

/-- What the shell says of a command that cannot be found. -/
def searchReason (e : FileError) : Text :=
  if SearchPath.isAbsence e then "not found" else reason e

namespace Machine

/-- The search path of the shell. -/
def searchPath (m : Machine) : Text := (m.get? "PATH").getD []

/-- What a name stands for. -/
def meaning (m : Machine) (skipsFunctions : Bool) (path name : Text) : Meaning :=
  if name.contains '/' then .program [name]
  else
    match if skipsFunctions then none else m.functions.get? name, Builtin.named? name with
    | some body, _ => .function body
    | none, some b => .builtin b
    | none, none =>
      match SearchPath.find m.world.files (SearchPath.candidates path name) with
      | .ok paths => .program paths
      | .error e => .missing e

end Machine

end ConversationFlow.Shell

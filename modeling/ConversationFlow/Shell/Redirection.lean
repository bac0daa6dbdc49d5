import ConversationFlow.Shell.Expansion

/-!
# Redirections

A redirection lets a descriptor lead to a file, to where another one leads, to a document, or
nowhere. The words in it are evaluated first; then the files are opened one after the other.
-/

namespace ConversationFlow.Shell

/-- A redirection whose words are evaluated. -/
inductive Change where
  | file (access : Access) (descriptor : Nat) (name : Text)
  | duplicate (descriptor : Nat) (source : Option Nat)
  | document (descriptor number : Nat)

namespace Change

def descriptor : Change → Nat
  | .file _ d _ | .duplicate d _ | .document d _ => d

end Change

namespace Redirection

/-- Evaluates the words of redirections. -/
def evaluate (output : Option Command → Action Text) (redirects : List Redirect) :
    Action (List Change) :=
  redirects.mapM fun
    | .file access d target => return .file access d (← Expansion.text output target)
    | .document d number => return .document d number
    | .duplicate d target => do
      match ← Expansion.text output target with
      | ['-'] => return .duplicate d none
      | [c] =>
        if Text.isDigit c then return .duplicate d (some (c.toNat - '0'.toNat))
        else Action.fail "Syntax error: Bad fd number"
      | _ => Action.fail "Syntax error: Bad fd number"

/-- The descriptor that a file stands for. -/
private def standsFor? (name : Text) : Option Nat :=
  match String.ofList name with
  | "/dev/stdin" => some 0
  | "/dev/stdout" => some 1
  | "/dev/stderr" => some 2
  | _ =>
    match Text.after? "/dev/fd/" name <|> Text.after? "/proc/self/fd/" name with
    | some [c] => if Text.isDigit c then some (c.toNat - '0'.toNat) else none
    | _ => none

private def creationReason (e : FileError) : Text :=
  if e = .notFound || e = .notDirectory then "Directory nonexistent" else reason e

private def openingReason (e : FileError) : Text :=
  if e = .notFound || e = .notDirectory then "No such file" else reason e

/-- Opens an existing file. -/
private def openExisting (access : Access) (l : Location) (isDirectory : Bool) :
    Except FileError OpenFile :=
  match access with
  | .read => .ok { target := if isDirectory then .directory else .file l, reads := true }
  | .append =>
    if isDirectory then .error .isDirectory
    else .ok { target := .file l, writes := true, appends := true }
  | .readWrite =>
    if isDirectory then .error .isDirectory
    else .ok { target := .file l, reads := true, writes := true }
  | .write _ =>
    if isDirectory then .error .isDirectory else .ok { target := .file l, writes := true }

/-- Opens a file, which is made or emptied where the access asks for that. -/
private def openFile (fs : FileSystem) (keeps : Bool) (access : Access) (name : Text) :
    Except FileError (OpenFile × FileSystem) := do
  let path := pathOf name
  match fs.locate path, access with
  | .ok l, access =>
    let isDirectory := fs.node? l == some .directory
    match access with
    | .write insists =>
      if keeps && !insists && !isDirectory then throw .alreadyExists
      let f ← openExisting access l isDirectory
      return (f, ← fs.write path [])
    | access => return (← openExisting access l isDirectory, fs)
  | .error e, .read => throw e
  | .error _, access =>
    let made ← fs.write path []
    let l ← made.locate path
    return (← openExisting access l false, made)

/-- Opens a file for a descriptor. -/
private def openTarget (access : Access) (name : Text) : Action Nat := do
  let m ← get
  let cannot {α : Type} (e : FileError) : Action α :=
    match access with
    | .read => Action.fail (("cannot open " : Text) ++ name ++ (": " : Text) ++ openingReason e)
    | _ => Action.fail (("cannot create " : Text) ++ name ++ (": " : Text) ++ creationReason e)
  let keep (f : OpenFile) (files : FileSystem) : Action Nat := do
    let (world, number) := { m.world with files }.keep f
    set { m with world }
    return number
  match Device.named? name, standsFor? name with
    | some d, _ =>
      match d.fault? with
      | some e => cannot e
      | none =>
        keep { target := if d = .full then .full else .nothing, reads := true, writes := true }
          m.world.files
    | none, some d =>
      match m.opened? d with
      | some number => return number
      | none => cannot .notFound
    | none, none =>
      match openFile m.world.files (m.hasOption 'C') access name with
      | .ok (f, files) => keep f files
      | .error e => cannot e

/-- Carries out a redirection. -/
private def carryOut (output : Option Command → Action Text) (c : Change) : Action Unit := do
  match c with
  | .file access d name =>
    let number ← openTarget access name
    modify fun m => m.redirect d (some number)
  | .duplicate d none => modify fun m => m.redirect d none
  | .duplicate d (some source) =>
    if source ≠ d then
      match (← get).opened? source with
      | some number => modify fun m => m.redirect d (some number)
      | none => Action.fail (Text.ofNat source ++ (": Bad file descriptor" : Text))
  | .document d number =>
    let body := ((← get).world.documents[number]?).getD []
    let t ← Expansion.document output body
    let m ← get
    let (world, number) := m.world.source (Text.toOctets t)
    set { m with world }
    modify fun m => m.redirect d (some number)

/-- Carries out redirections in order. -/
def apply (output : Option Command → Action Text) (changes : List Change) : Action Unit :=
  changes.forM (carryOut output)

/-- Where the descriptors lead that redirections change. -/
def before (m : Machine) (changes : List Change) : List (Nat × Option Nat) :=
  changes.map fun c => (c.descriptor, m.opened? c.descriptor)

/-- Lets descriptors lead again to where they led. -/
def restore (saved : List (Nat × Option Nat)) : Action Unit :=
  modify fun m => saved.foldl (fun m s => m.redirect s.1 s.2) m

end Redirection

end ConversationFlow.Shell

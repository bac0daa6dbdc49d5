import ConversationFlow.Checkout.Settings
import ConversationFlow.Files.FileSystem

/-!
# Repositories

A repository is a directory with records of commits and references. It may share the records of
another one and keep only its own position. A directory belongs to the repository in it or in the
nearest directory above it; what is wrong there ends the search without one.
-/

namespace ConversationFlow.Checkout

/-! ## Packed references

Many references may share one file. A record is a commit, a blank and a name on a line; lines with a
caret behind it belong to it. A file that does not say that it is sorted is sorted before it is
searched. The search halves the text, so a file that says so without being sorted hides names. -/

/-- The records of a file, each with its length and with all the text from it on. -/
structure PackedReferences where
  digits : Nat
  records : List (Nat × Text) := []

namespace PackedReferences

/-- The length of the record that a text begins with. -/
private def recordLength : Text → Nat
  | [] => 0
  | ['\n'] => 1
  | '\n' :: c :: t => if c = '^' then 1 + recordLength (c :: t) else 1
  | _ :: t => 1 + recordLength t

private def recordsOf : (fuel : Nat) → Text → List (Nat × Text)
  | 0, _ | _, [] => []
  | fuel + 1, t =>
    let n := recordLength t
    (n, t) :: recordsOf fuel (t.drop n)

/-- The name in the record that a text begins with. -/
private def nameAt (digits : Nat) (t : Text) : Text := (t.drop (digits + 1)).takeWhile (· ≠ '\n')

/-- The records in the order of their names, of lines without their ends. At most one line with a
caret goes along with the line before it. -/
private def sorted? (digits : Nat) (lines : List Text) : Option Text := do
  let records ← group lines
  let inOrder := records.mergeSort fun a b =>
    !Text.before (nameAt digits b) (nameAt digits a)
  return inOrder.flatten
where
  group : List Text → Option (List Text)
    | [] => some []
    | [line] => if line.length < digits + 2 then none else some [line ++ ['\n']]
    | line :: next :: rest =>
      if line.length < digits + 2 then none
      else if next.head? = some '^' then
        (group rest).map ((line ++ '\n' :: next ++ ['\n']) :: ·)
      else (group (next :: rest)).map ((line ++ ['\n']) :: ·)

/-- The records of a file, unless it is ill-formed. -/
def ofText? (digits : Nat) (t : Text) : Option PackedReferences := do
  let (traits, body) ← match t with
    | '#' :: rest => do
      let (title, body) ← Text.cutAt? '\n' rest
      some ((← Text.after? " pack-refs with:" title).splitOn ' ', body)
    | t => some ([], t)
  let records := recordsOf body.length body
  match records.getLast? with
  | none => return { digits := digits }
  | some (length, _) =>
    guard (body.getLast? = some '\n' && digits + 2 ≤ length)
    if traits.contains "sorted".toList then
      return { digits := digits, records := records }
    else
      let body ← sorted? digits (body.dropLast.splitOn '\n')
      return { digits := digits, records := recordsOf body.length body }

/-- The records before the one that holds a place in the text, and those from it on. -/
private def splitAt : (place : Nat) → List (Nat × Text) → List (Nat × Text) × List (Nat × Text)
  | _, [] => ([], [])
  | place, r :: rest =>
    if place < r.1 then ([], r :: rest)
    else
      let (before, after) := splitAt (place - r.1) rest
      (r :: before, after)

private def search (digits : Nat) (name : Text) :
    (fuel : Nat) → List (Nat × Text) → Option Text
  | 0, _ | _, [] => none
  | fuel + 1, records =>
    let half := (records.foldl (fun n r => n + r.1) 0) / 2
    let (before, after) := splitAt half records
    match after with
    | [] => none
    | r :: after =>
      let found := nameAt digits r.2
      if found = name then some (r.2.take digits)
      else search digits name fuel (if Text.before found name then after else before)

/-- What the record of a name says that it means. -/
def lookup? (p : PackedReferences) (name : Text) : Option Text :=
  search p.digits name (p.records.length + 1) p.records

end PackedReferences

/-! ## Records -/

/-- The bytes of a file as characters. -/
def octetsAt (fs : FileSystem) (l : Location) : Option Text :=
  (fs.bytesAt l).toOption.map Text.ofOctets

/-- The text that the bytes behind some characters write, up to a zero byte. -/
def decoded (t : Text) : Text :=
  Text.ofBytesLossy (Text.toOctets (t.takeWhile (· ≠ Char.ofNat 0)))

def isHexDigit (c : Char) : Bool :=
  Text.isDigit c || ('a' ≤ c && c ≤ 'f') || ('A' ≤ c && c ≤ 'F')

/-- Whether a text begins with the digits of a commit. -/
def startsWithCommit (digits : Nat) (t : Text) : Bool :=
  (t.take digits).length = digits && (t.take digits).all isHexDigit

/-! ## The search -/

/-- What the search for a repository meets. -/
inductive Finding where
  | nothing
  | refusal
  | found (own shared : Location)
deriving DecidableEq

/-- A text without the line breaks at its end. -/
private def withoutBreaks (t : Text) : Text :=
  (t.reverse.dropWhile fun c => c = '\n' || c = '\r').reverse

/-- Whether a position is recorded: a reference or a commit. -/
private def hasPosition (fs : FileSystem) (l : Location) : Bool :=
  match octetsAt fs (l.child "HEAD") with
  | none => false
  | some t =>
    let t := t.take 255
    match Text.after? "ref:" t with
    | some name => Text.startsWith "refs/" (name.dropWhile Setting.isSpace)
    | none => startsWithCommit 40 t

/-- Where the records are shared that a repository has no part of its own in. -/
private def sharedBy (fs : FileSystem) (l : Location) : Except Finding Location :=
  match fs.node? (l.child "commondir") with
  | none => .ok l
  | some .directory => .error .refusal
  | some (.file bytes) =>
    if bytes.isEmpty then .error .refusal
    else
      let name := decoded (withoutBreaks (Text.ofOctets bytes))
      let fs := { fs with cwd := l }
      let path : Path := if name.head? = some '/' then ⟨name⟩ else ⟨'.' :: '/' :: name⟩
      match fs.locate path, fs.locate (path.parent?.getD path) with
      | .ok there, _ => .ok there
      | .error _, .ok above =>
        .error (if fs.node? above = some .directory then .nothing else .refusal)
      | .error _, .error _ => .error .refusal

/-- Whether a location is a repository. -/
private def repositoryAt (fs : FileSystem) (l : Location) : Finding :=
  if !hasPosition fs l then .nothing
  else match sharedBy fs l with
    | .error f => f
    | .ok shared =>
      if fs.node? (shared.child "objects") = some .directory
          && fs.node? (shared.child "refs") = some .directory
      then .found l shared else .nothing

/-- The repository that a directory names: the one in it, the one its note points to, or itself. -/
private def namedBy (fs : FileSystem) (l : Location) : Finding :=
  let own := l.child ".git"
  match fs.node? own with
  | some (.file bytes) =>
    match Text.after? "gitdir: " (withoutBreaks (Text.ofOctets bytes)) with
    | none | some [] => .refusal
    | some path =>
      match { fs with cwd := l }.locate ⟨decoded path⟩ with
      | .error _ => .refusal
      | .ok there =>
        match repositoryAt fs there with
        | .nothing => .refusal
        | f => f
  | _ =>
    match repositoryAt fs own with
    | .nothing => repositoryAt fs l
    | f => f

/-- What the nearest directory says that names a repository, from a directory upwards. -/
def search (fs : FileSystem) (l : Location) : Finding :=
  let above := (List.range (l.length + 1)).map fun n => l.take (l.length - n)
  ((above.map (namedBy fs)).find? (· ≠ .nothing)).getD .nothing

/-- A repository that was opened: how many digits a commit has, how many of them are shown if that
is said, whether a short name must mean nothing else, and the references that share one file. -/
structure Repository where
  own : Location
  shared : Location
  digits : Nat := 40
  shownDigits : Option Nat := none
  isStrict : Bool := true
  packed : PackedReferences

end ConversationFlow.Checkout

import ConversationFlow.Context.Error
import ConversationFlow.Text.Case
import ConversationFlow.Value.Basic

/-!
# References to lines of files

A reference is `@path`, `@path#L10`, `@path#L10-L20` or `@path#L10-`: a file, or the
lines of it from the first to the last, both included. An excerpt shows the lines
with their numbers.
-/

namespace ConversationFlow

/-- A file and, with a range, its first line and its last. A range without a last line goes
to the end of the file. -/
structure Reference where
  raw : Text
  path : Text
  first : Option Nat
  last : Option Nat
deriving DecidableEq

namespace Reference

/-- The two numbers of a range as they are written; the second is missing, or left open. -/
inductive RangeText where
  | single (first : Text)
  | openEnd (first : Text)
  | closed (first last : Text)
deriving DecidableEq

/-- Splits `L<n>`, `L<n>-`, `L<n>-<m>` or `L<n>-L<m>`, with digits of any script. -/
def RangeText.read? (t : Text) : Option RangeText :=
  match t with
  | 'L' :: rest =>
    let first := rest.takeWhile Text.isDecimalDigit
    if first.isEmpty then none
    else
      match rest.dropWhile Text.isDecimalDigit with
      | [] => some (.single first)
      | ['-'] => some (.openEnd first)
      | '-' :: more =>
        let last := match more with | 'L' :: r => r | r => r
        if !last.isEmpty && last.all Text.isDecimalDigit then some (.closed first last) else none
      | _ => none
  | _ => none

/-- A line number below `2 ^ 64` in ASCII digits. -/
def lineNumber (t : Text) : Except RangeFault Nat :=
  match Text.toNat? t with
  | some n => if n < wordSize 64 then .ok n else .error .tooLarge
  | none => .error .tooLarge

/-- A first line, counted from 1. -/
def firstLine (t : Text) : Except RangeFault Nat := do
  let n ← lineNumber t
  if n = 0 then .error .zero else .ok n

/-- The first and the last line of a range. -/
def range (t : Text) : Except RangeFault (Nat × Option Nat) :=
  match RangeText.read? t with
  | none => .error .formExpected
  | some (.single first) => do
    let n ← firstLine first
    return (n, some n)
  | some (.openEnd first) => do
    let n ← firstLine first
    return (n, none)
  | some (.closed first last) => do
    let n ← firstLine first
    let m ← lineNumber last
    if m < n then .error .reversed else .ok (n, some m)

/-- Reads a reference. -/
def read (reference : Text) : Except ContextError Reference :=
  let raw := Text.trim reference
  let body := raw.dropWhile (· = '@')
  let (path, rangeText) : Text × Option Text :=
    match Text.cutAt? '#' body with
    | some (p, r) => (p, some r)
    | none => (body, none)
  if path.isEmpty then .error (.invalidPattern raw .pathMissing)
  else
    match rangeText.map range with
    | none => .ok ⟨raw, path, none, none⟩
    | some (.ok (n, m)) => .ok ⟨raw, path, some n, m⟩
    | some (.error fault) => .error (.invalidRange raw fault)

/-- The file of a reference: below the working directory, else below that of the workflow. -/
def locate (r : Reference) (fs : FileSystem) (cwd workflowDir : Path) :
    Except ContextError Path :=
  let path : Path := ⟨r.path⟩
  let candidates := if path.isAbsolute then [path] else [cwd.join path, workflowDir.join path]
  match candidates.find? fs.isFile with
  | some p => .ok p
  | none => .error (.fileNotFound (cwd.join path))

/-- A line behind its number. -/
def numbered (width : Nat) (number : Nat) (line : Text) : Text :=
  Text.padLeft width (Text.ofNat number) ++ " | " ++ line

/-- The excerpt of a file's lines, or `none` if the first line lies past the end. -/
def excerptOf? (r : Reference) (lines : List Text) : Option Text :=
  let start := r.first.getD 1
  if !lines.isEmpty && lines.length < start then none
  else
    let stop := match r.last with | some m => min m lines.length | none => lines.length
    let width := (Text.ofNat (max 1 stop)).length
    let shown := (lines.drop (start - 1)).take (stop - (start - 1))
    let body := shown.mapIdx fun i line => numbered width (start + i) line
    let header : Text :=
      match r.first with
      | some _ =>
        "### " ++ r.path ++ " (lines " ++ Text.ofNat start ++ "-" ++ Text.ofNat stop ++ ")"
      | none => "### " ++ r.path
    some (header ++ "\n```\n" ++ Text.unlines body ++ "\n```")

/-- The excerpt that a reference shows. -/
def excerpt (fs : FileSystem) (cwd workflowDir : Path) (reference : Text) :
    Except ContextError Text := do
  let r ← read reference
  let path ← r.locate fs cwd workflowDir
  match fs.readText path with
  | .error cause => .error (.io path cause)
  | .ok content =>
    let lines := Text.lines content
    match r.excerptOf? lines with
    | some t => .ok t
    | none => .error (.invalidRange r.raw (.pastEnd lines.length))

/-- The excerpts of several references, blank lines between them. -/
def excerpts (fs : FileSystem) (cwd workflowDir : Path) (references : List Text) :
    Except ContextError Text := do
  return Text.join "\n\n" (← references.mapM (excerpt fs cwd workflowDir))

end Reference

end ConversationFlow

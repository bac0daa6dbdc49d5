import ConversationFlow.Shell.Arithmetic
import ConversationFlow.Shell.Options
import ConversationFlow.Shell.Program

/-!
# Contents of files

Programs that copy their input, select lines of it or count in it.
-/

/-! ## Lines -/

namespace ConversationFlow.Shell.Lines

/-- The lines of a text, each with the line feed that ends it. -/
def split (t : Text) : List Text := go [] t
where
  /-- `seen` holds the current line in reverse. -/
  go (seen : Text) : Text → List Text
  | [] => if seen.isEmpty then [] else [seen.reverse]
  | c :: t => if c = '\n' then (c :: seen).reverse :: go [] t else go (c :: seen) t

/-- A file that was read, under its name. -/
private structure Reading where
  name : Option Text
  text : Text

/-- The files that operands name, or the input, with the complaints about those that cannot be
read. -/
private def sources (c : Call) (wording : Text → Text → Text) (status : Nat)
    (names : List Text) : List Reading × Effect :=
  let textOf (chunks : List Chunk) : Text := chunks.flatMap fun k => Text.ofOctets k.2
  let named := if names.isEmpty then [none] else names.map some
  let (read, e) := named.foldl (fun (read, e) name =>
    let (input, isInput) := match name with
      | none | some ['-'] => (c.input, true)
      | some n => c.read n
    match input with
    | .ok (chunks, _) =>
      (⟨name, textOf chunks⟩ :: read, { e with readsInput := e.readsInput || isInput })
    | .error cause =>
      (read, e.complain status c.name (wording (name.getD ['-']) (reason cause))))
    (([] : List Reading), ({} : Effect))
  (read.reverse, e)

private def plainWording (name why : Text) : Text := Quoted.needed true name ++ (": " : Text) ++ why

private def openWording (name why : Text) : Text :=
  if why = reason .isDirectory then ("error reading " : Text) ++ Quoted.always name ++ (": " : Text) ++ why
  else ("cannot open " : Text) ++ Quoted.always name ++ (" for reading: " : Text) ++ why

/-- An option of digits alone, written as one with a value. -/
private def withDigits (arguments : List Text) : List Text :=
  match arguments with
  | ('-' :: d :: t) :: rest => if Text.isDigit d then ['-', 'n'] :: (d :: t) :: rest else arguments
  | _ => arguments

private def selection (c : Call) (select : (sign : Option Char) → Nat → List Text → List Text)
    (selectBytes : (sign : Option Char) → Nat → Text → Text) : Effect :=
  let table : OptionTable :=
    { letters := [('n', .always), ('c', .always), ('q', .never), ('v', .never)]
      names := [("lines", .always, 'n'), ("bytes", .always, 'c'), ("quiet", .never, 'q'),
        ("silent", .never, 'q'), ("verbose", .never, 'v')] }
  match table.read (withDigits c.arguments) with
  | .error message => .misuse 1 c.name message
  | .ok parsed =>
    let count : Text → Option (Option Char × Nat)
      | '-' :: t => (Text.toNat? t).map (some '-', ·)
      | '+' :: t => (Text.toNat? t).map (some '+', ·)
      | t => (Text.toNat? t).map (none, ·)
    let inBytes := (parsed.options.reverse.find? fun o => o.1 = 'n' || o.1 = 'c').any (·.1 = 'c')
    let written := (parsed.value? (if inBytes then 'c' else 'n')).getD "10"
    match count written with
    | none =>
      ({} : Effect).complain 1 c.name (("invalid number of " : Text)
        ++ (if inBytes then "bytes" else "lines") ++ (": " : Text) ++ Quoted.plain written)
    | some (sign, n) =>
      let (read, e) := sources c openWording 1 parsed.operands
      let headed := (1 < parsed.operands.length && !parsed.has 'q') || parsed.has 'v'
      let shown := read.map fun r =>
        let body := if inBytes then selectBytes sign n r.text else (select sign n (split r.text)).flatten
        let name := match r.name with
          | none | some ['-'] => "standard input".toList
          | some name => name
        (if headed then ("==> " : Text) ++ name ++ (" <==\n" : Text) else []) ++ body
      e.print (Text.join (if headed then ['\n'] else []) shown)

/-- Prints the first lines of files. -/
def head (c : Call) : Effect :=
  selection c
    (fun sign n lines => if sign = some '-' then lines.take (lines.length - n) else lines.take n)
    (fun sign n t => if sign = some '-' then t.take (t.length - n) else t.take n)

/-- Prints the last lines of files. -/
def tail (c : Call) : Effect :=
  selection c
    (fun sign n lines => if sign = some '+' then lines.drop (n - 1) else lines.drop (lines.length - n))
    (fun sign n t => if sign = some '+' then t.drop (n - 1) else t.drop (t.length - n))

/-- Counts lines, words and bytes. -/
def count (c : Call) : Effect :=
  let table : OptionTable :=
    { letters := ['l', 'w', 'c', 'm', 'L'].map (·, .never)
      names := [("lines", .never, 'l'), ("words", .never, 'w'), ("bytes", .never, 'c'),
        ("chars", .never, 'm')] }
  match table.read c.arguments with
  | .error message => .misuse 1 c.name message
  | .ok parsed =>
    let letters := ['l', 'w', 'm', 'c'].filter parsed.has
    let letters := if letters.isEmpty then ['l', 'w', 'c'] else letters
    let (read, e) := sources c plainWording 1 parsed.operands
    let number (t : Text) (letter : Char) : Nat :=
      if letter = 'l' then t.count '\n'
      else if letter = 'w' then ((t.splitOnP isSpace).filter fun w => !w.isEmpty).length
      else t.length
    let rows := read.map fun r => (letters.map (number r.text), r.name)
    let total := letters.map fun letter => (read.map fun r => number r.text letter).foldr (· + ·) 0
    let rows := if 1 < parsed.operands.length then rows ++ [(total, some "total".toList)] else rows
    let bytes := (read.map fun r => r.text.length).foldr (· + ·) 0
    let width :=
      if letters.length = 1 && rows.length ≤ 1 then 1
      else if parsed.operands.isEmpty then 7
      else (Text.ofNat bytes).length
    e.print (rows.flatMap fun (numbers, name) =>
      Text.join [' '] (numbers.map fun n => Text.padLeft width (Text.ofNat n))
        ++ (match name with
          | some n => ' ' :: n
          | none => []) ++ ['\n'])

end ConversationFlow.Shell.Lines

/-! ## Concatenation

Files are copied to the output one behind the other. On the way lines can be numbered, empty
lines thinned out, and characters that cannot be seen made visible. A line may begin in one
file and end in the next.
-/

namespace ConversationFlow.Shell.Concatenation

private def options : OptionTable where
  letters := ['A', 'b', 'e', 'E', 'n', 's', 't', 'T', 'u', 'v'].map (·, .never)
  names := [("number-nonblank", .never, 'b'), ("number", .never, 'n'),
    ("squeeze-blank", .never, 's'), ("show-nonprinting", .never, 'v'), ("show-ends", .never, 'E'),
    ("show-tabs", .never, 'T'), ("show-all", .never, 'A')]

/-- What is changed on the way. -/
private structure Style where
  numbers : Bool
  onlyFilled : Bool
  thins : Bool
  showsEnds : Bool
  showsTabs : Bool
  showsHidden : Bool

private def Style.of (p : Parsed) : Style where
  numbers := p.has 'n' || p.has 'b'
  onlyFilled := p.has 'b'
  thins := p.has 's'
  showsEnds := ['E', 'e', 'A'].any p.has
  showsTabs := ['T', 't', 'A'].any p.has
  showsHidden := ['v', 'e', 't', 'A'].any p.has

/-- Where the copying is: inside a line, or behind so many empty ones. A carriage return waits
for the character behind it. -/
private structure State where
  inLine : Bool := false
  empty : Nat := 0
  number : Nat := 0
  waiting : Bool := false

/-- A character that cannot be seen, made visible. -/
private def shown (showsTabs : Bool) (c : Char) : Text :=
  let low (n : Nat) : Text :=
    if n < 32 then ['^', Char.ofNat (n + 64)]
    else if n = 127 then ['^', '?']
    else [Char.ofNat n]
  if c = '\t' && !showsTabs then [c]
  else if c.toNat < 128 then low c.toNat
  else 'M' :: '-' :: low (c.toNat - 128)

private def numbered (s : State) : State × Text :=
  let n := s.number + 1
  ({ s with number := n }, Text.padLeft 6 (Text.ofNat n) ++ ['\t'])

/-- What a character becomes. -/
private def copy (style : Style) (s : State) (c : Char) : State × Text :=
  let front : Text := if s.waiting then (if c = '\n' then "^M" else ['\r']) else []
  let s := { s with waiting := false }
  if c = '\n' then
    let ending : Text := front ++ (if style.showsEnds then ['$', '\n'] else ['\n'])
    if s.inLine then ({ s with inLine := false, empty := 0 }, ending)
    else if 1 ≤ s.empty && style.thins then ({ s with empty := 2 }, [])
    else
      let (s, number) := if style.numbers && !style.onlyFilled then numbered s else (s, [])
      ({ s with empty := s.empty + 1 }, number ++ ending)
  else
    let (s, number) := if style.numbers && !s.inLine then numbered s else (s, [])
    let s := { s with inLine := true }
    if style.showsHidden then (s, number ++ shown style.showsTabs c)
    else if c = '\t' && style.showsTabs then (s, front ++ number ++ ['^', 'I'])
    else if c = '\r' && style.showsEnds then ({ s with waiting := true }, front ++ number)
    else (s, front ++ number ++ [c])

private def copyAll (style : Style) (s : State) (t : Text) : State × Text :=
  let (s, parts) := t.foldl (fun (s, parts) c =>
    let (s, out) := copy style s c
    (s, out :: parts)) (s, [])
  (s, parts.reverse.flatten)

/-- Whether the file to be copied from a place on is the one that the copies go to, which holds more
than that with what is printed so far. -/
private def feedsItself (c : Call) (e : Effect) (source : Option (Location × Nat)) : Bool :=
  match c.output, source with
  | some (l, place), some (m, start) =>
    let size := ((c.files.bytesAt l).toOption.getD []).length
    let printed := e.printed.foldl (fun n p => if p.2.1 = .output then n + p.2.2.length else n) 0
    l = m && start < max size (if printed = 0 then 0 else place + printed)
  | _, _ => false

private def copyFile (c : Call) (style : Style) (s : State) (e : Effect) (name : Text) :
    State × Effect :=
  let (source, isInput) := if name = ['-'] then (c.input, true) else c.read name
  let source : Input := if isInput && e.readsInput then .ok ([], 0) else source
  let label := Quoted.needed true name
  match source with
  | .error cause => (s, e.complain 1 c.name (label ++ (": " : Text) ++ reason cause))
  | .ok (chunks, _) =>
    let file := if isInput then c.inputFile
      else (c.files.locate (pathOf name)).toOption.map (·, 0)
    if feedsItself c e file then
      (s, e.complain 1 c.name (label ++ (": input file is output file" : Text)))
    else
      let (s, printed) := chunks.foldl (fun (s, printed) (time, bytes) =>
        let (s, out) := copyAll style s (Text.ofOctets bytes)
        (s, (time, Stream.output, out) :: printed)) (s, [])
      (s, { e with
        printed := e.printed ++ printed.reverse
        readsInput := e.readsInput || isInput })

private def copyFiles (c : Call) (style : Style) (names : List Text) : Effect :=
  let (s, e) := names.foldl (fun (s, e) name => copyFile c style s e name) ({}, {})
  let e := if s.waiting then e.print ['\r'] else e
  match c.input with
  | .error (.other message) =>
    if names.contains ['-'] then
      e.complain 1 c.name (("closing standard input: " : Text) ++ message)
    else e
  | _ => e

/-- Copies files, or the input where none are named. -/
def run (c : Call) : Effect :=
  match options.read c.arguments with
  | .error message => .misuse 1 c.name message
  | .ok parsed =>
    if c.hasOutput then
      copyFiles c (.of parsed) (if parsed.operands.isEmpty then [['-']] else parsed.operands)
    else ({} : Effect).complain 1 c.name "standard output: Bad file descriptor"

end ConversationFlow.Shell.Concatenation

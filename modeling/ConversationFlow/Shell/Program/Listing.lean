import ConversationFlow.Shell.Options
import ConversationFlow.Shell.Pattern
import ConversationFlow.Shell.Program

/-!
# Listings of directories

Files are listed first and then what is in each directory, under its name where more than
one thing is listed. Names stand on lines of their own, in columns, or behind commas.
-/

/-! ## Order of versions

Names that hold numbers are put in the order of these numbers. Endings that name kinds of files
are left out at first, and count where the rest is the same. -/

namespace ConversationFlow.Shell.VersionOrder

/-- The length of the ending that begins with a text: dots, each before a letter or a tilde and
what follows of letters, digits and tildes. -/
private def isEnding : Nat → Text → Bool
  | _, [] => true
  | 0, _ => false
  | fuel + 1, '.' :: c :: t =>
    (c.isAlpha || c = '~')
      && isEnding fuel (t.dropWhile fun c => Text.isAlphanumeric c || c = '~')
  | _, _ => false

/-- A name without its ending. Its first character is kept. -/
private def stem : Text → Text
  | [] => []
  | c :: t => c :: go t
where
  go : Text → Text
  | [] => []
  | c :: t => if isEnding (t.length + 1) (c :: t) then [] else c :: go t

/-- What a character that is no digit counts. The end of a text counts less than all but a tilde,
and letters less than other signs. -/
private def weight : Option Char → Int
  | none => -1
  | some c =>
    if Text.isDigit c then 0
    else if c.isAlpha then c.toNat
    else if c = '~' then -2
    else c.toNat + 256

private def isWord (t : Text) : Bool := t.head?.any fun c => !Text.isDigit c

/-- How texts of words and numbers compare: below, at or above zero. -/
private def compare : Nat → Text → Text → Int
  | 0, _, _ => 0
  | fuel + 1, a, b =>
    if a.isEmpty && b.isEmpty then 0
    else if isWord a || isWord b then
      let x := weight a.head?
      let y := weight b.head?
      if x ≠ y then x - y else compare fuel a.tail b.tail
    else
      let a := a.dropWhile (· = '0')
      let b := b.dropWhile (· = '0')
      let m := a.takeWhile Text.isDigit
      let n := b.takeWhile Text.isDigit
      if n.length < m.length then 1
      else if m.length < n.length then -1
      else if Text.before m n then -1
      else if Text.before n m then 1
      else compare fuel (a.drop m.length) (b.drop n.length)

/-- Where a name stands by its dots: one dot, two dots, other names with a dot in front, others. -/
private def rank (t : Text) : Nat :=
  if t = ['.'] then 0 else if t = ['.', '.'] then 1 else if t.head? = some '.' then 2 else 3

/-- Whether a name does not come behind another one. -/
def atMost (a b : Text) : Bool :=
  let fuel := a.length + b.length + 2
  if rank a ≠ rank b then rank a < rank b
  else
    let short := compare fuel (stem a) (stem b)
    if short ≠ 0 then short < 0
    else
      let whole := compare fuel a b
      if whole ≠ 0 then whole < 0 else !Text.before b a

end ConversationFlow.Shell.VersionOrder

/-! ## Listings -/

namespace ConversationFlow.Shell.Listing

private def options : OptionTable where
  letters := "abcdfghiklmnopqrstuvxABCDFGHLNQRSUXZ1".toList.map (·, .never)
    ++ [('I', .always), ('w', .always), ('T', .always)]
  names := [("all", .never, 'a'), ("escape", .never, 'b'), ("directory", .never, 'd'),
    ("dired", .never, 'D'), ("full-time", .never, 'l'), ("group-directories-first", .never, '/'),
    ("human-readable", .never, 'h'), ("inode", .never, 'i'), ("kibibytes", .never, 'k'),
    ("numeric-uid-gid", .never, 'n'), ("no-group", .never, 'G'),
    ("hide-control-chars", .never, 'q'), ("reverse", .never, 'r'), ("size", .never, 's'),
    ("width", .always, 'w'), ("almost-all", .never, 'A'), ("ignore-backups", .never, 'B'),
    ("classify", .optional, 'F'), ("file-type", .never, 'y'), ("si", .never, 'h'),
    ("dereference-command-line", .never, 'H'),
    ("dereference-command-line-symlink-to-dir", .never, 'K'), ("hide", .always, 'e'),
    ("ignore", .always, 'I'), ("indicator-style", .always, 'j'), ("dereference", .never, 'L'),
    ("literal", .never, 'N'), ("quote-name", .never, 'Q'), ("quoting-style", .always, 'z'),
    ("recursive", .never, 'R'), ("format", .always, 'M'), ("show-control-chars", .never, 'V'),
    ("sort", .always, 'W'), ("tabsize", .always, 'T'), ("time", .always, 'Y'),
    ("time-style", .always, 'J'), ("zero", .never, '0'), ("color", .optional, 'E'),
    ("hyperlink", .optional, 'P'), ("block-size", .always, '%'), ("context", .never, 'Z'),
    ("author", .never, 'O'), ("help", .never, '?'), ("version", .never, '?')]

/-- A name that is listed. -/
private structure Entry where
  name : Text
  isDirectory : Bool
  size : Nat

/-- The size that a directory tells. -/
private def directorySize : Nat := 4096

private def Entry.of (name : Text) : Option FileNode → Entry
  | some (.file bytes) => ⟨name, false, bytes.length⟩
  | _ => ⟨name, true, directorySize⟩

/-- How names stand on lines. -/
private inductive Layout where
  | lines
  | downColumns
  | acrossColumns
  | commas

/-- How names are put in order. -/
private inductive Order where
  | name
  | size
  | ending
  | version
  | width
  | none

/-- How names are written. -/
private inductive Writing where
  | plain
  | literal
  | alwaysLiteral
  | needed
  | always
  | double
  | maybeDouble
  | escaped
  | single

/-- Which names are left out. -/
private inductive Omission where
  | hidden
  | around
  | nothing

private structure Style where
  layout : Layout := .lines
  order : Order := .name
  writing : Writing := .plain
  omission : Omission := .hidden
  masks : Bool := false
  marks : Bool := false
  sizes : Bool := false
  reversed : Bool := false
  directoriesFirst : Bool := false
  itself : Bool := false
  deep : Bool := false
  skipsBackups : Bool := false
  ignored : List Text := []
  hiddenToo : List Text := []
  width : Nat := 80
  tab : Nat := 8
  ending : Char := '\n'

private def layouts : Choices :=
  [["verbose", "long"], ["commas"], ["horizontal", "across"], ["vertical"], ["single-column"]]

private def orders : Choices := [["none"], ["time"], ["size"], ["extension"], ["version"], ["width"]]

private def times : Choices := [["atime", "access", "use"], ["ctime", "status"],
  ["mtime", "modification"], ["birth", "creation"]]

private def indicators : Choices := [["none"], ["slash"], ["file-type"], ["classify"]]

private def writings : Choices := [["literal"], ["shell"], ["shell-always"], ["shell-escape"],
  ["shell-escape-always"], ["c"], ["c-maybe"], ["escape"], ["locale"], ["clocale"]]

/-- The number that a measure of lines is set to. -/
private def measure (what t : Text) : Except (Nat × Text) Nat :=
  match Text.toNat? t with
  | some n => .ok n
  | none => .error (2, what ++ (": " : Text) ++ Quoted.plain t)

/-- A style changed by an option. What is wrong with one comes with the status that it causes. -/
private def Style.with (s : Style) (letter : Char) (value : Text) : Except (Nat × Text) Style := do
  let chosen (name : Text) (choices : Choices) (t : Text) : Except (Nat × Text) Nat :=
    match choices.find name t with
    | .ok i => .ok i
    | .error message => .error (1, message)
  let choice (name : Text) (choices : Choices) := chosen name choices value
  let optionalChoice (name : Text) (missing : Nat) : Except (Nat × Text) Nat :=
    if value.isEmpty then .ok missing else chosen name .always value.tail
  match letter with
  | 'a' => return { s with omission := .nothing }
  | 'A' => return { s with omission := .around }
  | 'f' => return { s with
      omission := .nothing
      order := .none }
  | 'b' => return { s with writing := .escaped }
  | 'N' => return { s with writing := .plain }
  | 'Q' => return { s with writing := .double }
  | 'z' =>
    let all : List Writing := [.plain, .literal, .alwaysLiteral, .needed, .always, .double,
      .maybeDouble, .escaped, .single, .double]
    return { s with writing := (all[← choice "--quoting-style" writings]?).getD .plain }
  | 'q' => return { s with masks := true }
  | 'V' => return { s with masks := false }
  | 'p' | 'y' => return { s with marks := true }
  | 'F' =>
    return { s with marks := s.marks || (← optionalChoice "--classify" 0) = 0 }
  | 'j' => return { s with marks := (← choice "--indicator-style" indicators) ≠ 0 }
  | 's' => return { s with sizes := true }
  | 'd' => return { s with itself := true }
  | 'r' => return { s with reversed := true }
  | 'R' => return { s with deep := true }
  | 'B' => return { s with skipsBackups := true }
  | '/' => return { s with directoriesFirst := true }
  | 'I' => return { s with ignored := value :: s.ignored }
  | 'e' => return { s with hiddenToo := value :: s.hiddenToo }
  | 'S' => return { s with order := .size }
  | 'X' => return { s with order := .ending }
  | 'v' => return { s with order := .version }
  | 'U' => return { s with order := .none }
  | 't' | 'c' | 'u' => return { s with order := .name }
  | 'W' =>
    let all : List Order := [.none, .name, .size, .ending, .version, .width]
    return { s with order := (all[← choice "--sort" orders]?).getD .name }
  | 'Y' =>
    let _ ← choice "--time" times
    return s
  | '1' => return { s with layout := .lines }
  | 'C' => return { s with layout := .downColumns }
  | 'x' => return { s with layout := .acrossColumns }
  | 'm' => return { s with layout := .commas }
  | 'M' =>
    let all : List Layout := [.lines, .commas, .acrossColumns, .downColumns, .lines]
    return { s with layout := (all[← choice "--format" layouts]?).getD .lines }
  | '0' => return { s with
      layout := .lines
      writing := .plain
      masks := false
      ending := Char.ofNat 0 }
  | 'w' => return { s with width := ← measure "invalid line width" value }
  | 'T' => return { s with tab := ← measure "invalid tab size" value }
  | 'E' =>
    let _ ← optionalChoice "--color" 0
    return s
  | 'P' =>
    let _ ← optionalChoice "--hyperlink" 0
    return s
  | '%' =>
    if value.head?.any Text.isDigit then return s
    throw (2, ("invalid --block-size argument " : Text) ++ Quoted.plain value)
  | _ => return s

private def Style.of (p : Parsed) (c : Call) : Except (Nat × Text) Style :=
  let columns := (c.environment.find? fun v => v.1 = "COLUMNS".toList).map (·.2)
  let start : Style := { width := (columns.bind Text.toNat?).getD 80 }
  p.options.foldlM (fun s o => s.with o.1 o.2) start

/-- A name as it is shown. -/
private def shown (style : Style) (name : Text) : Text :=
  let masked (t : Text) : Text := if style.masks then Quoted.masked t else t
  match style.writing with
  | .plain => masked name
  | .literal => masked (if Quoted.isLiteral name then name else Quoted.literal name)
  | .alwaysLiteral => masked (Quoted.literal name)
  | .needed => Quoted.needed false name
  | .always => Quoted.always name
  | .double => Quoted.double name
  | .maybeDouble => Quoted.maybeDouble name
  | .escaped => Quoted.escaped ' ' name
  | .single => Quoted.plain name

private def label (style : Style) (e : Entry) : Text :=
  shown style e.name ++ (if e.isDirectory && style.marks then ['/'] else [])

/-- What follows the last dot of a name, with the dot. -/
private def extension (name : Text) : Text :=
  match Text.cutAtLast? '.' name with
  | some (_, behind) => '.' :: behind
  | none => []

private def sorted (style : Style) (entries : List Entry) : List Entry :=
  let byName := entries.mergeSort fun a b => !Text.before b.name a.name
  let ordered := match style.order with
    | .name => byName
    | .size => byName.mergeSort fun a b => b.size ≤ a.size
    | .ending => byName.mergeSort fun a b => !Text.before (extension b.name) (extension a.name)
    | .version => entries.mergeSort fun a b => VersionOrder.atMost a.name b.name
    | .width => byName.mergeSort fun a b => (shown style a.name).length ≤ (shown style b.name).length
    | .none => entries
  let ordered := match style.order with
    | .none => ordered
    | _ => if style.reversed then ordered.reverse else ordered
  if style.directoriesFirst then
    ordered.filter (·.isDirectory) ++ ordered.filter (!·.isDirectory)
  else ordered

private def isShown (style : Style) (name : Text) : Bool :=
  let fits (pattern : Text) : Bool :=
    Pattern.accepts pattern name && (name.head? ≠ some '.' || pattern.head? = some '.')
  let isDotted := name.head? = some '.'
  let isHidden := match style.omission with
    | .hidden => isDotted || style.hiddenToo.any fits
    | .around | .nothing => false
  !isHidden && !style.ignored.any fits && !(style.skipsBackups && name.getLast? = some '~')

/-! ## Columns -/

/-- The blanks and tabs from one place of a line to another one. -/
private def gap (tab : Nat) : Nat → Nat → Nat → Text
  | 0, _, _ => []
  | fuel + 1, start, stop =>
    if stop ≤ start then []
    else if tab ≠ 0 && (start + 1) / tab < stop / tab then
      '\t' :: gap tab fuel (start + (tab - start % tab)) stop
    else ' ' :: gap tab fuel (start + 1) stop

/-- The least width of a column. -/
private def leastColumn : Nat := 3

/-- The widths of so many columns that hold names of some lengths. -/
private def widths (down : Bool) (lengths : List Nat) (columns : Nat) : List Nat :=
  let rows := (lengths.length + columns - 1) / columns
  let columnOf (i : Nat) : Nat := if down then i / rows else i % columns
  (List.range columns).map fun k =>
    (lengths.zipIdx.filter fun l => columnOf l.2 = k).foldl (fun w l =>
      max w (l.1 + if k + 1 = columns then 0 else 2)) leastColumn

/-- The widths of as many columns as fit on a line. -/
private def fitting (style : Style) (down : Bool) (lengths : List Nat) : List Nat :=
  let most := if style.width = 0 then lengths.length
    else min lengths.length ((style.width + leastColumn - 1) / leastColumn)
  let candidates := (List.range most).reverse.map fun k => widths down lengths (k + 1)
  let fits (w : List Nat) : Bool :=
    style.width = 0 || w.length = 1 || w.foldr (· + ·) 0 < style.width
  (candidates.find? fits).getD []

/-- Names in a row, each but the last filled up to the width of its column. -/
private def row (style : Style) : Nat → List Nat → List Text → Text
  | _, _, [] => [style.ending]
  | _, _, [t] => t ++ [style.ending]
  | place, w :: ws, t :: ts =>
    t ++ gap style.tab (w + 1) (place + t.length) (place + w) ++ row style (place + w) ws ts
  | _, [], t :: ts => t ++ row style 0 [] ts

private def inColumns (style : Style) (down : Bool) (labels : List Text) : Text :=
  let widths := fitting style down (labels.map List.length)
  let columns := max 1 widths.length
  let rows := (labels.length + columns - 1) / columns
  (List.range rows).flatMap fun r =>
    row style 0 widths ((List.range columns).filterMap fun k =>
      labels[if down then k * rows + r else r * columns + k]?)

/-- Names with commas between them, on lines that do not get too long. -/
private def withCommas (style : Style) : Nat → List Text → Text
  | _, [] => []
  | _, [t] => t ++ [style.ending]
  | place, t :: next :: rest =>
    let place := place + t.length
    if style.width = 0 || place + next.length + 2 < style.width then
      t ++ (", " : Text) ++ withCommas style (place + 2) (next :: rest)
    else t ++ [',', style.ending] ++ withCommas style 0 (next :: rest)

private def laidOut (style : Style) (labels : List Text) : Text :=
  if labels.isEmpty then []
  else
    match style.layout with
    | .lines => labels.flatMap (· ++ [style.ending])
    | .downColumns => inColumns style true labels
    | .acrossColumns => inColumns style false labels
    | .commas => withCommas style 0 labels

/-- The blocks that a size takes, in units of a thousand bytes. -/
private def blocks (e : Entry) : Nat := (e.size + 4095) / 4096 * 4

/-- Entries with the sizes that are asked for, each filled up to the width of the longest. -/
private def listed (style : Style) (entries : List Entry) : Text :=
  if !style.sizes then laidOut style (entries.map (label style))
  else
    let sizes := entries.map fun e => Text.ofNat (blocks e)
    let width := (sizes.map List.length).foldl max 0
    laidOut style ((entries.zip sizes).map fun (e, t) =>
      Text.padLeft (match style.layout with
        | .commas => 0
        | _ => width) t ++ ' ' :: label style e)

/-! ## Directories -/

private def below (directory name : Text) : Text :=
  if directory.getLast? = some '/' then directory ++ name else directory ++ '/' :: name

/-- The names in a directory. -/
private def entries (style : Style) (c : Call) (l : Location) : List Entry :=
  let inside := (c.files.children l).map fun n => Entry.of (octets n) (c.files.node? (l.child n))
  let around := match style.omission with
    | .nothing => [Entry.of ['.'] none, Entry.of ['.', '.'] none]
    | _ => []
  (around ++ inside).filter fun e => isShown style e.name

/-- What is in directories that wait to be listed. A heading is told by its directory unless a
single one is listed. -/
private def directories (style : Style) (c : Call) :
    Nat → (isFirst isNamed : Bool) → List Text → Text
  | 0, _, _, _ | _, _, _, [] => []
  | fuel + 1, isFirst, isNamed, name :: rest =>
    match c.files.locate (pathOf name) with
    | .error _ => directories style c fuel isFirst true rest
    | .ok l =>
      let heading : Text := if !style.deep && !isNamed then []
        else (if isFirst then [] else ['\n']) ++ shown style name ++ [':', '\n']
      let entries := sorted style (entries style c l)
      let inner := if !style.deep then []
        else (entries.filter fun e => e.isDirectory && e.name ≠ ['.'] && e.name ≠ ['.', '.']).map
          fun e => below name e.name
      let total : Text := if !style.sizes then []
        else ("total " : Text) ++ Text.ofNat ((entries.map blocks).foldl (· + ·) 0) ++ [style.ending]
      heading ++ total ++ listed style entries
        ++ directories style c fuel (isFirst && heading.isEmpty) true (inner ++ rest)

/-- The entry that a name leads to. Programs and devices are not among the files. -/
private def entry (c : Call) (name : Text) : Except FileError Entry :=
  match c.files.locate (pathOf name) with
  | .ok l => .ok (.of name (c.files.node? l))
  | .error cause =>
    if Device.isNamed name || (c.files.programAt? name).isSome then .ok ⟨name, false, 0⟩
    else .error cause

/-- Lists files and directories. -/
def run (c : Call) : Effect :=
  match options.read c.arguments with
  | .error message => .misuse 2 c.name message
  | .ok parsed =>
    match Style.of parsed c with
    | .error (1, message) => .misuse 1 c.name message
    | .error (status, message) => ({} : Effect).complain status c.name message
    | .ok style =>
      let names := if parsed.operands.isEmpty then [['.']] else parsed.operands
      let (e, found) := names.foldl (fun (e, found) name =>
        match entry c name with
        | .ok entry => (e, entry :: found)
        | .error cause =>
          let message := ("cannot access " : Text) ++ Quoted.always name ++ (": " : Text)
          (e.complain 2 c.name (message ++ reason cause), found)) (({} : Effect), [])
      let found := sorted style found.reverse
      let inside := found.filter fun f => f.isDirectory && !style.itself
      let files := found.filter fun f => !(f.isDirectory && !style.itself)
      let front := listed style files
      let isNamed := !files.isEmpty || 1 < names.length
      let between : Text := if files.isEmpty || inside.isEmpty then [] else ['\n']
      let fuel := inside.length + names.length * (c.files.nodes.length + 1)
      e.print (front ++ between
        ++ directories style c fuel true isNamed (inside.map (·.name)))

end ConversationFlow.Shell.Listing

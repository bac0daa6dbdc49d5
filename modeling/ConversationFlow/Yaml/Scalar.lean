import ConversationFlow.Yaml.Token

/-!
# YAML scalars

Scalars without quotes, in single or in double quotes, and scalars that keep their lines. A scalar
of the first three kinds may run over several lines: the blanks around a line break are dropped,
one break stands for a space, and of several breaks in a row the first is left out.
-/

namespace ConversationFlow.Yaml

/-! ## Blanks and breaks inside a scalar -/

/-- The blanks and line breaks between two parts of a scalar. -/
structure Spacing where
  gaps : Text := []
  broken : Bool := false
  first : Option Char := none
  more : Text := []

/-- What blanks and line breaks stand for. -/
def Spacing.text (s : Spacing) : Text :=
  if !s.broken then s.gaps
  else match s.first with
    | some '\n' => if s.more.isEmpty then [' '] else s.more
    | some b => b :: s.more
    | none => s.more

/-- The blanks and breaks from here on. A tab may not stand left of column `least` on a further
line. -/
private def spacing (least : Int) (fuel : Nat) (s : Spacing) (c : Cursor) :
    Option (Spacing × Cursor) :=
  match fuel, c.rest with
  | fuel + 1, x :: _ =>
    if isGap x then
      if s.broken && x = '\t' && c.column < least then none
      else spacing least fuel (if s.broken then s else { s with gaps := s.gaps ++ [x] }) (c.skip 1)
    else if isBreak x then
      let (b, next) := c.passBreak
      let s : Spacing :=
        if s.broken then { s with more := s.more ++ [b] } else { broken := true, first := some b }
      spacing least fuel s next
    else some (s, c)
  | _, _ => some (s, c)

private def spacingAt (least : Int) (s : Spacing) (c : Cursor) : Option (Spacing × Cursor) :=
  spacing least (c.rest.length + 1) s c

/-! ## Quotes -/

def hexDigit? (c : Char) : Option Nat :=
  if Text.isDigit c then some (c.toNat - 48)
  else if 'a' ≤ c && c ≤ 'f' then some (c.toNat - 87)
  else if 'A' ≤ c && c ≤ 'F' then some (c.toNat - 55)
  else none

/-- The number of `width` hexadecimal digits that a text begins with. -/
def hexNumber? (width : Nat) (t : Text) : Option Nat := do
  let digits ← (t.take width).mapM hexDigit?
  if digits.length = width then some (digits.foldl (fun n d => n * 16 + d) 0) else none

private def shortEscapes : List (Char × Char) := [
  ('n', '\n'), ('t', '\t'), ('r', '\r'), ('"', '"'), ('\\', '\\'), ('/', '/'), (' ', ' '),
  ('0', Char.ofNat 0), ('a', Char.ofNat 7), ('b', Char.ofNat 8), ('v', Char.ofNat 11),
  ('f', Char.ofNat 12), ('e', Char.ofNat 27), ('N', Char.ofNat 0x85), ('_', Char.ofNat 0xA0),
  ('L', Char.ofNat 0x2028), ('P', Char.ofNat 0x2029), ('\t', '\t')]

/-- The character that stands behind a backslash, and how long its name is. -/
private def escape? (t : Text) : Option (Char × Nat) := do
  let code (width : Nat) : Option (Char × Nat) := do
    let n ← hexNumber? width (t.drop 1)
    if n.isValidChar then some (Char.ofNat n, width + 1) else none
  match ← t.head? with
  | 'x' => code 2
  | 'u' => code 4
  | 'U' => code 8
  | c => (shortEscapes.find? fun e => e.1 = c).map fun e => (e.2, 1)

/-- The text up to the closing quote, and the place after it. A single quote is written twice
inside of single quotes; a backslash means something in double quotes only, and takes away a line
break behind it. -/
private def quoted (isSingle : Bool) (fuel : Nat) (c : Cursor) : Option (Text × Cursor) :=
  match fuel with
  | 0 => none
  | fuel + 1 =>
    if c.isAtDocument then none
    else match c.rest with
      | [] => none
      | x :: t =>
        if isSingle && x = '\'' then
          if t.head? = some '\'' then
            (quoted isSingle fuel (c.skip 2)).map fun (w, r) => ('\'' :: w, r)
          else some ([], c.skip 1)
        else if !isSingle && x = '"' then some ([], c.skip 1)
        else if !isSingle && x = '\\' then
          if t.head?.any isBreak then do
            let (s, c) ← spacingAt 0 { broken := true } (c.skip 1).passBreak.2
            (quoted isSingle fuel c).map fun (w, r) => (s.text ++ w, r)
          else do
            let (e, n) ← escape? t
            (quoted isSingle fuel (c.skip (n + 1))).map fun (w, r) => (e :: w, r)
        else if isSpace x then do
          let (s, c) ← spacingAt 0 {} c
          (quoted isSingle fuel c).map fun (w, r) => (s.text ++ w, r)
        else (quoted isSingle fuel (c.skip 1)).map fun (w, r) => (x :: w, r)

/-- The scalar behind an opening quote. -/
def quotedScalar? (isSingle : Bool) (c : Cursor) : Option (Text × Cursor) :=
  quoted isSingle (c.rest.length + 1) c

/-! ## Plain scalars -/

/-- The rest of a plain scalar behind the spacing `s`, the spacing behind it, and the place after
that. It ends at a colon before a blank, at a comment, at a document, in the flow form at one of
its marks, and in the block form on a line that is not indented up to column `least`. -/
private def plain (inFlow : Bool) (least : Int) (fuel : Nat) (s : Spacing) (c : Cursor) :
    Option (Text × Spacing × Cursor) :=
  match fuel with
  | 0 => none
  | fuel + 1 =>
    if c.isAtDocument then some ([], s, c)
    else match c.rest with
      | [] => some ([], s, c)
      | x :: t =>
        if isSpace x then do
          let (s, c) ← spacingAt least s c
          if (!inFlow && c.column < least) || c.isAt '#' then some ([], s, c)
          else plain inFlow least fuel s c
        else if inFlow && x = ':' && t.head?.any (fun y => isFlowMark y || y = '?') then none
        else if (x = ':' && endsHere t) || (inFlow && isFlowMark x) then some ([], s, c)
        else do
          let (w, r) ← plain inFlow least fuel {} (c.skip 1)
          return (s.text ++ x :: w, r)

/-- A plain scalar, whether a line break follows it, and the place after that. -/
def plainScalar? (inFlow : Bool) (least : Int) (c : Cursor) : Option (Text × Bool × Cursor) :=
  (plain inFlow least (2 * c.rest.length + 2) {} c).map fun (w, s, r) => (w, s.broken, r)

/-- Whether a plain scalar may begin here. -/
def startsPlain (inFlow : Bool) : Text → Bool
  | [] => false
  | c :: t =>
    if isSpace c || isFlowMark c then false
    else if c = '-' then !(t.head?.any isGap)
    else if c = '?' || c = ':' then !inFlow && !endsHere t
    else !(['#', '&', '*', '!', '|', '>', '\'', '"', '%', '@', '`'].contains c)

/-! ## Scalars that keep their lines -/

/-- What becomes of the line breaks at the end of such a scalar. -/
inductive Chomping where
  | one
  | none
  | all
deriving DecidableEq

private def chompingAt (c : Cursor) : Chomping × Cursor :=
  if c.isAt '+' then (.all, c.skip 1)
  else if c.isAt '-' then (.none, c.skip 1)
  else (.one, c)

/-- A digit that says by how much the lines are indented; zero is none. -/
private def deeperAt? (c : Cursor) : Option (Option Nat × Cursor) :=
  match c.rest with
  | x :: _ =>
    if x = '0' then none
    else if Text.isDigit x then some (some (x.toNat - 48), c.skip 1)
    else some (none, c)
  | [] => some (none, c)

/-- The header: the treatment of the last breaks and the indentation, in either order. -/
private def header? (c : Cursor) : Option (Chomping × Option Nat × Cursor) := do
  let (chomping, c) := chompingAt c
  let (deeper, c) ← deeperAt? c
  let (chomping, c) := if chomping = .one && deeper.isSome then chompingAt c else (chomping, c)
  return (chomping, deeper, ← c.restOfLine?)

/-- The empty lines from here on, as their breaks, the widest indentation among them and the next
line, and the place where that line begins. With no `indent` given every blank is passed. A tab may
not indent. -/
private def emptyLines (indent : Option Int) (fuel widest : Nat) (breaks : Text) (c : Cursor) :
    Option (Text × Nat × Cursor) :=
  match fuel with
  | 0 => none
  | fuel + 1 =>
    let blanks := (c.run (· = ' ')).length
    let c := match indent with
      | some n => c.skip (min blanks (n - c.column).toNat)
      | none => c.skip blanks
    let widest := max widest c.column
    if c.isAt '\t' && indent.all (c.column < ·) then none
    else if c.rest.head?.any isBreak then
      let (b, c) := c.passBreak
      emptyLines indent fuel widest (breaks ++ [b]) c
    else some (breaks, widest, c)

/-- The lines at an indentation: their text, with the breaks before and between them, and the
breaks after the last one. `last` is the break that ended the line before, `breaks` are those of
empty lines after it, and `wasIndented` says whether that line began with a blank. -/
private def keptLines (folds : Bool) (indent : Int) (fuel : Nat) (last : Option Char)
    (breaks : Text) (wasIndented : Bool) (c : Cursor) :
    Option (Text × Option Char × Text × Cursor) :=
  match fuel with
  | 0 => none
  | fuel + 1 =>
    if c.column ≠ indent || c.rest.isEmpty then some ([], last, breaks, c)
    else do
      let isIndented := c.rest.head?.any isGap
      let joint : Text :=
        if folds && last = some '\n' && !wasIndented && !isIndented then
          if breaks.isEmpty then [' '] else []
        else last.toList
      let line := c.run fun x => !isBreak x
      let c := c.skip line.length
      let (last, c) :=
        if c.rest.isEmpty then (none, c) else let (b, c) := c.passBreak; (some b, c)
      let (more, _, c) ← emptyLines (some indent) (c.rest.length + 1) 0 [] c
      let (rest, tail) ← keptLines folds indent fuel last more isIndented c
      return (joint ++ breaks ++ line ++ rest, tail)

/-- The scalar behind `|` or `>`, whose lines are indented deeper than the part around it. -/
def keptScalar? (folds : Bool) (around : Int) (c : Cursor) : Option (Text × Cursor) := do
  let (chomping, deeper, c) ← header? c
  let given : Option Int := deeper.map fun n => max around 0 + n
  let (breaks, widest, c) ← emptyLines given (c.rest.length + 1) 0 [] c
  let indent := given.getD (max (max (widest : Int) (around + 1)) 1)
  let (text, last, breaks, c) ← keptLines folds indent (c.rest.length + 1) none breaks false c
  let ending := match chomping with
    | .none => []
    | .one => last.toList
    | .all => last.toList ++ breaks
  return (text ++ ending, c)

end ConversationFlow.Yaml

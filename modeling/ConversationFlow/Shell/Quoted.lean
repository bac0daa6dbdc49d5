import ConversationFlow.Text.Basic

/-!
# Quotation

The ways in which texts are quoted in what commands print, so that a shell would read them
back as they were.
-/

namespace ConversationFlow.Shell.Quoted

/-- A text in single quotes, and the single quotes in it in double ones. -/
def single (t : Text) : Text := '\'' :: (go false t ++ ['\''])
where
  /-- `inDouble` tells that the last quote was written in double quotes that are still open. -/
  go : Bool → Text → Text
  | true, [] => ['"', '\'']
  | false, [] => []
  | true, '\'' :: t => '\'' :: go true t
  | false, '\'' :: t => '\'' :: '"' :: '\'' :: go true t
  | true, c :: t => '"' :: '\'' :: c :: go false t
  | false, c :: t => c :: go false t

private def isPrint (c : Char) : Bool := ' ' ≤ c && c ≤ '~'

/-- Whether a text means the same in double quotes. Some signs do so at its start only. -/
private def isTame (t : Text) : Bool :=
  let tame (c : Char) : Bool := Text.isAlphanumeric c || "%+,-./:]_@ '".toList.contains c
  match t with
  | c :: rest => (tame c || c = '#' || c = '~') && rest.all tame
  | [] => true

/-- Whether a text need not be quoted. -/
private def isSafe (alsoColon : Bool) (t : Text) : Bool :=
  let safe (c : Char) : Bool :=
    Text.isAlphanumeric c || "%+,-./]_@#~\x7b\x7d".toList.contains c || (c = ':' && !alsoColon)
  !t.isEmpty && t.all safe && !(['#', '~'].contains (t.headD ' '))
    && t ≠ ['\x7b'] && t ≠ ['\x7d']

private def octal (c : Char) : Text :=
  let digits := Nat.toDigits 8 c.toNat
  '\\' :: (List.replicate (3 - digits.length) '0' ++ digits)

private def escape (c : Char) : Text :=
  match c with
  | '\n' => ['\\', 'n']
  | '\t' => ['\\', 't']
  | '\r' => ['\\', 'r']
  | '\x07' => ['\\', 'a']
  | '\x08' => ['\\', 'b']
  | '\x0b' => ['\\', 'v']
  | '\x0c' => ['\\', 'f']
  | c => octal c

/-- A text in single quotes, with escapes for what cannot be printed. One that holds a quote is
looked through first, and what its end leaves open counts as open at its start. -/
private def enclosed (t : Text) : Text :=
  let isOpen := t.contains '\'' && t.getLast?.any fun c => !isPrint c
  '\'' :: (go isOpen t ++ ['\''])
where
  /-- `escaping` tells that the quotes that are open hold escapes. -/
  go : Bool → Text → Text
  | _, [] => []
  | escaping, c :: t =>
    if !isPrint c then
      (if escaping then [] else ['\'', '$', '\'']) ++ escape c ++ go true t
    else if c = '\'' then ['\'', '\\', '\'', '\''] ++ go false t
    else (if escaping then ['\'', '\''] else []) ++ c :: go false t

/-- A text in quotes. Double ones are taken where they spare an escape. -/
def always (t : Text) : Text :=
  if t.contains '\'' && isTame t then '"' :: (t ++ ['"']) else enclosed t

/-- A text that is quoted where it needs to be. -/
def needed (alsoColon : Bool) (t : Text) : Text :=
  if isSafe alsoColon t then t else always t

/-- A text in single quotes, or in double ones where they spare an escape, as a shell without
escapes reads it. -/
def literal (t : Text) : Text :=
  if t.contains '\'' && isTame t then '"' :: (t ++ ['"'])
  else '\'' :: (t.flatMap fun c => if c = '\'' then "'\\''".toList else [c]) ++ ['\'']

/-- Whether a shell takes a text for itself as it stands. -/
def isLiteral (t : Text) : Bool :=
  !t.isEmpty && !(t.any "\n\r\t\\ !\"$&()*;<=>[^`|'?".toList.contains)
    && !(['#', '~'].contains (t.headD ' ')) && t ≠ ['\x7b'] && t ≠ ['\x7d']

/-- A text with escapes for what cannot be printed and for backslashes, and for a sign that has a
meaning of its own. -/
def escaped (sign : Char) (t : Text) : Text :=
  t.flatMap fun c =>
    if c = sign || c = '\\' then ['\\', c] else if isPrint c then [c] else escape c

/-- A text as messages quote it: in single quotes with escapes. -/
def plain (t : Text) : Text := '\'' :: (escaped '\'' t ++ ['\''])

/-- A text in double quotes with escapes. -/
def double (t : Text) : Text := '"' :: (escaped '"' t ++ ['"'])

/-- A text in double quotes with escapes, if it holds something else than a backslash to escape. -/
def maybeDouble (t : Text) : Text := if t.all fun c => isPrint c && c ≠ '"' then t else double t

/-- A text with marks for what cannot be printed. -/
def masked (t : Text) : Text := t.map fun c => if isPrint c then c else '?'

end ConversationFlow.Shell.Quoted

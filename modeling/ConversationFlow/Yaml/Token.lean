import ConversationFlow.Text.Basic

/-!
# Tokens of a YAML text

The parts of a YAML text. The indentation of the block form shows as tokens of its own, which
open and close its lists and mappings, and a mapping key has a token in front of it.
-/

namespace ConversationFlow.Yaml

/-! ## Places

A cursor is a place in a text: what is left of the text, and the index, line and column at which
that begins. A line ends with a line feed, a carriage return, both in that order, or one of the
breaks U+0085, U+2028 and U+2029.
-/

def isGap (c : Char) : Bool := c = ' ' || c = '\t'

/-- The breaks that stay what they are inside a scalar; every other one is a line feed there. -/
private def isKeptBreak (c : Char) : Bool := [0x2028, 0x2029].contains c.toNat

def isBreak (c : Char) : Bool := c = '\n' || c = '\r' || c.toNat = 0x85 || isKeptBreak c

/-- Blanks and line breaks. -/
def isSpace (c : Char) : Bool := isGap c || isBreak c

/-- Whether a blank, a line break or the end of the text is next. -/
def endsHere (t : Text) : Bool := t.isEmpty || t.head?.any isSpace

/-- Whether the end of a line is next. -/
def endsLine (t : Text) : Bool := t.isEmpty || t.head?.any isBreak

/-- The characters of names. -/
def isNameChar (c : Char) : Bool := Text.isAlphanumeric c || c = '_' || c = '-'

/-- The marks of the flow form. -/
def isFlowMark (c : Char) : Bool := [',', '[', ']', '{', '}'].contains c

/-- A place in a text. -/
structure Cursor where
  rest : Text
  index : Nat := 0
  line : Nat := 0
  column : Nat := 0

namespace Cursor

def isAt (c : Cursor) (x : Char) : Bool := c.rest.head? = some x

/-- The place after `n` characters of the line. -/
def skip (c : Cursor) (n : Nat) : Cursor :=
  { c with rest := c.rest.drop n, index := c.index + n, column := c.column + n }

/-- The characters of one class that are next. -/
def run (c : Cursor) (p : Char → Bool) : Text := c.rest.takeWhile p

def skipRun (c : Cursor) (p : Char → Bool) : Cursor := c.skip (c.run p).length

/-- What the line break that is next stands for in a scalar, and the place after it. -/
def passBreak (c : Cursor) : Char × Cursor :=
  match c.rest with
  | '\r' :: '\n' :: t => ('\n', ⟨t, c.index + 2, c.line + 1, 0⟩)
  | b :: t => (if isKeptBreak b then b else '\n', ⟨t, c.index + 1, c.line + 1, 0⟩)
  | [] => ('\n', c)

/-- The place after a line break if one is next. -/
def skipBreak (c : Cursor) : Cursor := if c.rest.head?.any isBreak then c.passBreak.2 else c

/-- Whether a line begins here with three characters that mark a document. -/
def isAtMark (c : Cursor) (x : Char) : Bool :=
  c.column = 0 && c.rest.take 3 = [x, x, x] && endsHere (c.rest.drop 3)

/-- Whether a document begins or ends here. -/
def isAtDocument (c : Cursor) : Bool := c.isAtMark '-' || c.isAtMark '.'

/-- The place after a comment if one is next. -/
def skipComment (c : Cursor) : Cursor :=
  if c.isAt '#' then c.skipRun fun x => !isBreak x else c

/-- The next line, if only blanks and a comment are left of this one. -/
def restOfLine? (c : Cursor) : Option Cursor :=
  let c := (c.skipRun isGap).skipComment
  if endsLine c.rest then some c.skipBreak else none

end Cursor

/-! ## Tokens -/

/-- How a scalar is written. -/
inductive ScalarStyle where
  | plain
  | quoted
  | literal
  | folded
deriving DecidableEq

/-- A part of a text. -/
inductive Token where
  | version (major minor : Nat)
  | tagHandle (handle stem : Text)
  | documentStart
  | documentEnd
  | blockList
  | blockMap
  | blockEnd
  | flowList
  | flowListEnd
  | flowMap
  | flowMapEnd
  | item
  | comma
  | key
  | value
  | alias (name : Text)
  | anchor (name : Text)
  | tag (handle suffix : Text)
  | scalar (text : Text) (style : ScalarStyle)
  | streamEnd
deriving DecidableEq

end ConversationFlow.Yaml

import ConversationFlow.Directive.Keyword

/-!
# Directives of a document

A directive is an upper-case name at the start of a line, and the value after it.
Some directives take the lines that follow as text: up to the next directive or
comment that starts at column zero, or to the end of the document. The text keeps
its own relative indentation; what all its lines share is removed.

`Directive.ofLine?` reads one line, `Directive.ofDocument` a whole document.
-/

namespace ConversationFlow

/-- The name of a directive: built in, or registered in upper case. -/
inductive DirectiveName where
  | builtin (k : Keyword)
  | custom (name : Text)
deriving DecidableEq

def DirectiveName.text : DirectiveName → Text
  | .builtin k => k.name
  | .custom name => name

/-- A directive with its value and the line, counted from 1, of its name. -/
structure Directive where
  name : DirectiveName
  value : Text
  line : Nat
deriving DecidableEq

namespace Directive

/-- A character of a directive's name. -/
def isNameChar (c : Char) : Bool := Text.isUpperLetter c || Text.isDigit c || c = '-'

/-- The name at the front of a text and what follows it: an upper-case letter, then
upper-case letters, digits and hyphens, then the end or a blank. -/
def splitName? (t : Text) : Option (Text × Text) :=
  match t with
  | c :: _ =>
    if Text.isUpperLetter c then
      match t.dropWhile isNameChar with
      | [] => some (t.takeWhile isNameChar, [])
      | b :: rest => if Text.isBlank b then some (t.takeWhile isNameChar, b :: rest) else none
    else none
  | [] => none

/-- A name that is built in or registered. -/
def nameOf? (registry : Registry) (name : Text) : Option DirectiveName :=
  match Keyword.ofName? name with
  | some k => some (.builtin k)
  | none => if registry.contains name then some (.custom name) else none

/-- The directive of one line, whose value is a single line. Blank lines, comments, prose
and unknown names hold none. -/
def ofLine? (registry : Registry) (line : Text) (number : Nat) : Option Directive :=
  match splitName? (Text.trim line) with
  | none => none
  | some (name, rest) =>
    let value := Text.trim rest
    if '\n' ∈ value then none
    else (nameOf? registry name).map fun n => ⟨n, value, number⟩

/-- Whether the lines after the directive belong to its value. -/
def DirectiveName.takesText (registry : Registry) : DirectiveName → Bool
  | .builtin k => k.takesText
  | .custom name => (registry.get? name).any (·.multiline)

/-- The blanks that all lines with text begin with. -/
def commonIndent (lines : List Text) : Text :=
  match (lines.filter fun l => !Text.allBlank l).map Text.indent with
  | [] => []
  | first :: rest => rest.foldl Text.sharedStart first

/-- A line without the shared indentation and without blanks at its end. -/
def dedentLine (indent line : Text) : Text :=
  if Text.allBlank line then [] else Text.trimEnd ((Text.after? indent line).getD line)

/-- The lines of a text value: blank lines at the end dropped, the shared indentation removed. -/
def dedent (lines : List Text) : List Text :=
  let body := (lines.reverse.dropWhile Text.allBlank).reverse
  body.map (dedentLine (commonIndent body))

/-- The directive with the lines of its text, which go below the value on its own line. -/
def withText (d : Directive) (lines : List Text) : Directive :=
  match dedent lines with
  | [] => d
  | body =>
    if d.value.isEmpty then { d with value := Text.unlines body }
    else { d with value := d.value ++ '\n' :: Text.unlines body }

/-- What a line does while a directive takes text. -/
inductive TextLine where
  | comment
  | starts (d : Directive)
  | text

/-- A comment or a directive ends the text only from column zero. -/
def classify (registry : Registry) (line : Text) (number : Nat) : TextLine :=
  match line with
  | [] => .text
  | c :: _ =>
    if Text.isBlank c then .text
    else if c = '#' then .comment
    else
      match ofLine? registry line number with
      | some d => .starts d
      | none => .text

/-- The state between two lines: the directive that takes text, and its lines in reverse. -/
abbrev Open := Option (Directive × List Text)

/-- The directives that are complete when no line follows. -/
def close : Open → List Directive
  | none => []
  | some (d, taken) => [d.withText taken.reverse]

/-- Starts a directive: it is complete, or it takes the lines that follow. -/
def start (registry : Registry) (d : Directive) : List Directive × Open :=
  if DirectiveName.takesText registry d.name then ([], some (d, [])) else ([d], none)

/-- One line: the directives that it completes, and the state after it. -/
def feed (registry : Registry) (state : Open) (line : Text) (number : Nat) :
    List Directive × Open :=
  match state with
  | none =>
    match ofLine? registry line number with
    | some d => start registry d
    | none => ([], none)
  | some (d, taken) =>
    match classify registry line number with
    | .comment => (close state, none)
    | .starts e => (close state ++ (start registry e).1, (start registry e).2)
    | .text => ([], some (d, line :: taken))

/-- The directives of lines that are counted from `number`. -/
def ofLines (registry : Registry) : Open → (number : Nat) → List Text → List Directive
  | state, _, [] => close state
  | state, number, line :: rest =>
    (feed registry state line number).1
      ++ ofLines registry (feed registry state line number).2 (number + 1) rest

/-- The directives of a document, in order. -/
def ofDocument (registry : Registry) (text : Text) : List Directive :=
  ofLines registry none 1 (Text.lines text)

end Directive

end ConversationFlow

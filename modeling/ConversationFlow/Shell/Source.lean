import ConversationFlow.Shell.Syntax
import ConversationFlow.Text.Dictionary

/-!
# The text of a script

A source is what is left of a script while it is read, with the line that it has come to.
It also holds what the reading of commands needs to remember: a token that was looked at,
the aliases, and the documents that follow the line being read.
-/

namespace ConversationFlow.Shell

/-- A word with a meaning of its own where a command begins. -/
inductive Keyword where
  | bang | case_ | do_ | done_ | elif_ | else_ | esac_ | fi_ | for_ | if_ | in_ | then_ | until_
  | while_ | opening | closing
deriving DecidableEq

def keywords : List (String × Keyword) := [
  ("!", .bang), ("case", .case_), ("do", .do_), ("done", .done_), ("elif", .elif_),
  ("else", .else_), ("esac", .esac_), ("fi", .fi_), ("for", .for_), ("if", .if_), ("in", .in_),
  ("then", .then_), ("until", .until_), ("while", .while_), ("\x7b", .opening), ("\x7d", .closing)]

def Keyword.ofText? (t : Text) : Option Keyword :=
  (keywords.find? fun k => k.1.toList = t).map (·.2)

def Keyword.text (k : Keyword) : Text :=
  ((keywords.find? fun e => e.2 = k).map fun e => e.1.toList).getD []

/-- The sign of a redirection. -/
inductive RedirectSign where
  | file (access : Access)
  | duplicate
  | document (stripsTabs : Bool)
deriving DecidableEq

/-- An element of a script. -/
inductive Token where
  | ending
  | newline
  | semicolon
  | ampersand
  | both
  | either
  | bar
  | opening
  | closing
  | endOfCase
  | redirect (sign : RedirectSign) (descriptor : Nat)
  | word (w : Word)
  | keyword (k : Keyword)

namespace Token

/-- A token as messages show it. -/
def shown : Token → Text
  | .ending => "end of file"
  | .newline => "newline"
  | .semicolon => "\";\""
  | .ampersand => "\"&\""
  | .both => "\"&&\""
  | .either => "\"||\""
  | .bar => "\"|\""
  | .opening => "\"(\""
  | .closing => "\")\""
  | .endOfCase => "\";;\""
  | .redirect .. => "redirection"
  | .word _ => "word"
  | .keyword k => '"' :: (k.text ++ ['"'])

def isKeyword (k : Keyword) : Token → Bool
  | .keyword l => l = k
  | _ => false

/-- Whether a token can end a list of commands that another command holds. -/
def endsList : Token → Bool
  | .ending | .closing | .endOfCase => true
  | .keyword k => [.do_, .done_, .elif_, .else_, .esac_, .fi_, .then_, .closing].contains k
  | _ => false

end Token

/-- Why a text is no script. -/
inductive SyntaxFault where
  | unexpected (found : Text) (expected : Option Text)
  | openQuote
  | openBrace
  | openArithmetic
  | openSubstitution
  | notLoopVariable
  | notFunctionName
  | notDescriptor
  | tooDeep
deriving DecidableEq

def SyntaxFault.message : SyntaxFault → Text
  | .unexpected found none => found ++ " unexpected"
  | .unexpected found (some expected) => found ++ " unexpected (expecting " ++ expected ++ ")"
  | .openQuote => "Unterminated quoted string"
  | .openBrace => "Missing '\x7d'"
  | .openArithmetic => "Missing '))'"
  | .openSubstitution => "EOF in backquote substitution"
  | .notLoopVariable => "Bad for loop variable"
  | .notFunctionName => "Bad function name"
  | .notDescriptor => "Bad fd number"
  | .tooDeep => "out of resources"

/-- An alias whose text is being read: it ends where so many characters are left. -/
structure OpenAlias where
  name : Text
  endsBlank : Bool
  left : Nat

/-- A document that stands below the line being read. -/
structure PendingDocument where
  number : Nat
  delimiter : Text
  isLiteral : Bool
  stripsTabs : Bool

structure Source where
  rest : Text
  line : Nat := 1
  ahead : Option Token := none
  aliases : Dictionary Text := .empty
  expanding : List OpenAlias := []
  pending : List PendingDocument := []
  documents : Array Word := #[]

/-- A fault with the line that it was found on. -/
structure LocatedFault where
  line : Nat
  cause : SyntaxFault

/-- Reading from a source. -/
abbrev Reading := StateT Source (Except LocatedFault)

namespace Reading

def fail {α : Type} (cause : SyntaxFault) : Reading α := fun s => .error ⟨s.line, cause⟩

/-- The next character, which is taken. -/
def next? : Reading (Option Char) := fun s =>
  match s.rest with
  | [] => .ok (none, s)
  | c :: rest => .ok (some c, { s with rest, line := if c = '\n' then s.line + 1 else s.line })

/-- The text without the escaped line ends in front, and the number of them. -/
private def unfold : Text → Nat → Text × Nat
  | '\\' :: '\n' :: t, n => unfold t (n + 1)
  | t, n => (t, n)

/-- The next character behind escaped line ends, which are passed over. It is not taken. -/
def peek? : Reading (Option Char) := fun s =>
  let (rest, lines) := unfold s.rest 0
  .ok (rest.head?, { s with rest, line := s.line + lines })

/-- The next character behind escaped line ends, which is taken. -/
def take? : Reading (Option Char) := do
  let _ ← peek?
  next?

/-- Takes the next character if it is this one. -/
def accept (c : Char) : Reading Bool := do
  if (← peek?) = some c then
    let _ ← next?
    return true
  else return false

/-- The characters that aliases may add to a script while it is read. -/
def aliasAllowance : Nat := 65536

/-- How many steps a loop over the characters can take. The token that was put back and the end
are met too. -/
def budget : Reading Nat := fun s =>
  .ok (s.rest.length + 4 + (if s.aliases.isEmpty then 0 else aliasAllowance), s)

end Reading

end ConversationFlow.Shell

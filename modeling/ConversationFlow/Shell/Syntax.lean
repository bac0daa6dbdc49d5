import ConversationFlow.Text.Basic

/-!
# Shell scripts

A script is a sequence of commands, and a command is made of words. A word is a list of
parts: characters, marks of quotation, and what is to be replaced by a value when the
word is evaluated. Characters stand for bytes throughout, so all are below 256.
-/

namespace ConversationFlow.Shell

def isNameStart (c : Char) : Bool := Text.isLowerLetter c || Text.isUpperLetter c || c = '_'

def isNameChar (c : Char) : Bool := isNameStart c || Text.isDigit c

/-- Whether a text can name a variable or a function. -/
def isName : Text → Bool
  | c :: t => isNameStart c && t.all isNameChar
  | [] => false

/-- The parameters that are named by one sign. -/
def isSpecialName (c : Char) : Bool :=
  ['?', '$', '!', '#', '@', '*', '-'].contains c || Text.isDigit c

/-- What an expansion makes of the value of its parameter. -/
inductive Operator where
  | value
  | length
  | orElse
  | orAssign
  | orFail
  | instead
  | trimStart (longest : Bool)
  | trimEnd (longest : Bool)
  | unknown
deriving DecidableEq

/-- How a redirection opens its file. Only one that insists replaces a file where replacing
is forbidden. -/
inductive Access where
  | read
  | write (insists : Bool)
  | append
  | readWrite
deriving DecidableEq

mutual

/-- A part of a word. What is quoted is neither split into fields nor matched against files.
A mark keeps a word that is otherwise empty. -/
inductive Part where
  | char (c : Char) (quoted : Bool)
  | mark
  | parameter (name : Text) (op : Operator) (unlessEmpty quoted : Bool) (word : List Part)
  | output (command : Option Command) (quoted : Bool)
  | arithmetic (expression : List Part) (quoted : Bool)

/-- A change of a descriptor: it leads to a file, to where another one leads, or to a document
in the script, which is known by its number. -/
inductive Redirect where
  | file (access : Access) (descriptor : Nat) (target : List Part)
  | duplicate (descriptor : Nat) (target : List Part)
  | document (descriptor number : Nat)

/-- A command. The line is where it begins in its script. -/
inductive Command where
  | simple (line : Nat) (assignments : List (Text × List Part)) (words : List (List Part))
      (redirects : List Redirect)
  | sequence (commands : List Command)
  | conjunction (first second : Command)
  | disjunction (first second : Command)
  | negation (command : Command)
  | pipeline (commands : List Command) (background : Bool)
  | background (line : Nat) (body : Command) (redirects : List Redirect)
  | subshell (line : Nat) (body : Command) (redirects : List Redirect)
  | redirected (line : Nat) (body : Command) (redirects : List Redirect)
  | conditional (condition yes : Command) (no : Option Command)
  | loop (untilTrue : Bool) (condition body : Command)
  | forEach (line : Nat) (name : Text) (words : List (List Part)) (body : Command)
  | choice (line : Nat) (word : List Part) (cases : List (List (List Part) × Option Command))
  | function (name : Text) (body : Command)

end

abbrev Word := List Part

mutual

/-- How many parts a part consists of. -/
def Part.size : Part → Nat
  | .parameter _ _ _ _ word => Part.sizeOfWord word + 1
  | .arithmetic expression _ => Part.sizeOfWord expression + 1
  | _ => 1

/-- How many parts a word consists of, those inside its parts included. -/
def Part.sizeOfWord : List Part → Nat
  | [] => 0
  | p :: rest => p.size + Part.sizeOfWord rest

end

instance : Inhabited Command := ⟨.sequence []⟩

namespace Word

/-- A word of unquoted characters. -/
def ofText (t : Text) : Word := t.map (.char · false)

/-- The text of a word that has neither quotes nor expansions. -/
def plain? (w : Word) : Option Text :=
  w.mapM fun
    | .char c false => some c
    | _ => none

/-- Whether a quotation occurs in a word. -/
def isQuoted (w : Word) : Bool :=
  w.any fun
    | .char _ quoted => quoted
    | .mark => true
    | _ => false

/-- The characters of a word without its quotation marks. -/
def bare (w : Word) : Text :=
  w.filterMap fun
    | .char c _ => some c
    | _ => none

/-- The name and the value of an assignment that a word writes. -/
def assignment? (w : Word) : Option (Text × Word) :=
  match w with
  | .char c false :: _ =>
    if !isNameStart c then none
    else
      let name := w.takeWhile fun
        | .char c false => isNameChar c
        | _ => false
      match w.drop name.length with
      | .char '=' false :: value => some (bare name, value)
      | _ => none
  | _ => none

end Word

end ConversationFlow.Shell

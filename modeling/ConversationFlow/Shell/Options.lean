import ConversationFlow.Shell.Quoted

/-!
# Options of programs

Options are letters behind a dash, several of which may share one, and names behind two
dashes, which may be cut short where they stay clear. Two dashes alone end the options.
-/

namespace ConversationFlow.Shell

/-- Whether an option has a value. -/
inductive OptionValue where
  | never
  | always
  | optional
deriving DecidableEq

/-- The options of a program. Every option has a letter that stands for it. -/
structure OptionTable where
  letters : List (Char × OptionValue)
  names : List (String × OptionValue × Char) := []
  /-- Whether an operand ends the options. -/
  endsAtOperand : Bool := false

/-- The options and the operands among arguments. A value that need not be given stands behind a
sign of equality. -/
structure Parsed where
  options : List (Char × Text) := []
  operands : List Text := []

namespace OptionTable

/-- The options that the letters behind a dash give, and the arguments behind them. -/
private def cluster (table : OptionTable) :
    Text → List Text → Except Text (List (Char × Text) × List Text)
  | [], rest => .ok ([], rest)
  | c :: t, rest =>
    match table.letters.find? fun l => l.1 = c with
    | none => .error ("invalid option -- '" ++ [c, '\''])
    | some (_, .never) =>
      match cluster table t rest with
      | .ok (options, rest) => .ok ((c, []) :: options, rest)
      | .error e => .error e
    | some (_, .optional) => .ok ([(c, t)], rest)
    | some (_, .always) =>
      if !t.isEmpty then .ok ([(c, t)], rest)
      else
        match rest with
        | value :: rest => .ok ([(c, value)], rest)
        | [] => .error ("option requires an argument -- '" ++ [c, '\''])

/-- The option that a name behind two dashes gives, and the arguments behind it. -/
private def named (table : OptionTable) (t : Text) (rest : List Text) :
    Except Text ((Char × Text) × List Text) :=
  let (name, value) := match Text.cutAt? '=' t with
    | some (name, value) => (name, some value)
    | none => (t, none)
  let candidates := match table.names.find? fun n => n.1.toList = name with
    | some n => [n]
    | none => table.names.filter fun n => Text.startsWith name n.1.toList
  let clear := match candidates with
    | n :: others => others.all fun o => o.2.2 = n.2.2
    | [] => false
  match candidates with
  | [] => .error ("unrecognized option '--" ++ t ++ "'")
  | (full, takes, letter) :: _ =>
    if !clear then
      let shown := candidates.flatMap fun n => (" '--" : Text) ++ n.1.toList ++ ['\'']
      .error (("option '--" : Text) ++ t ++ "' is ambiguous; possibilities:" ++ shown)
    else
      match takes, value with
      | .never, some _ => .error ("option '--" ++ full.toList ++ "' doesn't allow an argument")
      | .always, none =>
        match rest with
        | value :: rest => .ok ((letter, value), rest)
        | [] => .error ("option '--" ++ full.toList ++ "' requires an argument")
      | .optional, some value => .ok ((letter, '=' :: value), rest)
      | _, value => .ok ((letter, value.getD []), rest)

/-- The options that the first argument gives, and the arguments behind them, unless it is an
operand or ends the options. -/
def first? (table : OptionTable) :
    List Text → Option (Except Text (List (Char × Text) × List Text))
  | ['-', '-'] :: _ => none
  | ('-' :: '-' :: t) :: rest => some ((table.named t rest).map fun (o, rest) => ([o], rest))
  | ('-' :: c :: t) :: rest => some (table.cluster (c :: t) rest)
  | _ => none

private def readFrom (table : OptionTable) : Nat → List Text → Except Text Parsed
  | 0, rest => .ok { operands := rest }
  | _, [] => .ok {}
  | fuel + 1, a :: rest =>
    match table.first? (a :: rest) with
    | some first => do
      let (os, rest) ← first
      let p ← readFrom table fuel rest
      return { p with options := os ++ p.options }
    | none => do
      if a = ['-', '-'] then return { operands := rest }
      if table.endsAtOperand then return { operands := a :: rest }
      let p ← readFrom table fuel rest
      return { p with operands := a :: p.operands }

/-- The options among arguments, or what is wrong with them. -/
def read (table : OptionTable) (arguments : List Text) : Except Text Parsed :=
  readFrom table (arguments.length + 1) arguments

end OptionTable

/-- The choices for the value of an option, with the words for each. -/
abbrev Choices := List (List String)

namespace Choices

/-- The choice that a word stands for. It may be cut short where it stays clear. -/
def find (choices : Choices) (option : Text) (t : Text) : Except Text Nat :=
  let indexed := choices.zipIdx
  let meant (accepts : String → Bool) : List Nat :=
    (indexed.filter fun c => c.1.any accepts).map (·.2)
  let found := match meant fun w => w.toList = t with
    | [] => meant fun w => Text.startsWith t w.toList
    | exact => exact
  match found with
  | [i] => .ok i
  | _ =>
    let what : Text := if found.isEmpty then "invalid" else "ambiguous"
    let rows := choices.flatMap fun words =>
      ("\n  - " : Text) ++ Text.join (", " : Text) (words.map fun w => Quoted.plain w.toList)
    .error (what ++ (" argument " : Text) ++ Quoted.plain t ++ (" for '" : Text) ++ option
      ++ ("'\nValid arguments are:" : Text) ++ rows)

/-- Whether something is done. -/
def always : Choices :=
  [["always", "yes", "force"], ["never", "no", "none"], ["auto", "tty", "if-tty"]]

end Choices

namespace Parsed

def has (p : Parsed) (letter : Char) : Bool := p.options.any (·.1 = letter)

/-- The value that was given last. -/
def value? (p : Parsed) (letter : Char) : Option Text :=
  (p.options.reverse.find? fun o => o.1 = letter).map (·.2)

end Parsed

end ConversationFlow.Shell

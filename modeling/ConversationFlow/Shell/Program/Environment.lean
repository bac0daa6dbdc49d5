import ConversationFlow.Shell.Options
import ConversationFlow.Shell.Program
import ConversationFlow.Shell.Job

/-!
# Changed environments

A program can be started with variables added to its environment or taken out of it, in another
directory, and with signals that it does not get. Where no program is named the variables are
printed. What is done can be told step by step.
-/

/-! ## Split arguments

One argument can write several, as a shell would read them: quotes keep blanks, backslashes give
characters that are hard to write, and variables stand for their values. -/

namespace ConversationFlow.Shell.SplitArgument

/-- What an argument has come to: the parts in reverse, of which the first grows until blanks end
it, and what is told of variables that are not set. -/
private structure State where
  parts : List Text := []
  isBetween : Bool := true
  missing : List Text := []

/-- The part that grows. Blanks before it begin a new one. -/
private def State.begin (s : State) : State :=
  if s.isBetween then { s with
      parts := [] :: s.parts
      isBetween := false }
  else s

private def State.put (s : State) (t : Text) : State :=
  let s := s.begin
  match s.parts with
  | p :: rest => { s with parts := (p ++ t) :: rest }
  | [] => s

private inductive Quote where
  | none
  | single
  | double
deriving DecidableEq

private def isBlank (c : Char) : Bool := [' ', '\t', '\n', '\x0b', '\x0c', '\r'].contains c

/-- The name of a variable in braces, and the text behind it. -/
private def variableName (t : Text) : Option (Text × Text) :=
  match t with
  | '\x7b' :: c :: rest =>
    let isNamePart (c : Char) : Bool := Text.isAlphanumeric c || c = '_'
    let name := (c :: rest).takeWhile isNamePart
    match (c :: rest).drop name.length with
    | '\x7d' :: behind => if name.isEmpty || Text.isDigit c then none else some (name, behind)
    | _ => none
  | _ => none

private def lettered? (c : Char) : Option Char :=
  (([('f', 12), ('n', 10), ('r', 13), ('t', 9), ('v', 11)] : List (Char × Nat)).find? fun e =>
    e.1 = c).map fun e => Char.ofNat e.2

private def go (environment : List (Text × Text)) : Nat → Quote → State → Text → Except Text State
  | 0, _, s, _ => .ok s
  | _, quote, s, [] =>
    if quote = .none then .ok s else .error "no terminating quote in -S string"
  | fuel + 1, quote, s, c :: t =>
    let next := go environment fuel
    if c = '\'' && quote ≠ .double then
      next (if quote = .single then .none else .single) s.begin t
    else if c = '"' && quote ≠ .single then
      next (if quote = .double then .none else .double) s.begin t
    else if isBlank c && quote = .none then
      next quote { s with isBetween := true } (t.dropWhile isBlank)
    else if c = '#' && s.isBetween then .ok s
    else if c = '\\' && (quote ≠ .single || t.head? = some '\\' || t.head? = some '\'') then
      match t with
      | [] => .error "invalid backslash at end of string in -S"
      | e :: t =>
        if ['"', '#', '$', '\'', '\\'].contains e then next quote (s.put [e]) t
        else if e = '_' then
          if quote = .double then next quote (s.put [' ']) t
          else next quote { s with isBetween := true } t
        else if e = 'c' then
          if quote = .double then .error "'\\c' must not appear in double-quoted -S string"
          else .ok s
        else
          match lettered? e with
          | some b => next quote (s.put [b]) t
          | none => .error ("invalid sequence '\\" ++ [e] ++ "' in -S")
    else if c = '$' && quote ≠ .single then
      match variableName t with
      | none =>
        .error ("only $\x7bVARNAME\x7d expansion is supported, error at: ".toList ++ c :: t)
      | some (name, behind) =>
        match environment.find? fun v => v.1 = name with
        | some (_, value) => next quote (s.put value) behind
        | none => next quote { s with missing := name :: s.missing } behind
    else next quote (s.put [c]) t

/-- The arguments that one writes, and the variables in it that are not set. -/
def arguments (environment : List (Text × Text)) (t : Text) :
    Except Text (List Text × List Text) := do
  let s ← go environment (t.length + 1) .none {} t
  return (s.parts.reverse, s.missing.reverse)

end ConversationFlow.Shell.SplitArgument

/-! ## The program -/

namespace ConversationFlow.Shell.Environment

private def options : OptionTable where
  letters := [('C', .always), ('i', .never), ('S', .always), ('u', .always), ('v', .never),
    ('0', .never)]
  names := [("ignore-environment", .never, 'i'), ("null", .never, '0'), ("unset", .always, 'u'),
    ("chdir", .always, 'C'), ("default-signal", .optional, 'd'), ("ignore-signal", .optional, 'g'),
    ("block-signal", .optional, 'b'), ("list-signal-handling", .never, 'l'),
    ("debug", .never, 'v'), ("split-string", .always, 'S')]
  endsAtOperand := true

/-- The status of a failure before a program is started. -/
def failure : Nat := 125

/-- The start of a program. -/
structure Start where
  words : List Text
  environment : List (Text × Text)
  directory : Option Text
  /-- The signals that the program does not get. -/
  ignored : List Nat
  /-- What is told before, if anything is told. -/
  told : Option (List Text)

/-- What is done: something that ends here, or a program that is started. -/
inductive Outcome where
  | ends (e : Effect)
  | starts (s : Start)

/-- What the options ask for, with what is told in reverse. -/
private structure Wish where
  clears : Bool := false
  removed : List Text := []
  directory : Option Text := none
  endsWithNul : Bool := false
  tells : Bool := false
  ignored : List Nat := []
  told : List Text := []

private def Wish.tell (w : Wish) (t : Text) : Wish :=
  if w.tells then { w with told := t :: w.told } else w

/-- The signals that a value names, or all that can be chosen. -/
private def signals (value : Text) : Except Text (List Nat) :=
  if value.isEmpty then
    .ok (((List.range Signal.bound).tail).filter fun n => !Signal.isFinal n)
  else
    (value.tail.splitOn ',').mapM fun t =>
      let name := if Text.startsWith "SIG" t then t.drop 3 else t
      match Signal.ofText? 1 name with
      | some n => .ok n
      | none => .error (Quoted.plain t ++ (": invalid signal" : Text))

/-- What is wrong with arguments, and whether a hint is given. -/
private abbrev Fault := Text × Bool

/-- What the options ask for, and the operands behind them. An argument that writes others is
replaced by them. -/
private def read (environment : List (Text × Text)) :
    Nat → Wish → List Text → Except (Wish × Fault) (Wish × List Text)
  | 0, w, rest => .ok (w, rest)
  | fuel + 1, w, arguments =>
    match options.first? arguments with
    | none => .ok (w, if arguments.head? = some ['-', '-'] then arguments.tail else arguments)
    | some (.error message) => .error (w, message, true)
    | some (.ok (found, rest)) => do
      let (w, rest) ← found.foldlM (fun (w, rest) (letter, value) =>
        match letter with
        | 'i' => .ok ({ w with clears := true }, rest)
        | '0' => .ok ({ w with endsWithNul := true }, rest)
        | 'u' => .ok ({ w with removed := w.removed ++ [value] }, rest)
        | 'C' => .ok ({ w with directory := some value }, rest)
        | 'v' => .ok ({ w with tells := true }, rest)
        | 'g' =>
          match signals value with
          | .ok found => .ok ({ w with ignored := found ++ w.ignored }, rest)
          | .error message => .error (w, message, true)
        | 'd' =>
          match signals value with
          | .ok found => .ok ({ w with ignored := w.ignored.filter fun n => !found.contains n }, rest)
          | .error message => .error (w, message, true)
        | 'S' =>
          match SplitArgument.arguments environment value with
          | .error message => .error (w, message, false)
          | .ok (parts, missing) =>
            let w := missing.foldl (fun (w : Wish) name =>
              w.tell ("replacing $\x7b".toList ++ name ++ "\x7d with null string".toList)) w
            let w := w.tell ("split -S:  ".toList ++ Quoted.plain value)
            let w := parts.zipIdx.foldl (fun (w : Wish) (t, i) =>
              w.tell ((if i = 0 then " into:    " else "     &    ").toList ++ Quoted.plain t)) w
            .ok (w, parts ++ rest)
        | _ => .ok (w, rest)) (w, rest)
      read environment fuel w rest

/-- A variable set where it stands, or behind all others. -/
private def set (environment : List (Text × Text)) (name value : Text) : List (Text × Text) :=
  if environment.any (·.1 = name) then
    environment.map fun v => if v.1 = name then (name, value) else v
  else environment ++ [(name, value)]

/-- The variables behind assignments, and the words behind those. -/
private def assign : Wish → List (Text × Text) → List Text → Wish × List (Text × Text) × List Text
  | w, environment, [] => (w, environment, [])
  | w, environment, a :: rest =>
    match Text.cutAt? '=' a with
    | some (name, value) =>
      assign (w.tell ("setenv:   ".toList ++ a)) (set environment name value) rest
    | none => (w, environment, a :: rest)

/-- What is told, as a program prints it. -/
private def Wish.effect (w : Wish) : Effect :=
  { printed := w.told.reverse.map fun t => (0, .error, t ++ ['\n']) }

/-- What the arguments ask for. -/
def outcome (c : Call) : Outcome :=
  let fails (w : Wish) (message : Text) (hints : Bool) : Outcome :=
    let hint : Text := if hints then
        ("\nTry '" : Text) ++ c.name ++ (" --help' for more information." : Text)
      else []
    .ends (w.effect.complain failure c.name (message ++ hint))
  let size := (c.arguments.map fun a => a.length + 1).foldl (· + ·) 1
  match read c.environment (2 * size) {} c.arguments with
  | .error (w, message, hints) => fails w message hints
  | .ok (w, operands) =>
    let (w, operands) := match operands with
      | ['-'] :: rest => ({ w with clears := true }, rest)
      | operands => (w, operands)
    let isWrong (name : Text) : Bool := name.isEmpty || name.contains '='
    let removed := if w.clears then [] else w.removed
    let unset := (removed.takeWhile fun name => !isWrong name).length
    let w := if w.clears then w.tell "cleaning environ".toList
      else (removed.take (unset + 1)).foldl (fun (w : Wish) name =>
        w.tell ("unset:    ".toList ++ name)) w
    match removed[unset]? with
    | some name => fails w ("cannot unset ".toList ++ Quoted.plain name ++ ": Invalid argument") false
    | none =>
      let kept := if w.clears then [] else c.environment.filter fun v => !removed.contains v.1
      let (w, environment, words) := assign w kept operands
      match words with
      | [] =>
        if w.directory.isSome then fails w "must specify command with --chdir (-C)" true
        else
          let ending : Char := if w.endsWithNul then Char.ofNat 0 else '\n'
          .ends (w.effect.print (environment.flatMap fun v => v.1 ++ '=' :: v.2 ++ [ending]))
      | words =>
        if w.endsWithNul then fails w "cannot specify --null (-0) with command" true
        else
          .starts {
            words
            environment
            directory := w.directory
            ignored := w.ignored
            told := if w.tells then some w.told.reverse else none }

/-- What is told of a program that is about to be started. -/
def Start.announcement (s : Start) : List Text :=
  ("executing: ".toList ++ s.words.headD []) :: s.words.zipIdx.map fun (t, i) =>
    "   arg[".toList ++ Text.ofNat i ++ "]= ".toList ++ Quoted.plain t

end ConversationFlow.Shell.Environment

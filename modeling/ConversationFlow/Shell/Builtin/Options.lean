import ConversationFlow.Shell.Machine
import ConversationFlow.Shell.Quoted

/-!
# Options of the shell and of its commands

The commands of the shell take their options from letters behind dashes. The shell itself has
options that are switched on and off, by letter or by name.
-/

namespace ConversationFlow.Shell

namespace BuiltinOptions

private def cluster (letters : List (Char × Bool)) :
    Text → List Text → Action (List (Char × Text) × List Text)
  | [], rest => return ([], rest)
  | c :: t, rest => do
    match letters.find? fun l => l.1 = c with
    | none => Action.fail (("Illegal option -" : Text) ++ [c])
    | some (_, false) =>
      let (options, rest) ← cluster letters t rest
      return ((c, []) :: options, rest)
    | some (_, true) =>
      if !t.isEmpty then return ([(c, t)], rest)
      match rest with
      | value :: rest => return ([(c, value)], rest)
      | [] => Action.fail (("No arg for -" : Text) ++ [c] ++ (" option" : Text))

private def readFrom (letters : List (Char × Bool)) :
    Nat → List Text → Action (List (Char × Text) × List Text)
  | 0, rest => return ([], rest)
  | fuel + 1, rest => do
    match rest with
    | ['-', '-'] :: rest => return ([], rest)
    | ('-' :: c :: t) :: rest =>
      let (first, rest) ← cluster letters (c :: t) rest
      let (others, rest) ← readFrom letters fuel rest
      return (first ++ others, rest)
    | rest => return ([], rest)

/-- The options in front of the arguments, of which some take a value, and the arguments behind
them. -/
def read (letters : List (Char × Bool)) (arguments : List Text) :
    Action (List (Char × Text) × List Text) :=
  readFrom letters (arguments.length + 1) arguments

end BuiltinOptions

namespace ShellOptions

/-- The options by name. The last two have no letter that could be written. -/
def names : List (String × Char) := [
  ("errexit", 'e'), ("noglob", 'f'), ("ignoreeof", 'I'), ("interactive", 'i'), ("monitor", 'm'),
  ("noexec", 'n'), ("stdin", 's'), ("xtrace", 'x'), ("verbose", 'v'), ("vi", 'V'),
  ("emacs", 'E'), ("noclobber", 'C'), ("allexport", 'a'), ("notify", 'b'), ("nounset", 'u'),
  ("privileged", 'p'), ("nolog", '1'), ("debug", '2')]

private def switched (options : List Char) (on : Bool) (letter : Char) : List Char :=
  let others := options.filter (· ≠ letter)
  if !on then others
  else
    let others := if letter = 'V' then others.filter (· ≠ 'E')
      else if letter = 'E' then others.filter (· ≠ 'V')
      else others
    letter :: others

private def switch (on : Bool) (letter : Char) : Action Unit :=
  modify fun m => { m with options := switched m.options on letter }

private def switchLetter (on : Bool) (letter : Char) : Action Unit := do
  if Text.isDigit letter || !names.any fun n => n.2 = letter then
    Action.fail (("Illegal option -" : Text) ++ [letter])
  switch on letter

/-- What options in front of arguments leave. -/
structure Rest where
  arguments : List Text
  /-- Whether the first argument is a script. -/
  hasScript : Bool := false
  /-- Whether the arguments were set to none. -/
  clears : Bool := false
  /-- The options that a shell is told on its start. All others count as switched on until it is
  told all. -/
  told : Option (List Char) := none

/-- The table of the options, or commands that set them. -/
private def table (asTable : Bool) (isOn : Char → Bool) : Text :=
  let rows : List Text := names.map fun (name, letter) =>
    let name := name.toList
    let state : Text := if isOn letter then "on\n" else "off\n"
    let sign : Text := if isOn letter then "-o " else "+o "
    if asTable then name ++ List.replicate (16 - name.length) ' ' ++ state
    else ("set " : Text) ++ sign ++ name ++ ['\n']
  let heading : Text := if asTable then "Current option settings\n" else []
  heading ++ rows.flatten

/-- Switches an option by its name, or shows all of them. -/
private def switchNamed (on : Bool) (r : Rest) : Action Rest := do
  let next := { r with arguments := r.arguments.tail }
  match r.arguments with
  | name :: _ =>
    match names.find? fun n => n.1.toList = name with
    | some (_, letter) =>
      switch on letter
      return { next with told := next.told.map (letter :: ·) }
    | none => Action.fail (("Illegal option -o " : Text) ++ name)
  | [] =>
    let m ← get
    let isOn (letter : Char) : Bool :=
      m.hasOption letter || (r.told.any fun told => !told.contains letter)
    Action.print (table on isOn)
    return next

private def letters (atStart on : Bool) : Text → Rest → Action Rest
  | [], r => return r
  | c :: t, r => do
    if c = 'c' && atStart then letters atStart on t { r with hasScript := true }
    else if c = 'l' && atStart then letters atStart on t r
    else if c = 'o' then letters atStart on t (← switchNamed on r)
    else
      switchLetter on c
      letters atStart on t { r with told := r.told.map (c :: ·) }

private def readFrom (atStart : Bool) : Nat → Rest → Action Rest
  | 0, r => return r
  | fuel + 1, r => do
    match r.arguments with
    | ['-'] :: rest =>
      if !atStart then
        switch false 'x'
        switch false 'v'
      return { r with arguments := rest }
    | ['-', '-'] :: rest => return { r with arguments := rest, clears := !atStart && rest.isEmpty }
    | ('-' :: t) :: rest => readFrom atStart fuel (← letters atStart true t { r with arguments := rest })
    | ('+' :: t) :: rest => readFrom atStart fuel (← letters atStart false t { r with arguments := rest })
    | _ => return r

/-- Job control takes a terminal, and there is none. A part of a shell does not ask for one. -/
def refuseJobControl : Action Unit := do
  let m ← get
  if m.hasOption 'm' && m.process = m.root then
    Action.warn "can't access tty; job control turned off"
    switch false 'm'

/-- Switches the options in front of arguments. -/
def read (atStart : Bool) (arguments : List Text) : Action Rest := do
  let told := if atStart then some [] else none
  let r ← readFrom atStart (arguments.length + 1) { arguments, told }
  if atStart && (← get).hasOption 'i' && !(r.told.getD []).contains 'm' then switch true 'm'
  if !atStart then refuseJobControl
  return r

end ShellOptions

end ConversationFlow.Shell

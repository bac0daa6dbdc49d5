import ConversationFlow.Shell.Builtin.Options
import ConversationFlow.Shell.Fields

/-!
# Commands on variables

The commands of the shell that set, mark and show its variables and arguments.
-/

namespace ConversationFlow.Shell.Builtin

/-- A line for every variable that is asked for, in the order of their names. -/
private def listing (front : Text) (m : Machine) (shown : Variable → Bool) : Text :=
  let entries := (m.vars.entries.filter fun e => shown e.2).mergeSort fun a b =>
    !Text.before b.1 a.1
  entries.flatMap fun (name, v) =>
    front ++ name ++ (match v.value with
      | some t => '=' :: Quoted.single t
      | none => []) ++ ['\n']

/-- Marks variables, which may be given values at the same time. -/
private def mark (command : Text) (has : Variable → Bool) (set : Variable → Variable)
    (arguments : List Text) : Action Nat := do
  let (options, names) ← BuiltinOptions.read [('p', false)] arguments
  if !options.isEmpty || names.isEmpty then
    Action.print (listing (command ++ [' ']) (← get) has)
    return 0
  for a in names do
    let (name, value) := match Text.cutAt? '=' a with
      | some (name, value) => (name, some value)
      | none => (a, none)
    let old := (← get).vars.get? name
    if value.isSome || old.isNone then
      if !isName name then Action.fail (name ++ (": bad variable name" : Text))
      if value.isSome then Action.assign name value
    modify fun m =>
      let v := (m.vars.get? name).getD { value := none }
      { m with vars := m.vars.insert name (set v) }
  return 0

def «export» (arguments : List Text) : Action Nat :=
  mark "export" (·.exported) (fun v => { v with exported := true }) arguments

def readOnly (arguments : List Text) : Action Nat :=
  mark "readonly" (·.readOnly) (fun v => { v with readOnly := true }) arguments

/-- Keeps variables for the function that is running. -/
def «local» (arguments : List Text) : Action Nat := do
  if (← get).scopes.isEmpty then Action.fail "not in a function"
  for a in arguments do
    let (name, value) := match Text.cutAt? '=' a with
      | some (name, value) => (name, some value)
      | none => (a, none)
    if name ≠ ['-'] then
      Action.keepLocal name
      if let some t := value then Action.assign name (some t)
      else if ((← get).vars.get? name).isNone then
        if !isName name then Action.fail (name ++ (": bad variable name" : Text))
        modify fun m => { m with vars := m.vars.insert name { value := none } }
  return 0

/-- The variables that stay when they are unset. -/
private def lasting : List String := ["ATTY", "IFS", "MAIL", "MAILPATH", "OPTIND", "PATH", "PS1", "PS2", "PS4"]

/-- Takes a variable away. -/
private def unsetVariable (name : Text) : Action Unit := do
  if !isName name then Action.fail (name ++ (": bad variable name" : Text))
  let m ← get
  match m.vars.get? name with
  | none => return ()
  | some v =>
    if v.readOnly then Action.fail (name ++ (": is read only" : Text))
    if lasting.any fun n => n.toList = name then Action.assign name none
    else modify fun m => { m with vars := m.vars.erase name }

/-- Takes variables or functions away. -/
def unset (arguments : List Text) : Action Nat := do
  let (options, names) ← BuiltinOptions.read [('v', false), ('f', false)] arguments
  let functions := (options.getLast?).any (·.1 = 'f')
  for name in names do
    if functions then modify fun m => { m with functions := m.functions.erase name }
    else unsetVariable name
  return 0

private def setArguments (arguments : List Text) : Action Unit :=
  modify fun m => { m with arguments, optionIndex := 1, optionPlace := none }

/-- Switches options and sets the arguments of the shell, or shows its variables. -/
def set (arguments : List Text) : Action Nat := do
  if arguments.isEmpty then
    Action.print (listing [] (← get) (·.value.isSome))
    return 0
  let r ← ShellOptions.read false arguments
  if r.clears || !r.arguments.isEmpty then setArguments r.arguments
  return 0

/-- Drops arguments of the shell from the front. -/
def shift (arguments : List Text) : Action Nat := do
  let n ← match arguments with
    | a :: _ => Action.number a
    | [] => pure 1
  let own := (← get).arguments
  if own.length < n then Action.fail "can't shift that many"
  setArguments (own.drop n)
  return 0

/-! ## Reading -/

/-- A line that is read: its characters in reverse, with those that were escaped, the bytes that
it takes, and the time at which it is complete, if it is. -/
private structure Line where
  cells : List (Char × Bool) := []
  taken : Nat := 0
  time : Option Nat := none

/-- Takes a line from bytes with their times. -/
private def line (raw : Bool) : (escaping : Bool) → Line → List (Nat × UInt8) → Line
  | _, l, [] => l
  | escaping, l, (time, b) :: rest =>
    let l := { l with taken := l.taken + 1 }
    let c := Char.ofNat b.toNat
    if b = 0 then line raw escaping l rest
    else if escaping then
      if c = '\n' then line raw false l rest
      else line raw false { l with cells := (c, true) :: l.cells } rest
    else if c = '\\' && !raw then line raw true l rest
    else if c = '\n' then { l with time := some time }
    else line raw false { l with cells := (c, false) :: l.cells } rest

/-- Reads a line into variables, of which the last gets all that is left. -/
def read (arguments : List Text) : Action Nat := do
  let (options, names) ← BuiltinOptions.read [('p', true), ('r', false)] arguments
  if names.isEmpty then Action.fail "arg count"
  let raw := options.any (·.1 = 'r')
  let (l, ended) ← match ← Action.readAll 0 false with
    | .error _ => pure (({} : Line), 0)
    | .ok (chunks, ended) =>
      pure (line raw false {} (chunks.flatMap fun k => k.2.map (k.1, ·)), ended)
  modify fun m =>
    match m.opened? 0 with
    | some number => { m with world := m.world.skip number l.taken }
    | none => m
  Action.waitUntil (l.time.getD ended)
  let pieces : List Piece := l.cells.reverse.map fun (c, escaped) =>
    ⟨if escaped then .whole else .fields, [.char c escaped]⟩
  let separators := (← get).separators
  let fields := (Fields.split separators (some names.length) pieces).map Cell.bare
  for (name, i) in names.zipIdx do
    Action.assign name (some (fields[i]?.getD []))
  return if l.time.isSome then 0 else 1

/-! ## Options of scripts -/

/-- Sets a variable without a further effect. -/
private def put (name value : Text) : Action Unit := do
  let m ← get
  Action.assign name (some value)
  modify fun n => { n with optionIndex := m.optionIndex, optionPlace := m.optionPlace }

/-- The letters of options, each with whether it takes a value. -/
private def lettersOf : Text → List (Char × Bool)
  | [] => []
  | c :: ':' :: t => (c, true) :: lettersOf t
  | c :: t => (c, false) :: lettersOf t

/-- What one look at the arguments finds. -/
private structure Glance where
  letter : Char
  value : Option Text
  complaint : Option Text := none
  index : Nat
  place : Option Nat := none
  done : Bool := false

private def glance (letters : Text) (words : List Text) (index : Nat) (place : Option Nat) : Glance :=
  let quiet := letters.head? = some ':'
  let current : Text := match place with
    | some n => if index ≤ 1 then [] else ((words[index - 2]?).getD []).drop n
    | none => []
  let ended (index : Nat) : Glance := { letter := '?', value := none, index, done := true }
  let look (t : Text) (index place : Nat) : Glance :=
    match t with
    | [] => ended index
    | c :: rest =>
      let here : Glance := { letter := c, value := some [], index, place := some (place + 1) }
      match (lettersOf letters).find? fun l => l.1 = c && c ≠ ':' with
      | none =>
        if quiet then { here with letter := '?', value := some [c] }
        else
          { here with
            letter := '?'
            value := none
            complaint := some (("Illegal option -" : Text) ++ [c, '\n']) }
      | some (_, false) => here
      | some (_, true) =>
        if !rest.isEmpty then { here with value := some rest, place := none }
        else
          match words[index - 1]? with
          | some value => { here with value := some value, index := index + 1, place := none }
          | none =>
            if quiet then { here with letter := ':', value := some [c], place := none }
            else
              { here with
                letter := '?'
                place := none
                value := none
                complaint := some (("No arg for -" : Text) ++ [c] ++ (" option\n" : Text)) }
  if !current.isEmpty then look current index (place.getD 0)
  else
    match words[index - 1]? with
    | some ['-', '-'] => ended (index + 1)
    | some ('-' :: c :: t) => look (c :: t) (index + 1) 1
    | _ => ended index

/-- Finds the next option among the arguments of the shell or among its own. -/
def getOptions (arguments : List Text) : Action Nat := do
  match arguments with
  | letters :: name :: own =>
    let m ← get
    let words := if own.isEmpty then m.arguments else own
    let (index, place) := if words.length + 1 < m.optionIndex then (1, none)
      else (m.optionIndex, m.optionPlace)
    let g := glance letters words (max 1 index) place
    if let some t := g.complaint then
      let _ ← Action.write 2 t
    if !g.done then
      match g.value with
      | some t => put "OPTARG" t
      | none => unsetVariable "OPTARG"
    put "OPTIND" (Text.ofNat g.index)
    put name [g.letter]
    modify fun m => { m with optionIndex := g.index, optionPlace := g.place }
    return if g.done then 1 else 0
  | _ => Action.fail "Usage: getopts optstring var [arg...]"

end ConversationFlow.Shell.Builtin

import ConversationFlow.Shell.Builtin.Options

/-!
# Commands on the working directory

The shell follows the names in a path by themselves: two dots take back the name before them,
whatever it stands for.
-/

namespace ConversationFlow.Shell.Builtin

/-- The path of a location as scripts see it. -/
def shownLocation (l : Location) : Text := octets l.path.text

/-- The location that the names of a path lead to. -/
private def follow (start : Location) (path : Text) : Location :=
  (path.splitOn '/').foldl (fun l name =>
    if name.isEmpty || name = ['.'] then l
    else if name = ['.', '.'] then l.dropLast
    else l.child (pathOf name).text) (if path.head? = some '/' then [] else start)

/-- Whether the shell can work in a location that a path leads to. -/
private def reach (m : Machine) (physical : Bool) (path : Text) : Option Location :=
  let fs := m.world.files
  let l := if physical then (fs.locate (pathOf path)).toOption else some (follow fs.cwd path)
  l.filter fun l => fs.node? l == some .directory

/-- Sets a variable that programs inherit. -/
private def setInherited (name value : Text) : Action Unit := do
  Action.assign name (some value)
  modify fun m =>
    let v := (m.vars.get? name).getD { value := none }
    { m with vars := m.vars.insert name { v with exported := true } }

private def enter (l : Location) : Action Unit := do
  let old := (← get).world.files.cwd
  modify fun m => { m with world := { m.world with files := { m.world.files with cwd := l } } }
  setInherited "OLDPWD" (shownLocation old)
  setInherited "PWD" (shownLocation l)

/-- Whether a path is not looked for in other directories. -/
private def isAnchored (path : Text) : Bool :=
  path.head? = some '/' || [['.'], ['.', '.']].contains (path.takeWhile (· ≠ '/'))

/-- Goes to another directory. -/
def changeDirectory (arguments : List Text) : Action Nat := do
  let (options, rest) ← BuiltinOptions.read [('L', false), ('P', false)] arguments
  let physical := (options.getLast?).any (·.1 = 'P')
  let m ← get
  let (path, shows) := match rest.head? with
    | none => ((m.get? "HOME").getD [], false)
    | some ['-'] => ((m.get? "OLDPWD").getD [], true)
    | some path => (path, false)
  let path := if path.isEmpty then ['.'] else path
  let elsewhere := if isAnchored path then []
    else
      match m.get? "CDPATH" with
      | some dirs => (dirs.splitOn ':').filterMap fun dir =>
          (reach m physical (if dir.isEmpty then path else dir ++ '/' :: path)).map
            fun l => (l, !dir.isEmpty)
      | none => []
  match elsewhere.head? <|> (reach m physical path).map (·, false) with
  | some (l, isElsewhere) =>
    enter l
    if shows || isElsewhere then Action.print (shownLocation l ++ ['\n'])
    return 0
  | none => Action.fail (("can't cd to " : Text) ++ path)

/-- Prints the working directory. -/
def printDirectory (arguments : List Text) : Action Nat := do
  let _ ← BuiltinOptions.read [('L', false), ('P', false)] arguments
  Action.print (shownLocation (← get).world.files.cwd ++ ['\n'])
  return 0

end ConversationFlow.Shell.Builtin

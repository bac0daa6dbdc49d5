import ConversationFlow.Shell.Builtin.Options
import ConversationFlow.Shell.Search
import ConversationFlow.Shell.Source

/-!
# Commands on names

The commands of the shell that give names to commands and tell what a name stands for.
-/

namespace ConversationFlow.Shell.Builtin

private def shownAlias (name value : Text) : Text := name ++ '=' :: Quoted.single value ++ ['\n']

/-- The rows of the table of aliases and of that of commands. -/
private def aliasRows : Nat := 39

private def commandRows : Nat := 31

/-- A complaint that does not tell the line. -/
private def complain (t : Text) : Action Unit := do
  let _ ← Action.write 2 (t ++ ['\n'])

/-- Sets and shows aliases. -/
def aliases (arguments : List Text) : Action Nat := do
  if arguments.isEmpty then
    for (name, value) in Machine.inRows aliasRows (← get).aliases.entries do
      Action.print (shownAlias name value)
    return 0
  let results ← arguments.mapM fun a => do
    match (Text.cutAt? '=' a.tail, a) with
    | (some (name, value), c :: _) =>
      modify fun m => { m with aliases := m.aliases.insert (c :: name) value }
      return 0
    | _ =>
      match (← get).aliases.get? a with
      | some value =>
        Action.print (shownAlias a value)
        return 0
      | none =>
        complain (("alias: " : Text) ++ a ++ (" not found" : Text))
        return 1
  return results.foldl max 0

/-- Takes aliases away. -/
def unalias (arguments : List Text) : Action Nat := do
  let (options, names) ← BuiltinOptions.read [('a', false)] arguments
  if !options.isEmpty then
    modify fun m => { m with aliases := .empty }
    return 0
  let results ← names.mapM fun name => do
    if (← get).aliases.contains name then
      modify fun m => { m with aliases := m.aliases.erase name }
      return 0
    complain (("unalias: " : Text) ++ name ++ (" not found" : Text))
    return 1
  return results.foldl max 0

/-- Remembers the path of a program. -/
def remember (name path : Text) : Action Unit :=
  modify fun m =>
    if name.contains '/' then m else { m with located := m.located.insert name path }

/-- Tells what a name stands for, in words or as what could be run. -/
def describe (verbose : Bool) (path : Option Text) (name : Text) : Action Nat := do
  let m ← get
  let say (words brief : Text) : Action Nat := do
    Action.print ((if verbose then name ++ words else brief) ++ ['\n'])
    return 0
  if (Keyword.ofText? name).isSome then say " is a shell keyword" name
  else
    match m.aliases.get? name with
    | some value =>
      if verbose then say ((" is an alias for " : Text) ++ value) []
      else
        Action.print (("alias " : Text) ++ shownAlias name value)
        return 0
    | none =>
      match m.meaning false (path.getD m.searchPath) name with
      | .function _ => say " is a shell function" name
      | .builtin b => say (if b.isSpecial then " is a special shell builtin" else " is a shell builtin") name
      | .missing _ => missing
      | .program paths =>
        let found := paths.headD name
        let exists? := (SearchPath.find m.world.files paths).isOk
          || (name.contains '/' && m.world.files.pathExists (pathOf name))
        if !exists? then missing
        else
          let isKnown := path.isNone && m.located.contains name
          if path.isNone then remember name found
          say ((if isKnown then " is a tracked alias for " else " is " : Text) ++ found) found
where
  missing : Action Nat := do
    if verbose then Action.print (name ++ (": not found\n" : Text))
    return 127

/-- Tells what names stand for. -/
def type (arguments : List Text) : Action Nat := do
  let results ← arguments.mapM (describe true none)
  return results.foldl max 0

/-- Remembers programs, or shows those that are remembered. -/
def hash (arguments : List Text) : Action Nat := do
  let (options, names) ← BuiltinOptions.read [('r', false)] arguments
  if !options.isEmpty then
    modify fun m => { m with located := .empty }
    return 0
  if names.isEmpty then
    for (_, path) in Machine.inRows commandRows (← get).located.entries do
      Action.print (path ++ ['\n'])
    return 0
  let results ← names.mapM fun name => do
    let m ← get
    match m.meaning false m.searchPath name with
    | .missing cause =>
      Action.warn (name ++ (": " : Text) ++ searchReason cause)
      return 1
    | .program paths =>
      remember name (paths.headD name)
      return 0
    | _ => return 0
  return results.foldl max 0

end ConversationFlow.Shell.Builtin

import ConversationFlow.Shell.Options
import ConversationFlow.Shell.Program

/-!
# Changes of files

Programs that make and remove files and directories.
-/

namespace ConversationFlow.Shell.Files

/-- The files as they stand during a program, with what it has done so far. -/
private structure Progress where
  files : FileSystem
  effect : Effect := {}

private def Progress.done (p : Progress) : Effect := { p.effect with files := some p.files }

private def Progress.fail (p : Progress) (c : Call) (what name why : Text) : Progress :=
  let message := what ++ [' '] ++ Quoted.always name ++ (": " : Text) ++ why
  { p with effect := p.effect.complain 1 c.name message }

private def eachFile (c : Call) (table : OptionTable)
    (act : Parsed → Progress → Text → Progress) : Effect :=
  match table.read c.arguments with
  | .error message => .misuse 1 c.name message
  | .ok parsed =>
    if parsed.operands.isEmpty then
      if parsed.has 'f' then {} else .misuse 1 c.name "missing operand"
    else (parsed.operands.foldl (act parsed) { files := c.files }).done

/-- Makes the files that do not exist. -/
def touch (c : Call) : Effect :=
  let table : OptionTable :=
    { letters := ['a', 'c', 'm', 'f'].map (·, .never) ++ ['d', 't', 'r'].map (·, .always) }
  match table.read c.arguments with
  | .error message => .misuse 1 c.name message
  | .ok parsed =>
    if parsed.operands.isEmpty then .misuse 1 c.name "missing file operand"
    else
      (parsed.operands.foldl (fun (p : Progress) name =>
        let path := pathOf name
        if p.files.pathExists path || parsed.has 'c' then p
        else
          match p.files.write path [] with
          | .ok files => { p with files }
          | .error e => p.fail c "cannot touch" name (reason e)) { files := c.files }).done

/-- Removes files, and directories with all that is in them if asked to. -/
def remove (c : Call) : Effect :=
  let table : OptionTable :=
    { letters := ['f', 'i', 'r', 'R', 'd', 'v'].map (·, .never)
      names := [("force", .never, 'f'), ("recursive", .never, 'r'), ("dir", .never, 'd'),
        ("verbose", .never, 'v')] }
  eachFile c table fun parsed p name =>
    let deep := parsed.has 'r' || parsed.has 'R'
    match p.files.locate (pathOf name) with
    | .error e =>
      if parsed.has 'f' && (e = .notFound || e = .notDirectory) then p
      else p.fail c "cannot remove" name (reason e)
    | .ok l =>
      if p.files.node? l == some .directory && !deep then
        if parsed.has 'd' then
          if (p.files.children l).isEmpty then { p with files := p.files.remove l }
          else p.fail c "cannot remove" name "Directory not empty"
        else p.fail c "cannot remove" name "Is a directory"
      else { p with files := p.files.remove l }

/-- Makes directories, and those above them if asked to. -/
def makeDirectory (c : Call) : Effect :=
  let table : OptionTable :=
    { letters := [('p', .never), ('v', .never), ('m', .always)]
      names := [("parents", .never, 'p'), ("verbose", .never, 'v'), ("mode", .always, 'm')] }
  eachFile c table fun parsed p name =>
    let path := pathOf name
    let above := match (path.parent?).filter fun d => !d.isEmpty with
      | some d => d
      | none => "."
    let fails (e : FileError) : Progress := p.fail c "cannot create directory" name (reason e)
    if parsed.has 'p' then
      match p.files.createDirectories path with
      | .ok files => { p with files }
      | .error e => fails e
    else if p.files.pathExists path then fails .alreadyExists
    else if !p.files.pathExists above then fails .notFound
    else
      match p.files.createDirectories path with
      | .ok files => { p with files }
      | .error e => fails e

end ConversationFlow.Shell.Files

import ConversationFlow.Shell.Builtin.Table
import ConversationFlow.Shell.Grammar
import ConversationFlow.Shell.Process
import ConversationFlow.Shell.Program.Environment
import ConversationFlow.Shell.Program.Table
import ConversationFlow.Shell.Redirection

/-!
# Evaluation of commands

A command is evaluated by evaluating the commands in it. The evaluation of those is a
parameter of a single step, so that commands stand only so deep in each other; a shell in
which they stand deeper is ended by a fault.
-/

namespace ConversationFlow.Shell

/-- Where a command stands. If it is tested, its failure does not end the shell; if it is the
last one, the shell ends with it. -/
structure Place where
  tested : Bool := false
  last : Bool := false

/-- An evaluation of commands. -/
abbrev Evaluation := Place → Command → Action Unit

namespace Evaluation

/-! ## Scripts -/

/-- Evaluates a script line by line, and tells the status of its last command. -/
private def lines (run : Evaluation) (place : Place) (echoes : Bool) :
    Nat → Nat → Source → Action Nat
  | 0, status, _ => return status
  | fuel + 1, status, source => do
    let m ← get
    match { source with aliases := m.aliases, documents := m.world.documents }.nextLine with
    | .error fault =>
      modify fun m => { m with line := fault.line }
      Action.fail (("Syntax error: " : Text) ++ fault.cause.message)
    | .ok (found, rest) =>
      modify fun m => { m with world := { m.world with documents := rest.documents } }
      if echoes && m.hasOption 'v' then
        let _ ← Action.write 2 (source.rest.take (source.rest.length - rest.rest.length))
      match found with
      | .ending => return status
      | .blank => lines run place echoes fuel status rest
      | .command c =>
        run { place with last := place.last && rest.isAtEnd } c
        lines run place echoes fuel (← get).status rest

/-- Evaluates a text as a script. -/
def script (run : Evaluation) (place : Place) (t : Text) : Action Nat :=
  lines run place false (t.length + 2) 0 { rest := t }

/-- Evaluates a file as a script, of which lines can be shown as they are read. -/
private def file (run : Evaluation) (t : Text) : Action Nat :=
  lines run {} true (t.length + 2) 0 { rest := t }

/-! ## Ends and signals -/

/-- Carries out the actions for signals that have arrived. -/
private def meetArrived (run : Evaluation) : Action Unit := do
  let m ← get
  if m.arrived.isEmpty then return ()
  set { m with arrived := [], interruptedStatus := some (m.interruptedStatus.getD m.status) }
  for signal in m.arrived do
    let m ← get
    if let some (_, action) := m.traps.find? fun t => t.1 = signal then
      let _ ← script run {} action
      Action.setStatus m.status
  modify fun n => { n with interruptedStatus := m.interruptedStatus }

/-- Does something as a whole shell, which ends with it. The action for the end is carried out,
and keeps the status unless it ends the shell itself. -/
private def wholeShell (run : Evaluation) (act : Action Unit) : Action Unit := do
  let result ← try Except.ok <$> act catch s => pure (.error s)
  match result with
  | .error (.killed s) => Action.stop (.killed s)
  | .error .expired => Action.stop .expired
  | _ =>
    let m ← get
    match m.traps.find? fun t => t.1 = 0 with
    | none => return ()
    | some (_, action) =>
      set { m with
        traps := m.traps.filter fun t => t.1 ≠ 0
        interruptedStatus := some m.status
        loops := 0 }
      try
        let _ ← script run {} action
        Action.setStatus m.status
      catch
        | .killed s => Action.stop (.killed s)
        | .expired => Action.stop .expired
        | .exited | .failed => return ()
        | _ => Action.setStatus m.status

/-- Starts a process that is a shell of its own. -/
private def startShell (run : Evaluation) (act : Action Unit) : Action (Nat × ProcessEnd) :=
  Process.start (wholeShell run act)

/-! ## Output in words -/

/-- What a command prints. Null bytes are left out, and so are line feeds at the end. -/
private def output (run : Evaluation) : Option Command → Action Text
  | none => return []
  | some c => do
    let m ← get
    let (world, writer, reader) := m.world.pipe
    set { m with world }
    let _ ← Process.claimJob
    let part ← startShell run do
      modify fun m => m.redirect 1 (some writer)
      run { last := true } c
    let (chunks, ended) := match (← get).world.unread reader with
      | .ok input => input
      | .error _ => ([], 0)
    Builtin.pauseUntil ended
    let status ← Process.await [part]
    modify fun m => { m with outputStatus := status }
    let t := (chunks.flatMap fun k => Text.ofOctets k.2).filter (· ≠ Char.ofNat 0)
    return (t.reverse.dropWhile (· = '\n')).reverse

/-! ## Programs -/

/-- The variables of a new shell: those that it inherits and those that it sets itself. -/
private def initialVariables (environment : List (Text × Text)) (cwd : Text) (parent : Nat) :
    Dictionary Variable :=
  let known := ["PATH", "IFS", "OPTIND", "PS1", "PS2", "PS4", "PPID"].map String.toList
  let initial : List (Text × Text) :=
    [("PATH", defaultSearchPath), ("PS1", "# "), ("PS2", "> "), ("PS4", "+ ")]
  let fixed : List (Text × Text) :=
    [("IFS", defaultSeparators), ("OPTIND", ['1']), ("PPID", Text.ofNat parent)]
  let start : Dictionary Variable := .ofList (initial.map fun (name, t) => (name, { value := some t }))
  let vars := environment.foldl (fun (vars : Dictionary Variable) (name, t) =>
    if isName name then vars.insert name { value := some t, exported := true } else vars) start
  let vars := fixed.foldl (fun (vars : Dictionary Variable) (name, t) =>
    let exported := ((vars.get? name).any (·.exported)) && known.contains name
    vars.insert name { value := some t, exported }) vars
  vars.insert "PWD" { value := some cwd, exported := true }

/-- What a shell does that is started with arguments. -/
private def mainScript (run : Evaluation) (arguments : List Text) : Action Unit := do
  let r ← ShellOptions.read true arguments
  if !(← get).printed.isEmpty then
    let _ ← Action.write 1 (← get).printed
    modify fun m => { m with printed := [] }
  let readInput : Action Unit := do
    let input ← Action.readAll 0 true
    if let .ok (chunks, ended) := input then
      Action.waitUntil ended
      let _ ← file run (chunks.flatMap fun k => Text.ofOctets k.2)
  let readsInput := (← get).hasOption 's'
  if !(r.hasScript && r.arguments.isEmpty) then ShellOptions.refuseJobControl
  match r.hasScript, r.arguments with
  | true, [] => Action.fail "-c requires an argument"
  | true, t :: rest =>
    modify fun m => { m with name := rest.headD m.name, arguments := rest.tail }
    Action.setStatus (← script run {} t)
    if (← get).hasOption 's' then readInput
  | false, [] =>
    modify fun m => { m with options := 's' :: m.options }
    readInput
  | false, name :: rest =>
    if readsInput then
      modify fun m => { m with arguments := name :: rest }
      readInput
    else
      match contentAt (← get).world.files name with
      | .error .isDirectory => return ()
      | .error e =>
        let why : Text := if SearchPath.isAbsence e then "No such file" else reason e
        Action.fail (("cannot open " : Text) ++ name ++ (": " : Text) ++ why)
      | .ok bytes =>
        modify fun m => { m with name, arguments := rest }
        let _ ← file run (Text.ofOctets bytes)

/-- Runs a new shell in this process. -/
private def host (run : Evaluation) (words : List Text) (environment : List (Text × Text)) :
    Action Unit := fun m =>
  let guest : Machine :=
    { world := m.world
      name := words.headD []
      vars := initialVariables environment (Builtin.shownLocation m.world.files.cwd)
        (m.ancestors.headD (firstProcess - 1))
      traps := m.traps.filter fun t => t.2.isEmpty
      descriptors := m.descriptors
      process := m.process
      ancestors := m.ancestors
      root := m.process
      mask := m.mask
      limits := m.limits
      clock := m.clock
      limit := m.limit }
  let (result, ended) := wholeShell run (mainScript run words.tail) guest
  let m := { m with
    world := ended.world
    clock := ended.clock
    status := ended.status
    descriptors := ended.descriptors }
  match result with
  | .error (.killed s) => (.error (.killed s), m)
  | .error .expired => (.error .expired, m)
  | _ => (.ok (), m)

/-- Where programs are looked for that no search path is given for. -/
def systemSearchPath : Text := "/bin:/usr/bin"

/-- The status of a program that could not be started. -/
private def absenceStatus (e : FileError) : Nat :=
  if SearchPath.isAbsence e || e = .nameTooLong then 127 else 126

/-- Turns this process into a program. -/
def become (run : Evaluation) : Nat → Text → List Text → List (Text × Text) → Action Unit
  | 0, _, _, _ => return ()
  | fuel + 1, program, words, environment => do
    match String.ofList program with
    | "sh" | "dash" => host run words environment
    | "env" =>
      let called := words.headD []
      match Environment.outcome (← Process.call words environment) with
      | .ends e => Process.perform program called e
      | .starts next =>
        let tell (lines : List Text) : Action Unit := do
          if next.told.isSome then
            let _ ← Action.write 2 (lines.flatMap (· ++ ['\n']))
        let failed (status : Nat) (t : Text) : Action Unit :=
          Process.perform program called (({} : Effect).complain status called t)
        tell (next.told.getD [])
        let fs := (← get).world.files
        let inside : Except FileError Location ← match next.directory with
          | none => pure (.ok fs.cwd)
          | some d =>
            tell ["chdir:    ".toList ++ Quoted.always d]
            pure do
              let l ← fs.locate (pathOf d)
              if fs.node? l == some .directory then return l else throw .notDirectory
        match inside with
        | .error e =>
          failed Environment.failure (("cannot change directory to " : Text)
            ++ Quoted.always (next.directory.getD []) ++ (": " : Text) ++ reason e)
        | .ok cwd =>
          modify fun m => { m with
            world := { m.world with files := { m.world.files with cwd } }
            traps := next.ignored.map (·, []) ++ m.traps }
          tell next.announcement
          let path := ((next.environment.find? fun v => v.1 = "PATH".toList).map (·.2)).getD
            systemSearchPath
          let name := next.words.headD []
          match SearchPath.program { fs with cwd } path name with
          | .ok found => become run fuel found next.words next.environment
          | .error e =>
            let hint : Text := if SearchPath.isAbsence e && name.any isSpace then
                ("\n" : Text) ++ called ++ (": use -[v]S to pass options in shebang lines" : Text)
              else []
            failed (absenceStatus e) (Quoted.plain name ++ (": " : Text) ++ reason e ++ hint)
    | _ =>
      match Programs.named? program with
      | some p => Process.perform program (words.headD []) (p (← Process.call words environment))
      | none => Action.setStatus 127

/-- Turns this process into the program that the first of some paths leads to. -/
private def execute (run : Evaluation) (paths words : List Text) : Action Unit := do
  let m ← get
  match SearchPath.start m.world.files paths with
  | .ok program =>
    set { m with traps := m.traps.filter fun t => t.2.isEmpty }
    become run (words.length + 1) program words m.environment
    Action.stop .exited
  | .error e =>
    Action.warn (words.headD [] ++ (": " : Text) ++ searchReason e)
    Action.setStatus (absenceStatus e)
    Action.stop .exited

/-! ## Simple commands -/

/-- The fields of the first words that have any, and the words behind. -/
private def firstFields (out : Option Command → Action Text) :
    List Word → Action (List Text × List Word)
  | [] => return ([], [])
  | w :: rest => do
    let fields ← Expansion.fields out w
    if fields.isEmpty then firstFields out rest else return (fields, rest)

/-- The words of a command while they are evaluated. Words in front can ask for another word not
to be taken for a function, and for another search path. -/
private structure Heading where
  /-- All words so far, and those from the name of the command on. -/
  all : List Text
  words : List Text
  rest : List Word
  skipsFunctions : Bool := false
  path : Option Text := none
  /-- Whether the first name is that of a special command. -/
  special : Option Bool := none
  declares : Bool := false
  isExec : Bool := false

/-- Passes over the options of a word that runs another command, if it runs one. -/
private def passOptions (out : Option Command → Action Text) :
    Nat → Heading → Action (Option Heading)
  | 0, _ => return none
  | fuel + 1, h => do
    let more (h : Heading) : Action Heading := do
      if !h.words.isEmpty then return h
      let (fields, rest) ← firstFields out h.rest
      return { h with all := h.all ++ fields, words := fields, rest }
    let h ← more h
    match h.words with
    | [] => return some h
    | ['-', '-'] :: behind =>
      return some (← more { h with words := behind })
    | ('-' :: c :: t) :: behind =>
      if (c :: t).all (· = 'p') then
        passOptions out fuel { h with words := behind, path := some defaultSearchPath }
      else return some { h with words := [] }
    | _ => return some h

/-- Finds the name of the command behind words that run another command. -/
private def heading (out : Option Command → Action Text) : Nat → Heading → Action Heading
  | 0, h => return h
  | fuel + 1, h => do
    match h.words with
    | [] => return h
    | name :: behind =>
      let m ← get
      match if h.skipsFunctions then none else m.functions.get? name, Builtin.named? name with
      | none, some b =>
        let h := { h with
          declares := b.declares
          special := some (h.special.getD b.isSpecial)
          isExec := b.name = "exec" }
        if b.name ≠ "command" then return h
        else
          let start := { h with all := h.words, words := behind }
          match ← passOptions out (behind.length + h.rest.length + 1) start with
          | none => return h
          | some next =>
            if next.words.isEmpty then return { h with words := next.all, rest := next.rest }
            else heading out fuel { next with skipsFunctions := true, all := next.words }
      | _, _ => return { h with declares := false, isExec := false }

/-- The words of a command. -/
private def evaluatedWords (out : Option Command → Action Text) (words : List Word) :
    Action Heading := do
  let (fields, rest) ← firstFields out words
  let h ← heading out (words.length + fields.length + 1) { all := fields, words := fields, rest }
  let others ← h.rest.mapM fun w => do
    match w.assignment? with
    | some (name, value) =>
      if h.declares then return [name ++ '=' :: (← Expansion.assigned out value)]
      else Expansion.fields out w
    | none => Expansion.fields out w
  return { h with words := h.words ++ others.flatten, rest := [] }

/-- Runs a command of the shell, which prints all at once at its end. -/
private def builtin (words : List Text) (act : Action Nat) : Action Unit := do
  let m ← get
  set { m with speaker := words.head?, printed := [] }
  let result ← try Except.ok <$> act catch s => pure (.error s)
  let flush : Action Bool := do
    let t := (← get).printed
    modify fun m => { m with printed := [] }
    Action.write 1 t
  match result with
  | .ok status =>
    if ← flush then Action.setStatus status
    else
      Action.warn (words.headD [] ++ (": I/O error" : Text))
      Action.setStatus (status ||| 1)
    modify fun n => { n with speaker := m.speaker, printed := m.printed }
  | .error s =>
    if s = .failed then
      let _ ← flush
    modify fun n => { n with speaker := m.speaker, printed := m.printed }
    Action.stop s

/-- Evaluates the text that arguments write together. -/
private def evaluateArguments (run : Evaluation) (place : Place) (arguments : List Text) :
    Action Nat :=
  if arguments.isEmpty then return 0
  else script run { tested := place.tested } (Text.join [' '] arguments)

/-- Evaluates a file in this shell. -/
private def readIn (run : Evaluation) (arguments : List Text) : Action Nat := do
  let (_, arguments) ← BuiltinOptions.read [] arguments
  match arguments with
  | [] => return 0
  | name :: _ =>
    let m ← get
    let paths := SearchPath.pathsOf m.searchPath name
    let fs := m.world.files
    let path ← if name.contains '/' then pure name
      else
        match paths.find? fun p => fs.isFile (pathOf p) with
        | some p => pure p
        | none => Action.fail (name ++ (": not found" : Text))
    match contentAt fs path with
    | .error .isDirectory => return 0
    | .error e =>
      let why : Text := if SearchPath.isAbsence e then "No such file" else reason e
      Action.fail (("cannot open " : Text) ++ path ++ (": " : Text) ++ why)
    | .ok bytes =>
      modify fun m => { m with speaker := some path }
      try file run (Text.ofOctets bytes)
      catch
        | .returned => return (← get).status
        | s => Action.stop s

/-- Tells what a name stands for, where asked to. -/
private def tellName (arguments : List Text) : Action Nat := do
  let (options, names) ← BuiltinOptions.read [('p', false), ('v', false), ('V', false)] arguments
  let verbose := options.any (·.1 = 'V')
  let path := if options.any (·.1 = 'p') then some defaultSearchPath else none
  match names with
  | name :: _ =>
    if verbose || options.any (·.1 = 'v') then Builtin.describe verbose path name else return 0
  | [] => return 0

/-- Turns the shell into a program, if one is named. -/
private def replace (run : Evaluation) (arguments : List Text) : Action Nat := do
  let (_, words) ← BuiltinOptions.read [] arguments
  match words with
  | [] => return 0
  | name :: _ =>
    let m ← get
    execute run (SearchPath.pathsOf m.searchPath name) words
    return 0

private def runBuiltin (run : Evaluation) (place : Place) (b : Builtin) (words : List Text) :
    Action Unit :=
  builtin words (match b.name with
    | "eval" => evaluateArguments run place words.tail
    | "." => readIn run words.tail
    | "command" => tellName words.tail
    | "exec" => replace run words.tail
    | _ =>
      match Builtin.run? b.name.toList with
      | some act => act words.tail
      | none => return 0)

/-- How deep functions may be called from each other. -/
def callLimit : Nat := 1000

/-- Calls a function. It has arguments and loops of its own. -/
private def callFunction (run : Evaluation) (place : Place) (body : Command) (words : List Text) :
    Action Unit := do
  let outer ← get
  if callLimit ≤ outer.calls then
    Action.fail (("Maximum function recursion depth (" : Text) ++ Text.ofNat callLimit
      ++ (") reached" : Text))
  set { outer with
    arguments := words.tail
    calls := outer.calls + 1
    loops := 0
    optionIndex := 1
    optionPlace := none
    scopes := [] :: outer.scopes }
  let call : Action Unit := do
    try run { tested := place.tested } body
    catch
      | .returned => return ()
      | s => Action.stop s
  Action.ensuring call do
    Action.closeScope
    modify fun m => { m with
      arguments := outer.arguments
      calls := outer.calls
      loops := outer.loops
      optionIndex := outer.optionIndex
      optionPlace := outer.optionPlace }

/-- Shows a command that is about to be run. -/
private def trace (descriptor : Option Nat) (assigned : List (Text × Text)) (words : List Text) :
    Action Unit := do
  let m ← get
  let shown := assigned.map (fun (name, t) => name ++ '=' :: t) ++ words
  let line := (m.get? "PS4").getD [] ++ Text.join [' '] shown ++ ['\n']
  if let some number := descriptor then
    if let .ok world := m.world.write m.clock m.process number (Text.toOctets line) then
      set { m with world }

/-- Runs a command whose words are evaluated. -/
private def runCommand (run : Evaluation) (place : Place) (h : Heading) : Action Unit := do
  let isSpecial := h.special = some true
  let contain (act : Action Unit) : Action Unit := do
    try act
    catch
      | .failed => if isSpecial then Action.stop .failed
      | s => Action.stop s
  match h.words with
  | [] => Action.setStatus (← get).outputStatus
  | name :: _ =>
    let m ← get
    match m.meaning h.skipsFunctions (h.path.getD m.searchPath) name with
    | .builtin b => contain (runBuiltin run place b h.words)
    | .function body => callFunction run place body h.words
    | .missing cause =>
      Action.warn (name ++ (": " : Text) ++ searchReason cause)
      Action.setStatus 127
    | .program paths =>
      if h.path.isNone then Builtin.remember name (paths.headD name)
      if place.last && !m.hasTraps then execute run paths h.words
      else
        let _ ← Process.claimJob
        Action.setStatus (← Process.await [← Process.start (execute run paths h.words)])

/-- Evaluates a simple command: its words, then its redirections, then its assignments. -/
private def simple (run : Evaluation) (place : Place) (assignments : List (Text × Word))
    (words : List Word) (redirects : List Redirect) : Action Unit := do
  let out := output run
  Action.countStep
  modify fun m => { m with outputStatus := 0 }
  let h ← evaluatedWords out words
  let isSpecial := h.special = some true
  let keeps := !h.words.isEmpty && !isSpecial
  let isExec := h.isExec && h.special.isSome
  let changes ← Redirection.evaluate out redirects
  let before ← get
  if keeps then set { before with scopes := [] :: before.scopes }
  let saved := Redirection.before before changes
  let body : Action Unit := do
    let opened ← try
        Redirection.apply out changes
        pure true
      catch
        | .failed => pure false
        | s => Action.stop s
    if !opened then
      Action.setStatus 2
      if isSpecial then Action.stop .failed
    else
      let assigned ← assignments.mapM fun (name, w) => do
        let t ← Expansion.assigned out w
        if keeps then Action.keepLocal name
        Action.assign name (some t)
        if keeps || (isExec && 1 < h.words.length) then
          modify fun m =>
            let v := (m.vars.get? name).getD { value := none }
            { m with vars := m.vars.insert name { v with exported := true } }
        return (name, t)
      if (← get).hasOption 'x' then trace (before.opened? 2) assigned h.words
      runCommand run place h
  let after : Action Unit := do
    if !isExec then Redirection.restore saved
    if keeps then Action.closeScope
  Action.ensuring body after

/-! ## Compound commands -/

/-- Evaluates something under redirections, unless they fail. -/
private def underRedirections (run : Evaluation) (redirects : List Redirect) (act : Action Unit) :
    Action Unit := do
  let out := output run
  let changes ← Redirection.evaluate out redirects
  let saved := Redirection.before (← get) changes
  let body : Action Unit := do
    let opened ← try
        Redirection.apply out changes
        pure true
      catch
        | .failed => pure false
        | s => Action.stop s
    if opened then act else Action.setStatus 2
  Action.ensuring body (Redirection.restore saved)

/-- What a process does that is a part of the shell. -/
private def part (run : Evaluation) (place : Place) (redirects : List Redirect) (body : Command) :
    Action Unit := do
  let out := output run
  let changes ← Redirection.evaluate out redirects
  Redirection.apply out changes
  run { place with last := true } body
  Action.stop .exited

private def subshell (run : Evaluation) (place : Place) (redirects : List Redirect)
    (body : Command) : Action Unit := do
  if place.last && !(← get).hasTraps then part run place redirects body
  else
    let _ ← Process.claimJob
    Action.setStatus (← Process.await [← startShell run (part run place redirects body)])

/-- Lets the input of a process in the background be empty. -/
private def withoutInput : Action Unit := do
  let m ← get
  let (world, number) := m.world.keep { target := .nothing, reads := true }
  set { m with world }
  modify fun m => m.redirect 0 (some number)

/-- Notes processes in the background. -/
private def note (number : Nat) (parts : List (Nat × ProcessEnd)) : Action Unit := do
  let job : Job := { number, processes := parts.map fun (process, ending) => { process, ending } }
  modify fun m => { m with
    jobs := job :: m.jobs
    lastJob := job.last?.map (·.process) }
  Action.setStatus 0

private def background (run : Evaluation) (redirects : List Redirect) (body : Command) :
    Action Unit := do
  let number ← Process.claimJob
  let started ← startShell run do
    withoutInput
    part run {} redirects body
  note number [started]

/-- Starts the commands of a pipeline, each of which reads what the one before it writes. -/
private def startAll (run : Evaluation) (place : Place) (isBackground : Bool) :
    (reader : Option Nat) → List Command → Action (List (Nat × ProcessEnd))
  | _, [] => return []
  | reader, c :: rest => do
    let m ← get
    let (world, writer, next) : World × Option Nat × Option Nat :=
      if rest.isEmpty then (m.world, none, none)
      else
        let (world, writer, next) := m.world.pipe
        (world, some writer, some next)
    set { m with world }
    let first ← startShell run do
      if reader.isNone && isBackground then withoutInput
      if let some number := reader then modify fun m => m.redirect 0 (some number)
      if let some number := writer then modify fun m => m.redirect 1 (some number)
      run { place with last := true } c
      Action.stop .exited
    return first :: (← startAll run place isBackground next rest)

private def pipeline (run : Evaluation) (place : Place) (commands : List Command)
    (isBackground : Bool) : Action Unit := do
  let number ← Process.claimJob
  let parts ← startAll run place isBackground none commands
  if isBackground then note number parts
  else Action.setStatus (← Process.await parts)

/-- What a part of a round comes to: it is finished, the round is given up, or the loop is. -/
private inductive Round where
  | finished
  | skipped
  | left
deriving DecidableEq

private def round (part : Action Unit) : Action Round := do
  try
    part
    return .finished
  catch
    | .broken n =>
      if n ≤ 1 then return .left else Action.stop (.broken (n - 1))
    | .continued n =>
      if n ≤ 1 then return .skipped else Action.stop (.continued (n - 1))
    | s => Action.stop s

private def inLoop (act : Action Unit) : Action Unit := do
  modify fun m => { m with loops := m.loops + 1 }
  Action.ensuring act (modify fun m => { m with loops := m.loops - 1 })

/-- The rounds of a loop, with the status of the last one. -/
private def rounds (run : Evaluation) (place : Place) (untilTrue : Bool) (condition body : Command) :
    Nat → Nat → Action Nat
  | 0, status => return status
  | fuel + 1, status => do
    Action.countStep
    let started ← round (run { tested := true } condition)
    if started = .left then return status
    if started = .skipped then rounds run place untilTrue condition body fuel status
    else
      let holds := ((← get).status = 0) != untilTrue
      if !holds then return status
      let ended ← round (run { tested := place.tested } body)
      let status := (← get).status
      if ended = .left then return status
      rounds run place untilTrue condition body fuel status

private def forEach (run : Evaluation) (place : Place) (name : Text) (body : Command) :
    List Text → Nat → Action Nat
  | [], status => return status
  | value :: rest, _ => do
    Action.countStep
    Action.assign name (some value)
    let ended ← round (run { tested := place.tested } body)
    let status := (← get).status
    if ended = .left then return status
    forEach run place name body rest status

/-- Evaluates the command of the first case that has a matching pattern. -/
private def choose (run : Evaluation) (place : Place) (t : Text) :
    List (List Word × Option Command) → Action Unit
  | [] => Action.setStatus 0
  | (patterns, body) :: rest => do
    let matching ← patterns.anyM fun w => do
      return Pattern.accepts (← Expansion.pattern (output run) w) t
    if !matching then choose run place t rest
    else
      match body with
      | some c => run place c
      | none => Action.setStatus 0

/-- Evaluates commands one behind the other. -/
private def inSequence (run : Evaluation) (place : Place) : List Command → Action Unit
  | [] => return ()
  | [c] => run place c
  | c :: rest => do
    run { tested := place.tested } c
    inSequence run place rest

private def atLine (line : Nat) : Action Unit := modify fun m => { m with line }

/-- Evaluates a command by an evaluation of the commands in it, and tells whether its failure
can end the shell. -/
private def body (run : Evaluation) (place : Place) (c : Command) : Action Bool := do
  match c with
  | .simple line assignments words redirects =>
    atLine line
    simple run place assignments words redirects
    return true
  | .sequence commands =>
    inSequence run place commands
    return false
  | .conjunction first second =>
    run { tested := true } first
    if (← get).status = 0 then run place second
    return false
  | .disjunction first second =>
    run { tested := true } first
    if (← get).status ≠ 0 then run place second
    return false
  | .negation command =>
    run { tested := true } command
    Action.setStatus (if (← get).status = 0 then 1 else 0)
    return false
  | .pipeline commands isBackground =>
    pipeline run place commands isBackground
    return true
  | .background line command redirects =>
    atLine line
    background run redirects command
    return true
  | .subshell line command redirects =>
    atLine line
    subshell run place redirects command
    return true
  | .redirected line command redirects =>
    atLine line
    underRedirections run redirects (run { tested := place.tested } command)
    return false
  | .conditional condition yes no =>
    run { tested := true } condition
    if (← get).status = 0 then run place yes
    else
      match no with
      | some c => run place c
      | none => Action.setStatus 0
    return false
  | .loop untilTrue condition command =>
    inLoop do
      let fuel := (← get).world.stepsLeft + 1
      Action.setStatus (← rounds run place untilTrue condition command fuel 0)
    return false
  | .forEach line name words command =>
    atLine line
    let values ← words.mapM (Expansion.fields (output run))
    inLoop do
      Action.setStatus (← forEach run place name command values.flatten 0)
    return false
  | .choice line word cases =>
    atLine line
    let t ← Expansion.text (output run) word
    choose run place t cases
    return false
  | .function name command =>
    modify fun m => { m with functions := m.functions.insert name command }
    Action.setStatus 0
    return false

/-- Evaluates a command by an evaluation of the commands in it. -/
def step (run : Evaluation) : Evaluation := fun place c => do
  if !(← get).hasOption 'n' then
    let _ ← Builtin.meetUntil (← get).clock false
    meetArrived run
    let canEnd ← body run place c
    let m ← get
    if canEnd && !place.tested && m.hasOption 'e' && m.status ≠ 0 then Action.stop .exited
    let _ ← Builtin.meetUntil (← get).clock false
    meetArrived run
  if place.last then Action.stop .exited

/-- The evaluation of commands that stand at most so deep in each other. -/
def toDepth : Nat → Evaluation
  | 0 => fun _ _ => Action.stop (.killed Signal.fault)
  | depth + 1 => step (toDepth depth)

end Evaluation

end ConversationFlow.Shell

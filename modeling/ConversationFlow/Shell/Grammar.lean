import ConversationFlow.Shell.Token

/-!
# Reading commands

Commands are read one complete line at a time, so that what a line does, such as the
definition of an alias, can bear on the lines after it. A command that spans lines is
complete with its last one.
-/

namespace ConversationFlow.Shell

/-- The commands of the shell itself that a function cannot replace. -/
def specialCommands : List String := [
  ".", ":", "break", "continue", "eval", "exec", "exit", "export", "local", "readonly", "return",
  "set", "shift", "times", "trap", "unset"]

/-- Where a list of commands stands: on a line of its own, in a command that needs it, or where
there may be none. -/
inductive ListPlace where
  | line
  | body
  | optional
deriving DecidableEq

namespace Reading

/-- A list of commands, which were read in reverse. -/
private def listed : List Command → Option Command
  | [] => none
  | [c] => some c
  | cs => some (.sequence cs.reverse)

private def inBackground (line : Nat) : Command → Command
  | .pipeline cs _ => .pipeline cs true
  | .redirected line body redirects => .background line body redirects
  | c => .background line c []

private def withRedirects (line : Nat) (c : Command) (redirects : List Redirect) : Command :=
  if redirects.isEmpty then c
  else
    match c with
    | .subshell line body _ => .subshell line body redirects
    | c => .redirected line c redirects

/-- The word that a pattern of a choice consists of. -/
private def patternWord : Token → Word
  | .word w => w
  | .keyword k => .ofText k.text
  | _ => []

/-- A word of all arguments, each a field of its own. -/
private def allArguments : Word :=
  [.mark, .parameter ['@'] .value false true [], .mark]

/-- The readers of what commands are made of, for commands that stand deeper. -/
structure Rules where
  list : ListPlace → Reading (Option Command)
  command : Lookout → Reading Command

namespace Rules

private def next (r : Rules) (look : Lookout) : Reading Token := do
  token (r.list .optional) look (← budget)

private def expect (r : Rules) (expected : Token) (isExpected : Token → Bool) : Reading Unit := do
  let t ← r.next {}
  if isExpected t then return () else unexpected t (some expected.shown)

private def expectKeyword (r : Rules) (k : Keyword) : Reading Unit :=
  r.expect (.keyword k) (Token.isKeyword k)

private def expectClosing (r : Rules) : Reading Unit :=
  r.expect .closing fun
    | .closing => true
    | _ => false

/-- A list of commands that has to be there. -/
private def body (r : Rules) : Reading Command := do return (← r.list .body).getD default

/-- A redirection whose sign has been read. -/
private def redirect (r : Rules) (sign : RedirectSign) (descriptor : Nat) : Reading Redirect := do
  match sign with
  | .document stripsTabs =>
    let delimiter ← documentDelimiter (r.list .optional)
    let number := (← get).documents.size
    modify fun s => { s with
      documents := s.documents.push []
      pending := s.pending ++ [⟨number, delimiter.bare, delimiter.isQuoted, stripsTabs⟩] }
    return .document descriptor number
  | .duplicate =>
    match ← r.next {} with
    | .word w => return .duplicate descriptor w
    | t => unexpected t none
  | .file access =>
    match ← r.next {} with
    | .word w => return .file access descriptor w
    | t => unexpected t none

/-- The redirections behind those that were read in reverse. -/
private def redirectsFrom (r : Rules) (look : Lookout) : Nat → List Redirect → Reading (List Redirect)
  | 0, _ => fail .tooDeep
  | fuel + 1, read => do
    match ← r.next look with
    | .redirect sign descriptor =>
      redirectsFrom r {} fuel ((← r.redirect sign descriptor) :: read)
    | t =>
      putBack t
      return read.reverse

/-- What follows `if` or `elif`, up to the end of the command. -/
private def conditional (r : Rules) : Nat → Reading Command
  | 0 => fail .tooDeep
  | fuel + 1 => do
    let condition ← r.body
    r.expectKeyword .then_
    let yes ← r.body
    match ← r.next {} with
    | .keyword .elif_ => return .conditional condition yes (some (← conditional r fuel))
    | .keyword .else_ =>
      let no ← r.body
      return .conditional condition yes (some no)
    | t =>
      putBack t
      return .conditional condition yes none

private def loop (r : Rules) (untilTrue : Bool) : Reading Command := do
  let condition ← r.body
  r.expectKeyword .do_
  let c ← r.body
  r.expectKeyword .done_
  return .loop untilTrue condition c

/-- The words of a loop, up to the end of the line. -/
private def loopWords (r : Rules) : Nat → List Word → Reading (List Word)
  | 0, _ => fail .tooDeep
  | fuel + 1, read => do
    match ← r.next {} with
    | .word w => loopWords r fuel (w :: read)
    | .newline | .semicolon => return read.reverse
    | t => unexpected t none

private def loopName (r : Rules) : Reading Text := do
  match ← r.next {} with
  | .word w =>
    match w.plain?.filter isName with
    | some name => return name
    | none => fail .notLoopVariable
  | _ => fail .notLoopVariable

private def forEach (r : Rules) (line : Nat) : Reading Command := do
  let name ← r.loopName
  let words ← match ← r.next .command with
    | .keyword .in_ => r.loopWords (← budget) []
    | .semicolon => pure [allArguments]
    | t =>
      putBack t
      pure [allArguments]
  match ← r.next .command with
  | .keyword .do_ =>
    let c ← r.body
    r.expectKeyword .done_
    return .forEach line name words c
  | t => unexpected t (some (Token.keyword .do_).shown)

/-- The patterns of a case behind those that were read in reverse. -/
private def patternsFrom (r : Rules) : Nat → List Word → Reading (List Word)
  | 0, _ => fail .tooDeep
  | fuel + 1, read => do
    match ← r.next {} with
    | .bar => patternsFrom r fuel (patternWord (← r.next {}) :: read)
    | .closing => return read.reverse
    | t => unexpected t (some Token.closing.shown)

/-- The cases behind those that were read in reverse. -/
private def casesFrom (r : Rules) : Nat → List (List Word × Option Command) →
    Reading (List (List Word × Option Command))
  | 0, _ => fail .tooDeep
  | fuel + 1, read => do
    let look : Lookout := { skipsLines := true, keywords := true }
    match ← r.next look with
    | .keyword .esac_ => return read.reverse
    | t =>
      let first ← match t with
        | .opening => r.next {}
        | t => pure t
      let words ← r.patternsFrom (← budget) [patternWord first]
      let c ← r.list .optional
      match ← r.next look with
      | .keyword .esac_ => return ((words, c) :: read).reverse
      | .endOfCase => casesFrom r fuel ((words, c) :: read)
      | t => unexpected t (some Token.endOfCase.shown)

private def choice (r : Rules) (line : Nat) : Reading Command := do
  match ← r.next {} with
  | .word w =>
    match ← r.next .command with
    | .keyword .in_ => return .choice line w (← r.casesFrom (← budget) [])
    | t => unexpected t (some (Token.keyword .in_).shown)
  | t => unexpected t (some (Token.word []).shown)

/-- A command of words, or the definition of a function. Assignments stand in front of the
words. -/
private def simpleFrom (r : Rules) (line : Nat) (first : Bool) :
    Nat → List (Text × Word) → List Word → List Redirect → Reading Command
  | 0, _, _, _ => fail .tooDeep
  | fuel + 1, assignments, words, redirects => do
    match ← r.next { aliases := first } with
    | .word w =>
      match if first then w.assignment? else none with
      | some a => simpleFrom r line true fuel (a :: assignments) words redirects
      | none => simpleFrom r line false fuel assignments (w :: words) redirects
    | .redirect sign descriptor =>
      simpleFrom r line first fuel assignments words ((← r.redirect sign descriptor) :: redirects)
    | t =>
      match t, assignments, words, redirects with
      | .opening, [], [w], [] =>
        r.expectClosing
        match w.plain?.filter fun n => isName n && !specialCommands.any (·.toList = n) with
        | some name => return .function name (← r.command .command)
        | none => fail .notFunctionName
      | t, _, _, _ =>
        putBack t
        return .simple line assignments.reverse words.reverse redirects.reverse

/-- A command that is not joined to others. -/
private def oneCommand (r : Rules) (look : Lookout) : Reading Command := do
  let line := (← get).line
  let complete (c : Command) : Reading Command := do
    let look := { Lookout.command with skipsLines := false }
    return withRedirects line c (← r.redirectsFrom look (← budget) [])
  match ← r.next look with
  | .keyword .if_ =>
    let c ← r.conditional (← budget)
    r.expectKeyword .fi_
    complete c
  | .keyword .while_ => complete (← r.loop false)
  | .keyword .until_ => complete (← r.loop true)
  | .keyword .for_ => complete (← r.forEach line)
  | .keyword .case_ => complete (← r.choice line)
  | .keyword .opening =>
    let c ← r.body
    r.expectKeyword .closing
    complete c
  | .opening =>
    let c ← r.body
    r.expectClosing
    complete (.subshell line c [])
  | t@(.word _) | t@(.redirect ..) =>
    putBack t
    r.simpleFrom (← get).line true (2 * (← budget)) [] [] []
  | t => unexpected t none

/-- The commands behind those of a pipeline that were read in reverse. -/
private def pipelineFrom (r : Rules) : Nat → List Command → Reading Command
  | 0, _ => fail .tooDeep
  | fuel + 1, read => do
    match ← r.next {} with
    | .bar => pipelineFrom r fuel ((← r.command .command) :: read)
    | t =>
      putBack t
      match read with
      | [c] => return c
      | cs => return .pipeline cs.reverse false

private def pipeline (r : Rules) (look : Lookout) : Reading Command := do
  let t ← r.next look
  let negated := t.isKeyword .bang
  if !negated then putBack t
  let first ← r.command (if negated then { Lookout.command with skipsLines := false } else {})
  let c ← r.pipelineFrom (← budget) [first]
  return if negated then .negation c else c

/-- The pipelines behind a command that `&&` and `||` join to it, which group to the left. -/
private def chainFrom (r : Rules) : Nat → Command → Reading Command
  | 0, _ => fail .tooDeep
  | fuel + 1, c => do
    match ← r.next {} with
    | .both => chainFrom r fuel (.conjunction c (← r.pipeline .command))
    | .either => chainFrom r fuel (.disjunction c (← r.pipeline .command))
    | t =>
      putBack t
      return c

/-- The commands of a list behind those that were read in reverse. The token that ended it is
left to be read again. -/
private def listFrom (r : Rules) (place : ListPlace) :
    Nat → Bool → List Command → Reading (Option Command)
  | 0, _, _ => fail .tooDeep
  | fuel + 1, mayEnd, read => do
    match ← r.next { Lookout.command with skipsLines := place ≠ .line } with
    | .newline =>
      pendingDocuments (r.list .optional)
      return listed read
    | .ending =>
      pendingDocuments (r.list .optional)
      putBack .ending
      return listed read
    | t =>
      putBack t
      if place ≠ .line && mayEnd && t.endsList then return listed read
      else
        let first ← r.pipeline {}
        let c ← r.chainFrom (← budget) first
        match ← r.next {} with
        | .ending =>
          pendingDocuments (r.list .optional)
          putBack .ending
          return listed (c :: read)
        | .newline =>
          putBack .newline
          listFrom r place fuel true (c :: read)
        | .semicolon => listFrom r place fuel true (c :: read)
        | .ampersand => listFrom r place fuel true (inBackground (← get).line c :: read)
        | t =>
          if place = .line then unexpected t none
          else
            putBack t
            return listed (c :: read)

end Rules

mutual

/-- A list of commands in which commands stand at most so deep. -/
private def list : Nat → ListPlace → Reading (Option Command)
  | 0, _ => fail .tooDeep
  | depth + 1, place => do
    Rules.listFrom ⟨list depth, command depth⟩ place (2 * (← budget)) (place = .optional) []

/-- A command in which commands stand at most so deep. -/
private def command : Nat → Lookout → Reading Command
  | 0, _ => fail .tooDeep
  | depth + 1, look => Rules.oneCommand ⟨list depth, command depth⟩ look

end

/-- What stands next in a script. -/
private def lineCommand : Reading (Option Command) := do
  list (2 * (← budget) + 8) .line

end Reading

/-- What the next line of a script holds. -/
inductive ScriptLine where
  | ending
  | blank
  | command (c : Command)

namespace Source

/-- Whether the end of the script has been seen. -/
def isAtEnd (s : Source) : Bool :=
  match s.ahead with
  | some .ending => true
  | _ => false

/-- Reads the next complete command. -/
def nextLine (s : Source) : Except LocatedFault (ScriptLine × Source) :=
  match Reading.lineCommand.run { s with ahead := none, pending := [] } with
  | .error fault => .error fault
  | .ok (some c, s) => .ok (.command c, s)
  | .ok (none, s) => .ok (if s.isAtEnd then .ending else .blank, s)

end Source

end ConversationFlow.Shell

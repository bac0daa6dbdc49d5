import ConversationFlow.Files.FileSystem
import ConversationFlow.Settings
import ConversationFlow.Value.Duration
import ConversationFlow.Value.Words

/-!
# Running commands

The settings of a conversation decide what a command line means: a script for the
shell, or a program with its arguments. They also fix the directory, the environment
and the time that it may take.
-/

namespace ConversationFlow

/-! ## Output of commands

What a command left behind, and how the agent is told about it.
-/

/-- The first `limit` characters of an output, with a note on how many more there are. -/
def truncateOutput (t : Text) : Option Nat → Text
  | none => t
  | some limit =>
    if t.length ≤ limit then t
    else t.take limit ++ "\n[output truncated: " ++ Text.ofNat (t.length - limit)
      ++ " more characters]"

/-- How a command ended and what it printed. A command that a signal or the end of its time
ended has no exit code. -/
structure CommandOutput where
  command : Text
  exitCode : Option Int
  stdout : Text
  stderr : Text
  timedOut : Bool
  timeout : Duration
deriving DecidableEq

namespace CommandOutput

/-- A command that could not be started counts as one that ended with code 127. -/
def notStarted (command message : Text) (timeout : Duration) : CommandOutput where
  command
  exitCode := some 127
  stdout := []
  stderr := message
  timedOut := false
  timeout

def passed (o : CommandOutput) : Bool := !o.timedOut && o.exitCode == some 0

/-- How the command ended. -/
def status (o : CommandOutput) : Text :=
  if o.timedOut then "timed out after " ++ o.timeout.text
  else
    match o.exitCode with
    | none => "was terminated by a signal"
    | some code => if code = 0 then "succeeded" else "failed with exit code " ++ Text.ofInt code

/-- What was printed: the output, then what went to the error stream. -/
private def printed (o : CommandOutput) : Text :=
  let out : Text := if Text.allBlank o.stdout then [] else Text.trimEnd o.stdout
  let err : Text := if Text.allBlank o.stderr then [] else "[stderr]\n" ++ Text.trimEnd o.stderr
  if out.isEmpty && err.isEmpty then "(no output)"
  else if out.isEmpty || err.isEmpty then out ++ err
  else out ++ "\n\n" ++ err

/-- The text that tells the agent of the command. -/
def render (o : CommandOutput) (limit : Option Nat) : Text :=
  "Command `" ++ o.command ++ "` " ++ o.status ++ ":\n\n```\n"
    ++ truncateOutput o.printed limit ++ "\n```"

end CommandOutput

/-! ## Words of a command

A command that runs without a shell is a program and its arguments, written as words
between blanks. Single quotes keep everything; double quotes let a backslash escape a
few characters; outside quotes a backslash keeps the next character, and joins two
lines before a line feed. Nothing is expanded.
-/

/-- Why a command has no words. -/
inductive CommandFault where
  | openSingleQuote
  | openDoubleQuote
  | trailingBackslash
deriving DecidableEq

def CommandFault.message : CommandFault → Text
  | .openSingleQuote => "unterminated single quote"
  | .openDoubleQuote => "unterminated double quote"
  | .trailingBackslash => "trailing backslash"

namespace CommandWords

/-- The quotes that a character stands in. -/
inductive Quoting where
  | bare
  | single
  | double
deriving DecidableEq

/-- A character that a backslash escapes between double quotes. -/
def isEscapable (c : Char) : Bool := c = '"' || c = '\\' || c = '$' || c = '`'

/-- The word being read, in reverse, with one more character. -/
private def push (c : Char) (word : Option Text) : Option Text := some (c :: word.getD [])

/-- Reads on between the given quotes with the word being read in reverse. -/
def scan : Quoting → (word : Option Text) → Text → Except CommandFault (List Text)
  | .bare, word, [] => .ok (Words.finish word)
  | .single, _, [] => .error .openSingleQuote
  | .double, _, [] => .error .openDoubleQuote
  | .single, word, c :: t =>
    if c = '\'' then scan .bare word t else scan .single (push c word) t
  | .double, word, [c] => if c = '"' then scan .bare word [] else .error .openDoubleQuote
  | .double, word, c :: d :: t =>
    if c = '"' then scan .bare word (d :: t)
    else if c = '\\' && isEscapable d then scan .double (push d word) t
    else scan .double (push c word) (d :: t)
  | .bare, word, [c] =>
    if c = '\\' then .error .trailingBackslash
    else if c = '\'' then .error .openSingleQuote
    else if c = '"' then .error .openDoubleQuote
    else if Text.isBlank c then .ok (Words.finish word)
    else .ok (Words.finish (push c word))
  | .bare, word, c :: d :: t =>
    if c = '\\' then scan .bare (if d = '\n' then word else push d word) t
    else if c = '\'' then scan .single (some (word.getD [])) (d :: t)
    else if c = '"' then scan .double (some (word.getD [])) (d :: t)
    else if Text.isBlank c then (scan .bare none (d :: t)).map (Words.finish word ++ ·)
    else scan .bare (push c word) (d :: t)

/-- The words of a command. -/
def split (command : Text) : Except CommandFault (List Text) := scan .bare none command

end CommandWords

/-! ## What is started -/

/-- Why a command or a check did not take place. -/
inductive CommandError where
  | unreadable (command : Text) (fault : CommandFault)
  | empty
  | notStarted (command : Text) (cause : FileError)
  | hostFailed (step message : Text)
deriving DecidableEq

def CommandError.message : CommandError → Text
  | .unreadable command fault =>
    "Cannot parse command '" ++ command ++ "': " ++ fault.message
  | .empty => "Empty command"
  | .notStarted command cause => "Failed to start '" ++ command ++ "': " ++ cause.message
  | .hostFailed step message => step ++ " failed: " ++ message

/-- What is started for a command. -/
inductive Invocation where
  | script (text : Text)
  | program (name : Text) (arguments : List Text)
deriving DecidableEq

/-- A path from a base directory, which an absolute one does not need. -/
def Path.within (base : Path) (dir : Option Text) : Path :=
  match dir with
  | some d => base.join ⟨d⟩
  | none => base

/-- The settings of commands and the directory that they run in. -/
structure CommandRunner where
  settings : RunSettings
  cwd : Path

namespace CommandRunner

/-- The runner of a conversation that works in `base`. -/
def ofSettings (settings : RunSettings) (base : Path) : CommandRunner where
  settings
  cwd := base.within settings.cwd

/-- What a command line starts. -/
def invocation (r : CommandRunner) (command : Text) : Except CommandError Invocation :=
  if r.settings.allowShell then .ok (.script command)
  else
    match CommandWords.split command with
    | .error fault => .error (.unreadable command fault)
    | .ok [] => .error .empty
    | .ok (name :: arguments) => .ok (.program name arguments)

end CommandRunner

end ConversationFlow

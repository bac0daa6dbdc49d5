import ConversationFlow.Compile.Written
import ConversationFlow.Step.Merge

/-!
# Conversations

A conversation is a compiled file with its linked steps merged and the points for
humans moved along with them.
-/

namespace ConversationFlow

/-- A conversation that is ready to run, and what it was compiled to before merging. -/
structure Conversation where
  settings : Settings
  steps : List Step
  compiled : Compiled

namespace Conversation

def ofCompiled (c : Compiled) : Conversation where
  settings := c.settings.renumber (Step.mergeWithMap c.steps).2
  steps := (Step.mergeWithMap c.steps).1
  compiled := c

/-- The conversation of a text. -/
def ofText (fs : FileSystem) (registry : Registry) (text : Text) :
    Except CompileError Conversation := do
  return ofCompiled (← Compiled.ofText fs registry text)

/-- The conversation of a file. -/
def ofFile (fs : FileSystem) (registry : Registry) (path : Path) :
    Except CompileError Conversation := do
  return ofCompiled (← Compiled.ofFile fs registry path)

def source (c : Conversation) : Option Path := c.compiled.source

/-- The stem of the file's name, or `inline`. -/
def name (c : Conversation) : Text := (c.source.bind Path.stem?).getD "inline"

/-- The directory from which relative names are looked up. -/
def baseDir (c : Conversation) : Path :=
  match c.source.bind Path.parent? with
  | some p => if p.isEmpty then "." else p
  | none => "."

/-- The number of steps that are turns. -/
def promptCount (c : Conversation) : Nat := (c.steps.filter Step.isAgentTurn).length

end Conversation

/-- Why a requirement is not met. -/
inductive RequirementIssue where
  | pathMissing (path : Text)
  | commandMissing (command : Text)
  | notRequirement
  | other (message : Text)
deriving DecidableEq

def RequirementIssue.message : RequirementIssue → Text
  | .pathMissing path => "path '" ++ path ++ "' does not exist"
  | .commandMissing command => "command '" ++ command ++ "' not found on PATH"
  | .notRequirement => "expected '@path' or 'cmd:name'"
  | .other message => message

/-- What a requirement lacks: `@path` needs a path, from here or from the conversation's
directory, and `cmd:name` a program. -/
def FileSystem.requirementIssue? (fs : FileSystem) (baseDir : Path) (requirement : Text) :
    Option RequirementIssue :=
  match Text.after? ['@'] requirement, Text.after? "cmd:" requirement with
  | some rel, _ =>
    if fs.pathExists ⟨rel⟩ || fs.pathExists (baseDir.join ⟨rel⟩) then none
    else some (.pathMissing rel)
  | none, some command => if fs.hasProgram command then none else some (.commandMissing command)
  | none, none => some .notRequirement

/-- The requirements that are not met, in order. -/
def Settings.requirementIssues (s : Settings) (fs : FileSystem) (baseDir : Path) :
    List (Text × RequirementIssue) :=
  s.requirements.filterMap fun r => (fs.requirementIssue? baseDir r).map (r, ·)

end ConversationFlow

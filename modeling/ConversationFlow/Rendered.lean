import ConversationFlow.Context.Reference
import ConversationFlow.Context.Tracker
import ConversationFlow.Failure
import ConversationFlow.Json.Printer
import ConversationFlow.Json.Reader
import ConversationFlow.Prompt
import ConversationFlow.Value.Basic

/-!
# Rendered workflows

A conversation rendered ahead of its run: for every cycle the variables, the context
files and the text of each turn. A plan keeps paths and counts only.
-/

namespace ConversationFlow

/-- Whether texts are rendered, or their places only. -/
inductive RenderMode where
  | plan
  | full
deriving DecidableEq

namespace RenderMode

def text : RenderMode → Text
  | .plan => "plan"
  | .full => "full"

def read? (value : Text) : Option RenderMode :=
  let v := Text.lower (Text.trim value)
  [plan, full].find? fun m => m.text = v

end RenderMode

/-- A context file as it is rendered. -/
structure RenderedFile where
  path : Text
  content : Option Text
  tokens : Nat
deriving DecidableEq

/-- A turn as it is rendered. `raw` is its text before any substitution. -/
structure RenderedPrompt where
  index : Nat
  raw : Text
  prologues : Option (List Text) := none
  epilogues : Option (List Text) := none
  resolved : Option Text := none
deriving DecidableEq

/-- A cycle as it is rendered, with its number counted from 1. -/
structure RenderedCycle where
  number : Nat
  vars : Variables
  contextFiles : List RenderedFile
  excerpts : Option Text
  prompts : List RenderedPrompt
deriving DecidableEq

/-- A conversation as it is rendered. -/
structure RenderedWorkflow where
  version : Text
  workflow : Text
  name : Text
  mode : RenderMode
  sessionMode : Text
  adapter : Option Text
  model : Option Text
  maxCycles : Nat
  vars : Variables
  cycles : List RenderedCycle
deriving DecidableEq

namespace RenderedWorkflow

/-- What a turn says before it is framed; other steps say nothing. -/
def rawText : Step → Text
  | .prompt t => t
  | .merged m => m.content
  | _ => []

/-- One turn of a cycle. -/
def renderPrompt (frame : PromptFrame) (mode : RenderMode) (total : Nat) (index : Nat)
    (step : Step) : RenderedPrompt :=
  let place := TurnPlace.among index total
  let full := mode == .full
  let texts (show_ : Bool) (ts : List Text) : Option (List Text) :=
    if full && show_ && !ts.isEmpty then some (ts.map frame.vars.substitute) else none
  { index
    raw := rawText step
    prologues := texts place.isFirst frame.settings.prologues
    epilogues := texts place.isLast frame.settings.epilogues
    resolved := if full then some (frame.compose [] (rawText step) place) else none }

/-- One cycle, counted from 0. -/
def renderCycle (settings : Settings) (vars : Variables) (mode : RenderMode) (context : Text)
    (files : List RenderedFile) (excerpts : Option Text) (turns : List Step) (total cycle : Nat) :
    RenderedCycle :=
  let cycleVars := vars.setCycle (cycle + 1) total
  { number := cycle + 1
    vars := cycleVars
    contextFiles := files
    excerpts
    prompts := turns.mapIdx (renderPrompt ⟨settings, cycleVars, cycle, context⟩ mode turns.length) }

/-- A loaded file, as it is seen from the working directory. -/
def renderFile (mode : RenderMode) (cwd : Path) (f : ContextFile) : RenderedFile where
  path := (f.path.shownFrom cwd).text
  content := if mode == .full then some f.content else none
  tokens := f.tokens

/-- The excerpts of the references of the conversation, in full mode and if there are any. -/
def renderExcerpts (fs : FileSystem) (settings : Settings) (mode : RenderMode)
    (cwd workflowDir : Path) : Except ContextError (Option Text) :=
  if mode == .full && !settings.refcatRefs.isEmpty then
    (Reference.excerpts fs cwd workflowDir settings.refcatRefs).map some
  else .ok none

/-- The number of tokens that a context holds if nothing else is said. -/
def defaultMaxTokens : Nat := 128000

/-- The context of a conversation, loaded as a run loads it. -/
def loadContext (fs : FileSystem) (c : Conversation) (cwd : Path) :
    Except ContextError ContextTracker := do
  let tracker ← ContextTracker.ofSettings c.settings cwd c.baseDir defaultMaxTokens
  let (loaded, missing) := tracker.load fs c.settings c.settings.isLenient
  let _ ← missing
  return loaded

/-- Renders the given number of cycles, or as many as the conversation sets. -/
def render (fs : FileSystem) (c : Conversation) (base : Path) (vars : Variables)
    (mode : RenderMode) (cycles : Option Nat) : Except ContextError RenderedWorkflow := do
  let total := max 1 (cycles.getD c.settings.cycles)
  let cwd := base.within c.settings.cwd
  let tracker ← loadContext fs c cwd
  let excerpts ← renderExcerpts fs c.settings mode cwd c.baseDir
  let turns := c.steps.filter Step.isAgentTurn
  let files := tracker.files.map (renderFile mode cwd)
  return {
    version := "1.0"
    workflow := (c.source.map (·.text)).getD "inline"
    name := c.name
    mode
    sessionMode := c.settings.sessionMode.text
    adapter := c.settings.adapter
    model := c.settings.model
    maxCycles := total
    vars
    cycles := (List.range total).map
      (renderCycle c.settings vars mode tracker.render files excerpts turns total) }

/-- The number of turns in all cycles. -/
def promptCount (w : RenderedWorkflow) : Nat := (w.cycles.map (·.prompts.length)).foldr (· + ·) 0

end RenderedWorkflow

/-! ## Rendered workflows as JSON

The form in which a rendered workflow is handed on. It carries a version, whose part
before the first dot decides whether it can be read.
-/

/-- A field that is left out without a value. -/
def presentField {α : Type} (name : String) (f : α → Json) (v : Option α) :
    List (Text × Json) :=
  (v.map fun a => Json.field name (f a)).toList

namespace RenderedFile

def json (f : RenderedFile) : Json := .obj (
  [Json.field "path" (.str f.path)]
    ++ presentField "content" .str f.content
    ++ [Json.field "tokens_estimate" (.nat f.tokens)])

def ofJson? (j : Json) : Option RenderedFile := do
  let j ← j.record? ["path", "content", "tokens_estimate"] 3
  return {
    path := ← j.required "path" Json.text?
    content := ← j.optional "content" Json.text?
    tokens := ← j.required "tokens_estimate" (Json.nat? (wordSize 64 - 1)) }

end RenderedFile

namespace RenderedPrompt

def json (p : RenderedPrompt) : Json := .obj (
  [Json.field "index" (.nat p.index), Json.field "raw" (.str p.raw)]
    ++ presentField "prologues" Json.texts p.prologues
    ++ presentField "epilogues" Json.texts p.epilogues
    ++ presentField "resolved" .str p.resolved)

def ofJson? (j : Json) : Option RenderedPrompt := do
  let j ← j.record? ["index", "raw", "prologues", "epilogues", "resolved"] 2
  return {
    index := ← j.required "index" (Json.nat? (wordSize 64 - 1))
    raw := ← j.required "raw" Json.text?
    prologues := ← j.optional "prologues" Json.texts?
    epilogues := ← j.optional "epilogues" Json.texts?
    resolved := ← j.optional "resolved" Json.text? }

end RenderedPrompt

namespace RenderedCycle

def json (c : RenderedCycle) : Json := .obj (
  [Json.field "number" (.nat c.number),
    Json.field "variables" c.vars.json,
    Json.field "context_files" (.arr (c.contextFiles.map RenderedFile.json))]
    ++ presentField "refcat_content" .str c.excerpts
    ++ [Json.field "prompts" (.arr (c.prompts.map RenderedPrompt.json))])

def ofJson? (j : Json) : Option RenderedCycle := do
  let j ← j.record? ["number", "variables", "context_files", "refcat_content", "prompts"] 5
  return {
    number := ← j.required "number" (Json.nat? (wordSize 32 - 1))
    vars := ← j.required "variables" Dictionary.ofJson?
    contextFiles := ← j.required "context_files" (Json.list? RenderedFile.ofJson?)
    excerpts := ← j.optional "refcat_content" Json.text?
    prompts := ← j.required "prompts" (Json.list? RenderedPrompt.ofJson?) }

end RenderedCycle

namespace RenderedWorkflow

def json (w : RenderedWorkflow) : Json := .obj [
  Json.field "schema_version" (.str w.version),
  Json.field "workflow" (.str w.workflow),
  Json.field "workflow_name" (.str w.name),
  Json.field "mode" (.str w.mode.text),
  Json.field "session_mode" (.str w.sessionMode),
  Json.field "adapter" (Json.ofOption .str w.adapter),
  Json.field "model" (Json.ofOption .str w.model),
  Json.field "max_cycles" (.nat w.maxCycles),
  Json.field "template_variables" w.vars.json,
  Json.field "cycles" (.arr (w.cycles.map RenderedCycle.json))]

def modeOfText? (t : Text) : Option RenderMode :=
  [RenderMode.plan, .full].find? fun m => m.text = t

def fields? (j : Json) : Option RenderedWorkflow := do
  return {
    version := ← j.required "schema_version" Json.text?
    workflow := ← j.required "workflow" Json.text?
    name := ← j.required "workflow_name" Json.text?
    mode := ← j.required "mode" fun m => (m.name? false).bind modeOfText?
    sessionMode := ← j.required "session_mode" Json.text?
    adapter := ← j.optional "adapter" Json.text?
    model := ← j.optional "model" Json.text?
    maxCycles := ← j.required "max_cycles" (Json.nat? (wordSize 32 - 1))
    vars := ← j.required "template_variables" Dictionary.ofJson?
    cycles := ← j.required "cycles" (Json.list? RenderedCycle.ofJson?) }

/-- The number that a version begins with, up to its first dot. -/
def majorVersion? (version : Text) : Option Nat :=
  (Count.ofText? (version.takeWhile (· ≠ '.')))

/-- The workflow of a value whose version is supported. -/
def ofJson (j : Json) : Except Failure RenderedWorkflow :=
  match (j.get? "schema_version".toList).bind Json.text? with
  | none => .error (.rendered .versionMissing)
  | some version =>
    if majorVersion? version != some Failure.supportedVersion then
      .error (.unsupportedVersion version)
    else
      match fields? j with
      | some w => .ok w
      | none => .error (.rendered .notWorkflow)

/-- The text in which a workflow is handed on. -/
def written (w : RenderedWorkflow) : Text := w.json.pretty

/-- The workflow of a text. -/
def read (t : Text) : Except Failure RenderedWorkflow :=
  match Json.read? t with
  | none => .error (.rendered .notJson)
  | some j => ofJson j

end RenderedWorkflow

end ConversationFlow

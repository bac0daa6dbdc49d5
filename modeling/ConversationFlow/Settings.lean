import ConversationFlow.Step.Json
import ConversationFlow.Text.Case
import ConversationFlow.Text.Dictionary
import ConversationFlow.Value.Duration

/-!
# Settings

What the directives of a conversation set: the model and the session, the context,
the texts that frame a prompt, the handling of commands and checks, and the points
at which a human decides. Each policy is a small type with its written form.
-/

namespace ConversationFlow

def named? {α : Type} (table : List (String × α)) (value : Text) : Option α :=
  let v := Text.lower (Text.trim value)
  (table.find? fun e => e.1.toList = v).map (·.2)

/-- What becomes of the session between two cycles. -/
inductive SessionMode where
  | accumulate
  | compact
  | fresh
deriving DecidableEq

def SessionMode.text : SessionMode → Text
  | .accumulate => "accumulate"
  | .compact => "compact"
  | .fresh => "fresh"

def SessionMode.read? : Text → Option SessionMode :=
  named? [("accumulate", .accumulate), ("compact", .compact), ("fresh", .fresh)]

/-- What happens when the context is nearly full. -/
inductive LimitPolicy where
  | compact
  | stop
deriving DecidableEq

def LimitPolicy.text : LimitPolicy → Text
  | .compact => "compact"
  | .stop => "stop"

def LimitPolicy.read? : Text → Option LimitPolicy :=
  named? [("compact", .compact), ("stop", .stop)]

/-- Whether missing context and unmet requirements are errors. -/
inductive ValidationMode where
  | strict
  | lenient
deriving DecidableEq

def ValidationMode.text : ValidationMode → Text
  | .strict => "strict"
  | .lenient => "lenient"

def ValidationMode.read? : Text → Option ValidationMode :=
  named? [("strict", .strict), ("lenient", .lenient), ("warn", .lenient)]

/-- Whether a failure ends the run. -/
inductive OnError where
  | stop
  | proceed
deriving DecidableEq

def OnError.text : OnError → Text
  | .stop => "stop"
  | .proceed => "continue"

def OnError.read? : Text → Option OnError :=
  named? [("stop", .stop), ("fail", .stop), ("continue", .proceed), ("warn", .proceed)]

/-- When an output is sent to the agent. -/
inductive OutputPolicy where
  | always
  | onError
  | never
deriving DecidableEq

def OutputPolicy.text : OutputPolicy → Text
  | .always => "always"
  | .onError => "on-error"
  | .never => "never"

def OutputPolicy.read? : Text → Option OutputPolicy :=
  named? [("always", .always), ("on-error", .onError), ("on_error", .onError), ("never", .never)]

def OutputPolicy.sends : OutputPolicy → (failed : Bool) → Bool
  | .always, _ => true
  | .onError, failed => failed
  | .never, _ => false

/-- How commands run and what becomes of their output. -/
structure RunSettings where
  allowShell : Bool := false
  onError : OnError := .stop
  output : OutputPolicy := .onError
  outputLimit : Option Nat := none
  timeout : Duration := .ofSeconds 60
  cwd : Option Text := none
  env : Dictionary Text := .empty
deriving DecidableEq

/-- The time that a command may take where nothing else is said. -/
def RunSettings.defaultTimeout : Duration := .ofSeconds 60

/-- What becomes of the output of checks. -/
structure VerifySettings where
  onError : OnError := .stop
  output : OutputPolicy := .onError
  limit : Option Nat := none
deriving DecidableEq

/-- A message for a human, shown after a step or, without one, before the first. -/
structure HumanPoint where
  afterStep : Option Nat
  message : Text
deriving DecidableEq

/-- What a conversation sets. -/
structure Settings where
  model : Option Text := none
  adapter : Option Text := none
  mode : Option Text := none
  sessionMode : SessionMode := .accumulate
  maxCycles : Option Nat := none
  cwd : Option Text := none
  context : List Text := []
  contextOptional : List Text := []
  contextExclude : List Text := []
  contextLimit : Option Float := none
  onContextLimit : LimitPolicy := .compact
  onContextLimitPrompt : Option Text := none
  allowFiles : List Text := []
  denyFiles : List Text := []
  allowDirs : List Text := []
  denyDirs : List Text := []
  prologues : List Text := []
  epilogues : List Text := []
  headers : List Text := []
  footers : List Text := []
  helpTopics : List Text := []
  compactionMin : Option Float := none
  compactionThreshold : Option Float := none
  compactionMax : Option Float := none
  compactPreserve : List Text := []
  compactSummary : Option Text := none
  validationMode : ValidationMode := .strict
  requirements : List Text := []
  modelRequirements : List Text := []
  modelPreferences : List Text := []
  modelPolicy : Option Text := none
  pausePoints : List HumanPoint := []
  consultPoints : List HumanPoint := []
  consultTimeout : Option Duration := none
  run : RunSettings := {}
  verify : VerifySettings := {}
  traceLinks : List (Text × Text) := []
  refcatRefs : List Text := []
  outputFormat : Option Text := none
  outputFile : Option Text := none
  outputDir : Option Text := none
  continuationPrompt : Option Text := none
  sessionName : Option Text := none
  eventLog : Option Text := none
  infiniteSessions : Option Bool := none
deriving BEq

namespace Settings

/-- The share of the context at which it counts as nearly full. -/
def contextShare (s : Settings) : Float := (s.compactionThreshold <|> s.contextLimit).getD 0.8

/-- The number of passes over the steps. -/
def cycles (s : Settings) : Nat := max 1 (s.maxCycles.getD 1)

def isLenient (s : Settings) : Bool := s.validationMode == .lenient

/-- The points with their steps renumbered: step `i` becomes `map[i]`. -/
def renumber (s : Settings) (map : List Nat) : Settings :=
  let moved (p : HumanPoint) : HumanPoint := { p with afterStep := p.afterStep.bind (map[·]?) }
  { s with
    pausePoints := s.pausePoints.map moved
    consultPoints := s.consultPoints.map moved }

/-- The first pause after a step. -/
def pauseAfter? (s : Settings) (step : Option Nat) : Option HumanPoint :=
  s.pausePoints.find? fun p => p.afterStep == step

/-- The first consultation after a step. -/
def consultAfter? (s : Settings) (step : Option Nat) : Option HumanPoint :=
  s.consultPoints.find? fun p => p.afterStep == step

end Settings

/-! ## Settings as JSON -/

def Duration.json (d : Duration) : Json := .obj [
  Json.field "secs" (.nat d.seconds), Json.field "nanos" (.nat d.subNanos)]

def HumanPoint.json (p : HumanPoint) : Json := .obj [
  Json.field "after_step" (Json.ofOption .nat p.afterStep),
  Json.field "message" (.str p.message)]

/-- A policy by its name, with an underscore for a hyphen. -/
private def policyJson (name : Text) : Json := .str (Text.replace ['-'] ['_'] name)

def RunSettings.json (r : RunSettings) : Json := .obj [
  Json.field "allow_shell" (.bool r.allowShell),
  Json.field "on_error" (policyJson r.onError.text),
  Json.field "output" (policyJson r.output.text),
  Json.field "output_limit" (Json.ofOption .nat r.outputLimit),
  Json.field "timeout" r.timeout.json,
  Json.field "cwd" (Json.ofOption .str r.cwd),
  Json.field "env" r.env.json]

def VerifySettings.json (v : VerifySettings) : Json := .obj [
  Json.field "on_error" (policyJson v.onError.text),
  Json.field "output" (policyJson v.output.text),
  Json.field "limit" (Json.ofOption .nat v.limit)]

def Settings.json (s : Settings) : Json := .obj [
  Json.field "model" (Json.ofOption .str s.model),
  Json.field "adapter" (Json.ofOption .str s.adapter),
  Json.field "mode" (Json.ofOption .str s.mode),
  Json.field "session_mode" (policyJson s.sessionMode.text),
  Json.field "max_cycles" (Json.ofOption .nat s.maxCycles),
  Json.field "cwd" (Json.ofOption .str s.cwd),
  Json.field "context" (Json.texts s.context),
  Json.field "context_optional" (Json.texts s.contextOptional),
  Json.field "context_exclude" (Json.texts s.contextExclude),
  Json.field "context_limit" (Json.ofOption .real s.contextLimit),
  Json.field "on_context_limit" (policyJson s.onContextLimit.text),
  Json.field "on_context_limit_prompt" (Json.ofOption .str s.onContextLimitPrompt),
  Json.field "allow_files" (Json.texts s.allowFiles),
  Json.field "deny_files" (Json.texts s.denyFiles),
  Json.field "allow_dirs" (Json.texts s.allowDirs),
  Json.field "deny_dirs" (Json.texts s.denyDirs),
  Json.field "prologues" (Json.texts s.prologues),
  Json.field "epilogues" (Json.texts s.epilogues),
  Json.field "headers" (Json.texts s.headers),
  Json.field "footers" (Json.texts s.footers),
  Json.field "help_topics" (Json.texts s.helpTopics),
  Json.field "compaction_min" (Json.ofOption .real s.compactionMin),
  Json.field "compaction_threshold" (Json.ofOption .real s.compactionThreshold),
  Json.field "compaction_max" (Json.ofOption .real s.compactionMax),
  Json.field "compact_preserve" (Json.texts s.compactPreserve),
  Json.field "compact_summary" (Json.ofOption .str s.compactSummary),
  Json.field "validation_mode" (policyJson s.validationMode.text),
  Json.field "requirements" (Json.texts s.requirements),
  Json.field "model_requirements" (Json.texts s.modelRequirements),
  Json.field "model_preferences" (Json.texts s.modelPreferences),
  Json.field "model_policy" (Json.ofOption .str s.modelPolicy),
  Json.field "pause_points" (.arr (s.pausePoints.map HumanPoint.json)),
  Json.field "consult_points" (.arr (s.consultPoints.map HumanPoint.json)),
  Json.field "consult_timeout" (Json.ofOption Duration.json s.consultTimeout),
  Json.field "run" s.run.json,
  Json.field "verify" s.verify.json,
  Json.field "trace_links" (.arr (s.traceLinks.map fun (a, b) => .arr [.str a, .str b])),
  Json.field "refcat_refs" (Json.texts s.refcatRefs),
  Json.field "output_format" (Json.ofOption .str s.outputFormat),
  Json.field "output_file" (Json.ofOption .str s.outputFile),
  Json.field "output_dir" (Json.ofOption .str s.outputDir),
  Json.field "continuation_prompt" (Json.ofOption .str s.continuationPrompt),
  Json.field "session_name" (Json.ofOption .str s.sessionName),
  Json.field "event_log" (Json.ofOption .str s.eventLog),
  Json.field "infinite_sessions" (Json.ofOption .bool s.infiniteSessions)]

end ConversationFlow

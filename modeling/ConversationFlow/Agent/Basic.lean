import ConversationFlow.Files.Path
import ConversationFlow.Json.Basic
import ConversationFlow.Settings
import ConversationFlow.Value.Duration

/-!
# Agents

An agent answers prompts in sessions. A session is known by its name.
-/

namespace ConversationFlow

/-! ## Errors of an agent -/

/-- Why a call to an agent fails. -/
inductive AgentError where
  | aborted (message : Text)
  | rateLimited (retryAfter : Duration)
  | provider (status : Nat) (message : Text)
  | sessionNotFound (session : Text)
  | notStarted
  | timeout (after : Duration)
  | invalidResponse (message : Text)
deriving DecidableEq

namespace AgentError

def message : AgentError → Text
  | .aborted m => "Agent aborted the turn: " ++ m
  | .rateLimited d => "Rate limited, retry after " ++ d.inLargestUnit
  | .provider status m => "Provider error " ++ Text.ofNat status ++ ": " ++ m
  | .sessionNotFound m => "Session not found: " ++ m
  | .notStarted => "Adapter not started"
  | .timeout d => "Timeout after " ++ d.inLargestUnit
  | .invalidResponse m => "Invalid response: " ++ m

/-- Whether the agent itself ended the turn. -/
def isAborted : AgentError → Bool
  | .aborted _ => true
  | _ => false

/-- Whether the same call may succeed later. -/
def isRetryable : AgentError → Bool
  | .rateLimited _ | .timeout _ => true
  | .provider status _ => 500 ≤ status
  | _ => false

/-- How long to wait before the next call. -/
def retryAfter? : AgentError → Option Duration
  | .rateLimited d => some d
  | _ => none

end AgentError

/-! ## Sessions -/

/-- What a new session is opened with. -/
structure SessionOptions where
  model : Option Text
  isStreaming : Bool
  eventLog : Option Path
  isInfinite : Option Bool
  name : Option Text
  workingDir : Option Path
deriving DecidableEq

/-- The options of the sessions of a conversation that works in `cwd`. -/
def Settings.sessionOptions (s : Settings) (cwd : Path) (isStreaming : Bool) : SessionOptions where
  model := s.model
  isStreaming
  eventLog := s.eventLog.map Path.mk
  isInfinite := s.infiniteSessions
  name := s.sessionName
  workingDir := some cwd

def SessionOptions.json (o : SessionOptions) : Json := .obj [
  Json.field "model" (Json.ofOption .str o.model),
  Json.field "streaming" (.bool o.isStreaming),
  Json.field "event_log_path" (Json.ofOption (fun p => .str p.text) o.eventLog),
  Json.field "infinite_sessions" (Json.ofOption .bool o.isInfinite),
  Json.field "session_name" (Json.ofOption .str o.name),
  Json.field "working_dir" (Json.ofOption (fun p => .str p.text) o.workingDir)]

/-- The answer to a prompt. -/
structure Response where
  text : Text
  reasoning : Option Text := none
deriving DecidableEq

/-- What an agent reports of a session: the tools used in the last turn, and the tokens of
the context as far as it knows them. -/
structure SessionStats where
  toolCalls : Nat := 0
  contextTokens : Option Nat := none
deriving DecidableEq

end ConversationFlow

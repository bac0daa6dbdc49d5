import ConversationFlow.Agent.Basic
import ConversationFlow.Checkpoint
import ConversationFlow.Prompt
import ConversationFlow.Step.Basic

/-!
# Requests and dialogues

A dialogue makes a request and goes on with whatever the answer is, until it is done.
It can be run against a world that answers, or be left at any request and resumed:
runs that share an agent take turns that way.
-/

namespace ConversationFlow

/-! ## Hosts

Checks, language queries and the directives that a caller adds are not executed by the
run itself: a host is asked for them. A host that knows nothing lets every check pass.
-/

/-- What a host reports, for the agent to read. -/
structure CheckOutcome where
  passed : Bool
  output : Text
deriving DecidableEq

/-- What a host is asked for. -/
inductive HostRequest where
  | check (c : Check)
  | lsp (query : Text) (options : Dictionary Text)
  | custom (name content : Text)

namespace HostRequest

/-- The name of a request in messages. -/
def label : HostRequest → Text
  | .check (.named kind _) => "VERIFY " ++ kind
  | .check (.trace source target) => "VERIFY-TRACE " ++ source ++ " -> " ++ target
  | .check (.coverage _) => "VERIFY-COVERAGE"
  | .lsp .. => "LSP"
  | .custom name _ => name

/-- Whether the output is of interest to the agent even if nothing is wrong. -/
def isInformational : HostRequest → Bool
  | .check _ => false
  | .lsp .. | .custom .. => true

/-- The request of a check or a query. -/
def ofStep? : Step → Option HostRequest
  | .verify c _ _ => some (.check c)
  | .lsp query options => some (.lsp query options)
  | _ => none

/-- The answer of a host that has nothing to check with. The content of an added directive is
passed through. -/
def skipped : HostRequest → CheckOutcome
  | .check (.coverage c) =>
    ⟨true, (HostRequest.check (.coverage c)).label ++ ": no coverage provider configured, skipped"⟩
  | .check c => ⟨true, (HostRequest.check c).label ++ ": no verifier configured, skipped"⟩
  | .lsp query _ => ⟨true, "LSP " ++ query ++ ": no language server configured"⟩
  | .custom _ content => ⟨true, content⟩

end HostRequest

/-! ## Requests

All that a run does to the world is to make requests: of the agent, of the host, of
the command runner and of the files. Each kind of request has its kind of answer.
-/

/-- What a run lets an observer know. A prompt is `sending` as its step has it, before the session
that it is sent in adds anything. -/
inductive Note where
  | cycleBegan (cycle : Nat)
  | stepBegan (place : StepPlace) (step : Step)
  | composed (place : TurnPlace) (pending : List Text) (prompt : Text)
  | sending (place : StepPlace) (prompt : Text)

/-- What makes a checkpoint unique: an identifier, and the time. -/
structure Stamp where
  id : Text
  time : Text
deriving DecidableEq

/-- What a run asks for. -/
inductive Request where
  | start
  | stop
  | create (options : SessionOptions)
  | send (session prompt : Text) (isStreaming : Bool)
  | stats (session : Text)
  | compact (session : Text)
  | destroy (session : Text)
  | close (session : Text)
  | host (request : HostRequest) (cwd : Path)
  | command (runner : CommandRunner) (line : Text)
  | files
  | save (checkpoint : Checkpoint) (dir : Path)
  | write (path : Path) (content : Text)
  | stamp
  | now
  | clock
  | note (note : Note)

/-- The answer to a request. -/
abbrev Request.Answer : Request → Type
  | .start | .stop | .compact _ | .destroy _ | .close _ => Except AgentError Unit
  | .create _ => Except AgentError Text
  | .send .. => Except AgentError Response
  | .stats _ => Except AgentError SessionStats
  | .host .. => Except CommandError CheckOutcome
  | .command .. => Except CommandError CommandOutput
  | .files => FileSystem
  | .save .. => Except Failure Path
  | .write .. => Except FileError Unit
  | .stamp => Stamp
  | .now => Variables.Occasion
  | .clock => Duration
  | .note _ => Unit

/-- A request with its answer. -/
structure Exchange where
  request : Request
  answer : request.Answer

/-! ## Dialogues -/

inductive Dialogue (β : Type) where
  | done (result : β)
  | ask (request : Request) (next : request.Answer → Dialogue β)

namespace Dialogue

variable {β γ : Type}

def bind : Dialogue β → (β → Dialogue γ) → Dialogue γ
  | .done b, f => f b
  | .ask request next, f => .ask request fun answer => (next answer).bind f

instance : Monad Dialogue where
  pure := .done
  bind := bind

/-- How a world answers a request, and what it is afterwards. -/
abbrev Answering (σ : Type) := (request : Request) → σ → request.Answer × σ

/-- Runs a dialogue: its result, its exchanges in order, and the world afterwards. -/
def run {σ : Type} (answering : Answering σ) : Dialogue β → σ → β × List Exchange × σ
  | .done b, w => (b, [], w)
  | .ask request next, w =>
    let (answer, w) := answering request w
    let (b, exchanges, w) := (next answer).run answering w
    (b, ⟨request, answer⟩ :: exchanges, w)

end Dialogue

end ConversationFlow

import ConversationFlow.Agent.Basic
import ConversationFlow.Command.Runner
import ConversationFlow.Compile.Error
import ConversationFlow.Context.Error
import ConversationFlow.Conversation
import ConversationFlow.Detector.Basic

/-!
# Failures

Everything that can end a run, a rendering or a compilation: its message, the exit
code of its class, and what to do about it.
-/

namespace ConversationFlow

/-- A place in a run: the cycle, counted from 1, and the step, counted from 0. -/
structure StepPlace where
  cycle : Nat := 0
  step : Nat := 0
deriving DecidableEq

/-- A place as it is shown, with the step counted from 1. -/
def StepPlace.text (p : StepPlace) : Text :=
  "cycle " ++ Text.ofNat p.cycle ++ ", step " ++ Text.ofNat (p.step + 1)

/-- Why a text is not a rendered workflow. -/
inductive RenderFault where
  | versionMissing
  | notJson
  | notWorkflow
  | other (message : Text)
deriving DecidableEq

def RenderFault.message : RenderFault → Text
  | .versionMissing => "missing schema_version"
  | .notJson => "not JSON"
  | .notWorkflow => "not a workflow"
  | .other message => message

/-- The process exit codes. -/
inductive ExitCode where
  | ok
  | failure
  | parse
  | missingContext
  | loopDetected
  | agentAborted
  | commandFailed
  | io
  | stopFilePresent
  | agent
deriving DecidableEq

def ExitCode.value : ExitCode → Nat
  | .ok => 0
  | .failure => 1
  | .parse => 2
  | .missingContext => 3
  | .loopDetected => 4
  | .agentAborted => 5
  | .commandFailed => 6
  | .io => 7
  | .stopFilePresent => 8
  | .agent => 9

/-- Why something does not come to its end. -/
inductive Failure where
  | compile (e : CompileError)
  | unsupportedVersion (found : Text)
  | missingContext (patterns : List Text)
  | requirements (issues : List (Text × RequirementIssue))
  | context (e : ContextError)
  | loopDetected (verdict : Verdict)
  | agentAborted (place : StepPlace) (message : Text)
  | commandFailed (place : StepPlace) (command status output : Text)
  | checkFailed (place : StepPlace) (check output : Text)
  | command (place : StepPlace) (e : CommandError)
  | stopFilePresent (path : Path) (reason : Text)
  | agent (place : Option StepPlace) (e : AgentError)
  | io (path : Path) (cause : FileError)
  | rendered (fault : RenderFault)

namespace Failure

/-- The major version of the rendered form that is understood. -/
def supportedVersion : Nat := 1

/-- Missing files have a class of their own among the errors of context. -/
def ofContext : ContextError → Failure
  | .missingFiles patterns => .missingContext patterns
  | e => .context e

/-- A turn that the agent itself ended has a class of its own among its errors. -/
def ofAgent (place : Option StepPlace) : AgentError → Failure
  | .aborted message => .agentAborted (place.getD {}) message
  | e => .agent place e

def message : Failure → Text
  | .compile e => e.message
  | .unsupportedVersion found =>
    "unsupported schema version '" ++ found ++ "' (expected major version "
      ++ Text.ofNat supportedVersion ++ ")"
  | .missingContext patterns => (ContextError.missingFiles patterns).message
  | .requirements issues =>
    "Unmet requirements: "
      ++ Text.join ", " (issues.map fun i => i.1 ++ " (" ++ i.2.message ++ ")")
  | .context e => e.message
  | .loopDetected v =>
    "Loop detected on cycle " ++ Text.ofNat v.cycle ++ ": " ++ v.reason.text
      ++ " (" ++ v.detail ++ ")"
  | .agentAborted place m => "Agent aborted the turn at " ++ place.text ++ ": " ++ m
  | .commandFailed place line status _ =>
    "RUN `" ++ line ++ "` " ++ status ++ " at " ++ place.text
  | .checkFailed place check output => check ++ " failed at " ++ place.text ++ ": " ++ output
  | .command place e => "Command error at " ++ place.text ++ ": " ++ e.message
  | .stopFilePresent path reason => "Stop file " ++ path.text ++ " is present: " ++ reason
  | .agent _ e => "Adapter error: " ++ e.message
  | .io path cause => "IO error on " ++ path.text ++ ": " ++ cause.message
  | .rendered fault => "Invalid rendered workflow: " ++ fault.message

def exitCode : Failure → ExitCode
  | .compile (.parse _) | .unsupportedVersion _ => .parse
  | .compile _ => .io
  | .missingContext _ | .requirements _ => .missingContext
  | .context (.invalidPattern ..) | .context (.invalidRange ..) => .parse
  | .context _ => .io
  | .loopDetected _ => .loopDetected
  | .agentAborted .. => .agentAborted
  | .commandFailed .. | .checkFailed .. | .command .. => .commandFailed
  | .stopFilePresent .. => .stopFilePresent
  | .agent .. => .agent
  | .io .. => .io
  | .rendered _ => .parse

/-- What the user may do about it. -/
def remedy : Failure → Text
  | .compile (.parse _) | .unsupportedVersion _ =>
    "Fix the directive at the reported line and re-run"
  | .compile _ => "Check that the workflow file and its INCLUDEs exist and are readable"
  | .missingContext _ =>
    "Create the missing files, fix the CONTEXT patterns, or set VALIDATION-MODE lenient"
  | .requirements _ => "Install the missing commands or create the required paths"
  | .context _ => "Check the CONTEXT and REFCAT paths and line ranges"
  | .loopDetected _ =>
    "Review the responses so far; reword the prompts or lower MAX-CYCLES before re-running"
  | .agentAborted .. => "The provider aborted the turn; retry the run"
  | .commandFailed .. | .command .. =>
    "Fix the command, add an ON-FAILURE block, or set RUN-ON-ERROR continue"
  | .checkFailed .. => "Fix the reported problems or set VERIFY-ON-ERROR continue"
  | .stopFilePresent path _ => "Remove the stop file " ++ path.text ++ " and re-run"
  | .agent _ e =>
    if e.isRetryable then "Wait and retry the run"
    else "Check the adapter configuration and credentials"
  | .io .. => "Check file permissions and free space"
  | .rendered _ => "Regenerate the rendered workflow with this version"

end Failure

end ConversationFlow

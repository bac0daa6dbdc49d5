import ConversationFlow.Context.Tracker
import ConversationFlow.Conversation
import ConversationFlow.Report
import ConversationFlow.Run.Dialogue
import ConversationFlow.Run.Options

/-!
# The state of a run

A run is a conversation with its options. Its state is what was counted and collected
so far. An action of a run makes requests and changes the state; it may also bring the
run to an early end, with an outcome or with a failure, and then nothing follows it.
-/

namespace ConversationFlow

/-- A run that is ready to begin. -/
structure Run where
  conversation : Conversation
  options : RunOptions
  cwd : Path
  runner : CommandRunner

/-- Where a run stands. Cycles are counted from 0. `owesInstruction` tells that the agent has
not been told of the stop file in this session, and `pendingHelp` is help that waits for the
next turn. -/
structure RunState where
  tracker : ContextTracker
  detector : LoopDetector
  report : RunReport
  vars : Variables := .empty
  session : Option Text := none
  isStarted : Bool := false
  owesInstruction : Bool := false
  pendingHelp : List Text := []
  cycle : Nat := 0

/-- How a run comes to an early end. -/
inductive Ending where
  | stopped (outcome : RunOutcome)
  | failed (failure : Failure)

/-- An action of a run. -/
abbrev Action (β : Type) := ExceptT Ending (StateT RunState Dialogue) β

namespace Action

variable {β : Type}

/-- Makes a request. -/
def ask (request : Request) : Action request.Answer :=
  ExceptT.lift (StateT.lift (.ask request .done))

def note (n : Note) : Action Unit := ask (.note n)

def stop (outcome : RunOutcome) : Action β := throw (.stopped outcome)

def fail (failure : Failure) : Action β := throw (.failed failure)

/-- The answer of the agent; its error ends the run. -/
def orAgentFailure (place : Option StepPlace) : Except AgentError β → Action β
  | .ok b => return b
  | .error e => fail (.ofAgent place e)

/-- The answer of the host or of a command; its error ends the run. -/
def orCommandFailure (place : StepPlace) : Except CommandError β → Action β
  | .ok b => return b
  | .error e => fail (.command place e)

/-- The context that was read; its error ends the run. -/
def orContextFailure : Except ContextError β → Action β
  | .ok b => return b
  | .error e => fail (.ofContext e)

/-- Enters a warning into the report. -/
def warn (message : Text) : Action Unit :=
  modify fun s => { s with report := { s.report with warnings := s.report.warnings ++ [message] } }

end Action

namespace Run

def settings (r : Run) : Settings := r.conversation.settings

/-- The directory of the workflow. -/
def workflowDir (r : Run) : Path := r.conversation.baseDir

/-- The settings of the commands. A time of the options takes the place of the default. -/
def runSettings (s : RunSettings) (o : RunOptions) : RunSettings :=
  match o.commandTimeout with
  | some timeout => if s.timeout = RunSettings.defaultTimeout then { s with timeout } else s
  | none => s

/-- A conversation made ready to run, and the state before its first action. -/
def prepare (c : Conversation) (o : RunOptions) : Except Failure (Run × RunState) :=
  let cwd := o.cwd.within c.settings.cwd
  match ContextTracker.ofSettings c.settings cwd c.baseDir o.maxTokens with
  | .error e => .error (.ofContext e)
  | .ok tracker =>
    let run : Run :=
      { conversation := c
        options := o
        cwd
        runner := .ofSettings (runSettings c.settings.run o) cwd }
    let state : RunState :=
      { tracker
        detector := { settings := o.detector.effective, stopDir := cwd, nonce := o.nonce }
        report := { workflow := c.name } }
    .ok (run, state)

/-- A run that is made ready has a tracker, and has done nothing yet. -/
theorem exists_of_prepare {c : Conversation} {o : RunOptions} {r : Run} {s : RunState}
    (h : prepare c o = .ok (r, s)) :
    ∃ tracker,
      ContextTracker.ofSettings c.settings (o.cwd.within c.settings.cwd) c.baseDir o.maxTokens =
        .ok tracker ∧
      r = {
        conversation := c
        options := o
        cwd := o.cwd.within c.settings.cwd
        runner := .ofSettings (runSettings c.settings.run o) (o.cwd.within c.settings.cwd) } ∧
      s = {
        tracker
        detector := {
          settings := o.detector.effective
          stopDir := o.cwd.within c.settings.cwd
          nonce := o.nonce }
        report := { workflow := c.name } } := by
  unfold prepare at h
  dsimp only at h
  split at h
  · cases h
  · next tracker htracker =>
    cases h
    exact ⟨tracker, htracker, rfl, rfl⟩

end Run

end ConversationFlow

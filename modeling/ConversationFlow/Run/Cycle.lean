import ConversationFlow.Run.Step

/-!
# Cycles

A cycle is one pass over the steps. Before it the session is kept, compacted or
replaced, as the conversation says; after each step the run stops if a human is to
decide there. Whatever happens, a session that is still open is closed at the end and
an agent that was started is stopped.
-/

namespace ConversationFlow

/-- A run that failed, with the report on what it did until then. -/
structure RunFailure where
  failure : Failure
  report : RunReport

def RunFailure.message (f : RunFailure) : Text := f.report.workflow ++ ": " ++ f.failure.message

namespace Run

/-- Loads the context. The mandatory patterns without files are the answer. -/
def loadContext (r : Run) : Action (List Text) := do
  let files ← Action.ask .files
  let s ← get
  let (tracker, result) := s.tracker.load files r.settings r.settings.isLenient
  set { s with tracker }
  Action.orContextFailure result

/-- A stop file, an unmet requirement or missing context ends the run before it begins. -/
def checkPreconditions (r : Run) : Action Unit := do
  let files ← Action.ask .files
  let s ← get
  match s.detector.stopRequest files with
  | some request => Action.fail (.stopFilePresent s.detector.stopPath request.reason)
  | none => pure ()
  let issues := r.settings.requirementIssues files r.workflowDir
  if !issues.isEmpty && !r.settings.isLenient then Action.fail (.requirements issues)
  issues.forM fun i =>
    Action.warn ("Requirement not met: " ++ i.1 ++ " (" ++ i.2.message ++ ")")
  (← r.loadContext).forM fun pattern =>
    Action.warn ("Mandatory context matched no files: " ++ pattern)

/-- The variables that a run begins with. Those of the options come last. -/
def initialVars (r : Run) (fs : FileSystem) (now : Variables.Occasion) : Variables :=
  let standard := Variables.initial (now.checkout fs r.cwd) now.toMoment r.cwd
  let named :=
    if r.options.exposesWorkflow then
      standard.setWorkflow r.conversation.name r.conversation.source
    else standard
  named.insertAll r.options.vars.entries

/-- Treats the session as the conversation decides between cycles. -/
def beginCycle (r : Run) : Action Unit := do
  let s ← get
  match r.settings.sessionMode with
  | .fresh =>
    endSession
    if 0 < s.cycle then
      modify fun s => { s with tracker := s.tracker.clearFiles }
      discard r.loadContext
    discard r.openSession
  | .compact =>
    match s.session with
    | some session => if 0 < s.cycle then compactNow session ⟨s.cycle + 1, 0⟩
    | none => pure ()
  | .accumulate => pure ()
  discard r.liveSession

/-- Stops after a step if a human is to decide there. A pause comes before a consultation. -/
def stopAfter (r : Run) (step : Nat) : Action Unit := do
  match r.settings.pauseAfter? (some step), r.settings.consultAfter? (some step) with
  | some p, _ => Action.stop (.paused (some step) p.message false)
  | none, some p => Action.stop (.paused (some step) p.message true)
  | none, none => pure ()

/-- Executes the steps from an index on, of which `turns` turns were before. -/
def executeFrom (r : Run) : (index turns : Nat) → List Step → Action Unit
  | _, _, [] => modify fun s => { s with pendingHelp := [] }
  | index, turns, step :: rest => do
    let place : StepPlace := ⟨(← get).cycle + 1, index⟩
    let turn : TurnPlace :=
      if step.isAgentTurn then .among turns r.conversation.promptCount else .inBlock
    r.executeStep place turn step
    r.stopAfter index
    executeFrom r (index + 1) (if step.isAgentTurn then turns + 1 else turns) rest

/-- One cycle. -/
def executeCycle (r : Run) (cycle : Nat) : Action Unit := do
  modify fun s => { s with
    cycle
    vars := s.vars.setCycle (cycle + 1) r.settings.cycles }
  Action.note (.cycleBegan cycle)
  r.beginCycle
  r.executeFrom 0 0 r.conversation.steps
  modify fun s => { s with
    report := { s.report with cyclesCompleted := s.report.cyclesCompleted + 1 } }

/-- The cycles that are left. -/
def executeCycles (r : Run) : (left cycle : Nat) → Action Unit
  | 0, _ => pure ()
  | left + 1, cycle => do
    r.executeCycle cycle
    executeCycles r left (cycle + 1)

/-- Everything up to the end of the last cycle. -/
def execute (r : Run) : Action Unit := do
  r.checkPreconditions
  let vars := r.initialVars (← Action.ask .files) (← Action.ask .now)
  modify fun s => { s with vars }
  Action.orAgentFailure none (← Action.ask .start)
  modify fun s => { s with isStarted := true }
  match r.settings.pauseAfter? none with
  | some p => Action.stop (.paused none p.message false)
  | none => pure ()
  r.executeCycles r.settings.cycles 0

/-- Closes the session and stops the agent; errors no longer count. -/
def shutDown : Action Unit := do
  match (← get).session with
  | some session =>
    modify fun s => { s with session := none }
    discard (Action.ask (.close session))
  | none => pure ()
  if (← get).isStarted then discard (Action.ask .stop)

/-- The whole run, from a state on. -/
def dialogue (r : Run) (s : RunState) : Dialogue (Except RunFailure RunReport) := do
  let (ended, s) ← r.execute s
  let (_, s) ← shutDown s
  match ended with
  | .ok () => return .ok { s.report with outcome := .completed }
  | .error (.stopped outcome) => return .ok { s.report with outcome }
  | .error (.failed failure) => return .error ⟨failure, s.report⟩

end Run

end ConversationFlow

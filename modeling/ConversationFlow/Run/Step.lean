import ConversationFlow.Context.Reference
import ConversationFlow.Run.Session

/-!
# Steps of a run

What each kind of step does. A command or check that fails is followed by its block
for failures; a command without one is tried again after a prompt, as often as it
says; what then still fails ends the run or is warned of, as the settings decide.
-/

namespace ConversationFlow.Run

/-! ## Turns

The prompt of a turn is its body in the frame of the cycle. A merged turn first carries
out what it is made of: every command, check, reference, question and added directive
gives an output, which takes the place of its mark in the text.
-/

/-- The prompt of a body. It takes up the help that waits for it. -/
def compose (r : Run) (body : Text) (place : TurnPlace) (fillings : List (Text × Text)) :
    Action Text := do
  let s ← get
  let frame : PromptFrame :=
    { settings := r.settings
      vars := s.vars
      cycle := s.cycle
      context := if place.isFirst then s.tracker.render else [] }
  let filled := MergedPrompt.fill fillings (s.vars.substitute body)
  let prompt := frame.composeResolved s.pendingHelp filled place
  set { s with pendingHelp := [] }
  Action.note (.composed place s.pendingHelp prompt)
  return prompt

/-- Executes a command. One that cannot be started counts as one that failed. -/
def tryCommand (r : Run) (command : Text) (place : StepPlace) : Action CommandOutput := do
  match ← Action.ask (.command r.runner command) with
  | .error (.notStarted c cause) => return .notStarted c cause.message r.runner.settings.timeout
  | result => Action.orCommandFailure place result

/-- Asks the host. -/
def askHost (r : Run) (request : HostRequest) (place : StepPlace) : Action CheckOutcome := do
  Action.orCommandFailure place (← Action.ask (.host request r.cwd))

/-- Asks the host for what a line of a conversation stands for. -/
def askHostFor (r : Run) (line : Text) (place : StepPlace) : Action CheckOutcome := do
  match Compiled.ofText (← Action.ask .files) .empty line with
  | .error e => Action.fail (.compile e)
  | .ok c =>
    match c.steps with
    | [] => return ⟨false, "cannot execute `" ++ line ++ "`"⟩
    | step :: _ =>
      match HostRequest.ofStep? step with
      | some request => r.askHost request place
      | none => return ⟨false, step.typeName ++ " steps are not executed by the step host"⟩

/-- The excerpts of references. -/
def excerpts (r : Run) (references : List Text) : Action Text := do
  Action.orContextFailure
    (Reference.excerpts (← Action.ask .files) r.cwd r.workflowDir references)

/-- The output that a command in a turn leaves. A failure is only warned of. -/
def commandFilling (r : Run) (command : Text) (place : StepPlace) : Action Text := do
  let output ← r.tryCommand command place
  if !output.passed then
    Action.warn (place.text ++ ": RUN `" ++ command ++ "` " ++ output.status)
  return output.render r.runner.settings.outputLimit

/-- The output that a check or query in a turn leaves. -/
def hostFilling (r : Run) (line : Text) (place : StepPlace) : Action Text := do
  return truncateOutput (← r.askHostFor line place).output r.settings.verify.limit

/-- The output that an added directive in a turn leaves. -/
def customFilling (r : Run) (name content : Text) (place : StepPlace) : Action Text := do
  let content := (← get).vars.substitute content
  return (← r.askHost (.custom name content) place).output

/-- The marks of one kind with the outputs that take their places. -/
def fillings (kind : Text) (index : Nat) :
    List (Text × Action Text) → Action (List (Text × Text))
  | [] => return []
  | (payload, output) :: rest => do
    let output ← output
    return (MergedPrompt.placeholder kind index payload, output)
      :: (← fillings kind (index + 1) rest)

/-- Carries out what a merged turn is made of, kind by kind. -/
def resolve (r : Run) (m : MergedPrompt) (place : StepPlace) :
    Action (List (Text × Text)) := do
  let runs ← fillings "RUN" 0 (m.runCommands.map fun c => (c, r.commandFilling c place))
  let checks ← fillings "VERIFY" 0 (m.verifyCommands.map fun l => (l, r.hostFilling l place))
  let references ← fillings "REFCAT" 0
    (m.refcatCommands.map fun refs => (refs, r.excerpts (Text.words refs)))
  let queries ← fillings "LSP" 0
    (m.lspCommands.map fun q => (q, r.hostFilling ("LSP ".toList ++ q) place))
  let topics ← fillings "HELP" 0
    (m.helpCommands.map fun t => (t, return Help.render (Text.words t)))
  let customs ← fillings "CUSTOM" 0
    (m.customDirectives.map fun d => (d.1, r.customFilling d.1 d.2 place))
  let questions ← fillings "CONSULT" 0
    (m.consultCommands.map fun t => (t.take MergedPrompt.questionLength, return t))
  return runs ++ checks ++ references ++ queries ++ topics ++ customs ++ questions

/-! ## Steps -/

/-- What follows a command or a check: a block for failures, if there is one, and a block for
successes, which may be empty. -/
structure FollowUp where
  onFailure : Option (Action Unit) := none
  onSuccess : Action Unit := pure ()

/-- Sends an output to the agent, if the policy is to send it. -/
def report (r : Run) (sends : Bool) (output : Text) (place : StepPlace) : Action Unit :=
  if sends then r.sendTurn output place else pure ()

/-- A command that fails for the last time. -/
def giveUp (r : Run) (command : Text) (place : StepPlace) (output : CommandOutput) :
    Action Unit := do
  let rendered := output.render r.runner.settings.outputLimit
  r.report (r.runner.settings.output.sends true) rendered place
  match r.runner.settings.onError with
  | .stop => Action.fail (.commandFailed place command output.status rendered)
  | .proceed => Action.warn (place.text ++ ": RUN `" ++ command ++ "` " ++ output.status)

/-- Executes a command once. `otherwise` is for a failure without a block. -/
def attempt (r : Run) (command : Text) (next : FollowUp) (place : StepPlace)
    (otherwise : CommandOutput → Action Unit) : Action Unit := do
  let output ← r.tryCommand command place
  let rendered := output.render r.runner.settings.outputLimit
  if output.passed then
    r.report (r.runner.settings.output.sends false) rendered place
    next.onSuccess
  else
    match next.onFailure with
    | some block =>
      r.report (r.runner.settings.output.sends true) rendered place
      block
    | none => otherwise output

/-- Asks the agent to mend what made a command fail. -/
def askForRetry (r : Run) (prompt : Option Text) (place : StepPlace) (output : CommandOutput) :
    Action Unit := do
  let prompt := (← get).vars.substitute (prompt.getD RunCommand.defaultRetryPrompt)
  r.sendTurn (output.render r.runner.settings.outputLimit ++ "\n\n" ++ prompt) place

/-- Executes a command, with retries left. -/
def executeCommand (r : Run) (c : RunCommand) (next : FollowUp) (place : StepPlace) :
    (retries : Nat) → Action Unit
  | 0 => r.attempt c.command next place (r.giveUp c.command place)
  | retries + 1 => r.attempt c.command next place fun output => do
    r.askForRetry c.retryPrompt place output
    executeCommand r c next place retries

/-- Whether the outcome of a check is sent. -/
def sendsOutcome (s : VerifySettings) (request : HostRequest) (outcome : CheckOutcome) : Bool :=
  if outcome.passed && request.isInformational then s.output ≠ .never
  else s.output.sends !outcome.passed

/-- Asks the host and follows up on the outcome. -/
def executeRequest (r : Run) (request : HostRequest) (next : FollowUp) (place : StepPlace) :
    Action Unit := do
  let outcome ← r.askHost request place
  let settings := r.settings.verify
  r.report (sendsOutcome settings request outcome && !Text.allBlank outcome.output)
    (truncateOutput outcome.output settings.limit) place
  if outcome.passed then next.onSuccess
  else
    match next.onFailure with
    | some block => block
    | none =>
      match settings.onError with
      | .stop => Action.fail (.checkFailed place request.label outcome.output)
      | .proceed => Action.warn (place.text ++ ": " ++ request.label ++ " failed")

/-- Compacts the session, unless too little of the context is in use. -/
def compactStep (r : Run) (place : StepPlace) : Action Unit := do
  let s ← get
  if s.session.isNone || s.tracker.usage < r.settings.compactionMin.getD 0.0 then return
  r.compactAfter r.settings.compactSummary place

/-- The directory of checkpoints, where the options name none. -/
def checkpointDir (r : Run) : Path :=
  r.options.checkpointDir.getD (r.cwd.join ".convofile/checkpoints")

/-- Writes down where the run stands. -/
def writeCheckpoint (r : Run) (name : Option Text) (place : StepPlace) : Action Unit := do
  let stamp ← Action.ask .stamp
  let s ← get
  let checkpoint : Checkpoint :=
    { id := stamp.id
      name
      workflow := s.report.workflow
      cycle := place.cycle
      step := place.step
      sessionId := s.session
      turns := s.report.turns
      usedTokens := s.tracker.usedTokens
      lastResponse := s.report.lastResponse?
      createdAt := stamp.time }
  match ← Action.ask (.save checkpoint r.checkpointDir) with
  | .error e => Action.fail e
  | .ok path =>
    modify fun s => { s with
      report := { s.report with checkpoints := s.report.checkpoints ++ [path] } }

mutual

/-- Executes a step, of which an observer knows. -/
def executeStep (r : Run) (place : StepPlace) (turn : TurnPlace) (step : Step) : Action Unit := do
  Action.note (.stepBegan place step)
  match step with
  | .prompt text => r.sendTurn (← r.compose text turn []) place
  | .merged m =>
    let outputs ← r.resolve m place
    r.sendTurn (← r.compose m.content turn outputs) place
  | .run c onFailure onSuccess =>
    let next : FollowUp :=
      { onFailure := if onFailure.isEmpty then none else some (executeBlock r place onFailure)
        onSuccess := executeBlock r place onSuccess }
    r.executeCommand c next place c.retries
  | .verify c onFailure onSuccess =>
    let next : FollowUp :=
      { onFailure := if onFailure.isEmpty then none else some (executeBlock r place onFailure)
        onSuccess := executeBlock r place onSuccess }
    r.executeRequest (.check c) next place
  | .lsp query options => r.executeRequest (.lsp query options) {} place
  | .custom name content =>
    let content := (← get).vars.substitute content
    r.executeRequest (.custom name content) {} place
  | .checkpoint name => r.writeCheckpoint name place
  | .compact _ => r.compactStep place
  | .newConversation =>
    endSession
    discard r.openSession
  | .elide => pure ()
  | .refcat refs => r.sendTurn ("Referenced code:\n\n" ++ (← r.excerpts refs)) place
  | .helpInline topics true =>
    modify fun s => { s with pendingHelp := s.pendingHelp ++ [Help.render topics] }
  | .helpInline topics false => r.sendTurn (Help.render topics) place
  | .consult text => Action.stop (.paused (some place.step) text true)
  | .pause text => Action.stop (.paused (some place.step) text false)

/-- Executes the steps of a block. -/
def executeBlock (r : Run) (place : StepPlace) : List Step → Action Unit
  | [] => pure ()
  | step :: rest => do
    executeStep r place .inBlock step
    executeBlock r place rest

end

end ConversationFlow.Run

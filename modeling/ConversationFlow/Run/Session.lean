import ConversationFlow.Run.State

/-!
# Sessions

A run has at most one session at a time. It is opened when a turn needs one, and the
first prompt of a session also tells the agent about the stop file. Before a turn the
limit of the context is looked at; the response to it is counted and judged.
-/

namespace ConversationFlow.Run

/-- Opens a session. The tokens of the conversation are counted from nothing again. -/
def openSession (r : Run) : Action Text := do
  let options := r.settings.sessionOptions r.cwd r.options.isStreaming
  let session ← Action.orAgentFailure none (← Action.ask (.create options))
  modify fun s => { s with
    session := some session
    owesInstruction := true
    tracker := s.tracker.resetConversation }
  return session

/-- Gives up the session, if there is one. -/
def endSession : Action Unit := do
  match (← get).session with
  | none => return
  | some session =>
    modify fun s => { s with session := none }
    Action.orAgentFailure none (← Action.ask (.destroy session))

/-- The session, opened if there is none. -/
def liveSession (r : Run) : Action Text := do
  match (← get).session with
  | some session => return session
  | none => r.openSession

/-- Takes over the tokens that the agent reports; those of the files are counted apart. -/
def countTokens (reported : Option Nat) : Action Unit :=
  modify fun s =>
    match reported with
    | some tokens =>
      { s with tracker := s.tracker.setConversationTokens (tokens - s.tracker.fileTokens) }
    | none => s

/-- Has the agent compact a session. Without a report the conversation counts as empty. -/
def compactNow (session : Text) (place : StepPlace) : Action Unit := do
  Action.orAgentFailure (some place) (← Action.ask (.compact session))
  match ← Action.ask (.stats session) with
  | .ok ⟨_, some tokens⟩ => countTokens (some tokens)
  | _ => modify fun s => { s with tracker := s.tracker.resetConversation }

/-- The prompt as it is sent: the first one of a session tells of the stop file. -/
def instructed (prompt : Text) : Action Text := do
  let s ← get
  if s.owesInstruction then
    set { s with owesInstruction := false }
    return prompt ++ "\n\n" ++ s.detector.instruction
  else return prompt

/-- Judges a response; a sign of a loop and a request to stop end the run. -/
def judge (response : Response) (toolCalls : Nat) : Action Unit := do
  let files ← Action.ask .files
  let s ← get
  let (detector, verdict) :=
    s.detector.check files response.reasoning response.text s.cycle toolCalls
  set { s with detector }
  match verdict with
  | none => return
  | some v =>
    Action.stop (if v.reason = .stopFile then .stopRequested v else .loopDetected v)

/-- Sends a prompt, counts the turn and judges the response. -/
def exchange (r : Run) (prompt : Text) (place : StepPlace) : Action Unit := do
  let session ← r.liveSession
  let instructedPrompt ← instructed prompt
  Action.note (.sending place prompt)
  let response ← Action.orAgentFailure (some place)
    (← Action.ask (.send session instructedPrompt r.options.isStreaming))
  modify fun s => { s with
    tracker := s.tracker.addTurn instructedPrompt response.text
    report := { s.report with
      turns := s.report.turns + 1
      responses := s.report.responses ++
        [⟨place.cycle, place.step, instructedPrompt, response.text⟩] } }
  let stats := match ← Action.ask (.stats session) with
    | .ok stats => stats
    | .error _ => {}
  countTokens stats.contextTokens
  judge response stats.toolCalls

/-- Compacts the session, after a last prompt in it if one is given. -/
def compactAfter (r : Run) (preamble : Option Text) (place : StepPlace) : Action Unit := do
  match preamble with
  | some text => r.exchange ((← get).vars.substitute text) place
  | none => pure ()
  compactNow (← r.liveSession) place

/-- Makes room before a turn, or ends the run, if a session that goes on is near its limit. -/
def respectLimit (r : Run) (place : StepPlace) : Action Unit := do
  let tracker := (← get).tracker
  if r.settings.sessionMode = .accumulate && tracker.nearLimit
      && tracker.conversationTokens ≠ 0 then
    match r.settings.onContextLimit with
    | .stop => Action.stop (.contextLimit tracker.usage)
    | .compact => r.compactAfter r.settings.onContextLimitPrompt place

/-- One turn of the agent. -/
def sendTurn (r : Run) (prompt : Text) (place : StepPlace) : Action Unit := do
  r.respectLimit place
  r.exchange prompt place

end ConversationFlow.Run

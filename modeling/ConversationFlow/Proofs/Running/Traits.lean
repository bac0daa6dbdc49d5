import ConversationFlow.Proofs.Context.Loading
import ConversationFlow.Run.Cycle

/-!
# Traits of actions

A trait is a property that actions in a row have if each of them has it. A run is made of few
kinds of actions: requests to others than the agent, warnings, help that is left for a later prompt,
and the actions that open, end and use sessions and compose prompts. If these have a trait at a
place, every step at that place has it, whatever its blocks, retries and checks
(`Run.Carries.executeStep`). A trait that an exchange has only as a part of its turn is carried by
the turns as a whole (`Run.CarriesTurns`).
-/

namespace ConversationFlow

/-- The request goes neither to the agent nor to an observer. -/
def Request.IsQuiet : Request → Prop
  | .host .. | .command .. | .files | .save .. | .write .. | .stamp | .now | .clock => True
  | _ => False

/-- The request opens or ends a session, or asks how full it is. -/
def Request.IsOfSession : Request → Prop
  | .create _ | .destroy _ | .stats _ => True
  | _ => False

/-- The step leaves help for the next prompt. -/
def Step.leavesHelp : Step → Bool
  | .helpInline _ joins => joins
  | _ => false

/-- The states agree on what prompts are framed with. -/
structure RunState.SameFrame (s t : RunState) : Prop where
  cycle : t.cycle = s.cycle
  vars : t.vars = s.vars
  pendingHelp : t.pendingHelp = s.pendingHelp
  context : t.tracker.SameFiles s.tracker

theorem RunState.SameFrame.trans {s t u : RunState} (h : s.SameFrame t) (h' : t.SameFrame u) :
    s.SameFrame u :=
  ⟨h'.cycle.trans h.cycle, h'.vars.trans h.vars, h'.pendingHelp.trans h.pendingHelp,
    h'.context.trans h.context⟩

/-- Actions in a row have the property if each has it, and so do those that do nothing but end the
run. Of an outcome it may be used that it does not say that the run completed. -/
structure Action.IsTrait (Q : ∀ β : Type, Action β → Prop) : Prop where
  pure : ∀ {β : Type} (b : β), Q β (Pure.pure b)
  bind : ∀ {β γ : Type} {a : Action β} {f : β → Action γ},
    Q β a → (∀ b, Q γ (f b)) → Q γ (a >>= f)
  getBind : ∀ {γ : Type} {f : RunState → Action γ}, (∀ s, Q γ (f s)) → Q γ (get >>= f)
  fail : ∀ {β : Type} (failure : Failure), Q β (Action.fail failure)
  stop : ∀ {β : Type} {outcome : RunOutcome}, outcome.isCompleted = false →
    Q β (Action.stop outcome)

/-- What sessions are opened, counted and ended with has the trait: requests to the agent, and
changes of the state that leave its report and the frame of prompts as they are. -/
structure Action.TendsSessions (Q : ∀ β : Type, Action β → Prop) : Prop
    extends Action.IsTrait Q where
  asks : ∀ {request : Request}, request.IsOfSession → Q _ (Action.ask request)
  changes : ∀ {f : RunState → RunState},
    (∀ s, (f s).report = s.report ∧ s.SameFrame (f s)) → Q Unit (modify f)

/-- Requests to others than the agent have the trait, and so do warnings. -/
structure Action.AsksOthers (Q : ∀ β : Type, Action β → Prop) : Prop
    extends Action.IsTrait Q where
  asks : ∀ {request : Request}, request.IsQuiet → Q _ (Action.ask request)
  warns : ∀ message, Q _ (Action.warn message)

/-- What turns are made of has the trait. -/
structure Run.TakesTurns (r : Run) (place : StepPlace) (Q : ∀ β : Type, Action β → Prop) : Prop
    extends Action.IsTrait Q where
  exchanges : ∀ prompt, Q _ (r.exchange prompt place)
  compacts : Q _ (do Run.compactNow (← r.liveSession) place)

/-- What the steps at a place are made of has the trait, their turns as a whole. -/
structure Run.CarriesTurns (r : Run) (place : StepPlace) (Q : ∀ β : Type, Action β → Prop) : Prop
    extends Action.AsksOthers Q where
  begins : ∀ {step : Step}, step.leavesHelp = false → step.isAgentTurn = false →
    Q _ (Action.note (.stepBegan place step))
  saves : ∀ path, Q Unit (modify fun s => { s with
    report := { s.report with checkpoints := s.report.checkpoints ++ [path] } })
  helpWaits : ∀ topics, Q Unit (do
    Action.note (.stepBegan place (.helpInline topics true))
    modify fun s => { s with pendingHelp := s.pendingHelp ++ [Help.render topics] })
  renews : Q _ (do
    Action.note (.stepBegan place .newConversation)
    Run.endSession
    discard r.openSession)
  sends : ∀ prompt, Q _ (r.sendTurn prompt place)
  compactSteps : ∀ preserve, Q _ (do
    Action.note (.stepBegan place (.compact preserve))
    r.compactStep place)
  agentTurns : ∀ {step : Step}, step.isAgentTurn = true → Q _ (r.executeStep place .inBlock step)

/-- What the steps at a place are made of has the trait. -/
structure Run.Carries (r : Run) (place : StepPlace) (Q : ∀ β : Type, Action β → Prop) : Prop
    extends Action.IsTrait Q where
  asks : ∀ {request : Request}, request.IsQuiet → Q _ (Action.ask request)
  begins : ∀ {step : Step}, step.leavesHelp = false → Q _ (Action.note (.stepBegan place step))
  warns : ∀ message, Q _ (Action.warn message)
  saves : ∀ path, Q Unit (modify fun s => { s with
    report := { s.report with checkpoints := s.report.checkpoints ++ [path] } })
  helpWaits : ∀ topics, Q Unit (do
    Action.note (.stepBegan place (.helpInline topics true))
    modify fun s => { s with pendingHelp := s.pendingHelp ++ [Help.render topics] })
  renews : Q _ (do
    Action.note (.stepBegan place .newConversation)
    Run.endSession
    discard r.openSession)
  exchanges : ∀ prompt, Q _ (r.exchange prompt place)
  compacts : Q _ (do Run.compactNow (← r.liveSession) place)
  composes : ∀ body fillings, Q _ (r.compose body .inBlock fillings)

/-- What a step composes for its own turn has the trait; the steps of its blocks have none. -/
def Run.Composes (r : Run) (Q : ∀ β : Type, Action β → Prop) (turn : TurnPlace) : Step → Prop
  | .prompt text => Q _ (r.compose text turn [])
  | .merged m => ∀ fillings, Q _ (r.compose m.content turn fillings)
  | _ => True

theorem Run.composes_of_all {r : Run} {Q : ∀ β : Type, Action β → Prop} {turn : TurnPlace}
    (h : ∀ body fillings, Q _ (r.compose body turn fillings)) (step : Step) :
    r.Composes Q turn step := by
  cases step with
  | prompt text => exact h text []
  | merged m => exact h m.content
  | _ => trivial

/-- The blocks that follow a command or a check have the property. -/
structure Run.FollowUp.Has (next : Run.FollowUp) (Q : ∀ β : Type, Action β → Prop) : Prop where
  onFailure : ∀ block, next.onFailure = some block → Q _ block
  onSuccess : Q _ next.onSuccess

namespace Action.IsTrait

variable {Q : ∀ β : Type, Action β → Prop} (h : Action.IsTrait Q)
include h

theorem orAgentFailure {β : Type} (place : Option StepPlace) (answer : Except AgentError β) :
    Q _ (Action.orAgentFailure place answer) := by
  cases answer with
  | ok b => exact h.pure b
  | error e => exact h.fail _

theorem orCommandFailure {β : Type} (place : StepPlace) (answer : Except CommandError β) :
    Q _ (Action.orCommandFailure place answer) := by
  cases answer with
  | ok b => exact h.pure b
  | error e => exact h.fail _

theorem orContextFailure {β : Type} (answer : Except ContextError β) :
    Q _ (Action.orContextFailure answer) := by
  cases answer with
  | ok b => exact h.pure b
  | error e => exact h.fail _

theorem fillings {ι : Type} (kind : Text) (index : Nat) (payloads : List ι)
    (f : ι → Text × Action Text) (hf : ∀ i, Q _ (f i).2) :
    Q _ (Run.fillings kind index (payloads.map f)) := by
  induction payloads generalizing index with
  | nil => exact h.pure _
  | cons i rest ih =>
    refine h.bind (hf i) fun output => ?_
    exact h.bind (ih _) fun _ => h.pure _

theorem forM {ι : Type} {f : ι → Action Unit} (hf : ∀ i, Q _ (f i)) (l : List ι) :
    Q _ (l.forM f) := by
  induction l with
  | nil => exact h.pure ()
  | cons i l ih => exact h.bind (hf i) fun _ => ih

/-- What is asked and warned of before the start has a trait that the loading of the context has. -/
theorem checkPreconditions {r : Run} (asks : Q _ (Action.ask .files))
    (warns : ∀ message, Q _ (Action.warn message)) (loads : Q _ r.loadContext) :
    Q _ r.checkPreconditions := by
  have warned (issues : List (Text × RequirementIssue)) (f : Text × RequirementIssue → Text)
      (g : Text → Text) : Q _ (issues.forM (fun i => Action.warn (f i)) >>= fun _ =>
        r.loadContext >>= fun missing => missing.forM fun pattern => Action.warn (g pattern)) := by
    refine h.bind (h.forM (fun _ => warns _) _) fun _ => ?_
    exact h.bind loads fun missing => h.forM (fun _ => warns _) _
  refine h.bind asks fun files => ?_
  refine h.getBind fun s => ?_
  dsimp only
  split
  · refine h.bind (h.fail _) fun _ => ?_
    split
    · exact h.bind (h.fail _) fun _ => warned _ _ _
    · exact warned _ _ _
  · split
    · exact h.bind (h.fail _) fun _ => warned _ _ _
    · exact warned _ _ _

theorem discard {β : Type} {a : Action β} (ha : Q _ a) : Q _ (discard a) :=
  h.bind ha fun _ => h.pure _

theorem shutDown (closes : ∀ session, Q _ (Action.ask (.close session)))
    (stops : Q _ (Action.ask .stop))
    (leaves : Q Unit (modify fun s => { s with session := none })) : Q _ Run.shutDown := by
  have hstop : Q _ (do if (← get).isStarted then Functor.discard (Action.ask .stop)) := by
    refine h.getBind fun s => ?_
    split
    · exact h.discard stops
    · exact h.pure _
  refine h.getBind fun s => ?_
  split
  · exact h.bind leaves fun _ => h.bind (h.discard (closes _)) fun _ => hstop
  · exact hstop

theorem stopAfter (r : Run) (step : Nat) : Q _ (r.stopAfter step) := by
  unfold Run.stopAfter
  split
  · exact h.stop rfl
  · exact h.stop rfl
  · exact h.pure ()

end Action.IsTrait

namespace Action.TendsSessions

variable {Q : ∀ β : Type, Action β → Prop} (h : Action.TendsSessions Q)
include h

theorem openSession (r : Run) : Q _ r.openSession := by
  refine h.bind (h.asks trivial) fun answer => ?_
  refine h.bind (h.orAgentFailure _ _) fun session => ?_
  exact h.bind (h.changes fun _ => ⟨rfl, rfl, rfl, rfl, rfl, rfl, rfl⟩) fun _ => h.pure _

theorem endSession : Q _ Run.endSession := by
  refine h.getBind fun s => ?_
  split
  · exact h.pure _
  · refine h.bind (h.changes fun _ => ⟨rfl, rfl, rfl, rfl, rfl, rfl, rfl⟩) fun _ => ?_
    exact h.bind (h.asks trivial) fun answer => h.orAgentFailure _ _

theorem liveSession (r : Run) : Q _ r.liveSession := by
  refine h.getBind fun s => ?_
  split
  · exact h.pure _
  · exact h.openSession r

theorem countTokens (reported : Option Nat) : Q _ (Run.countTokens reported) := by
  refine h.changes fun s => ?_
  cases reported with
  | some tokens => exact ⟨rfl, rfl, rfl, rfl, rfl, rfl, rfl⟩
  | none => exact ⟨rfl, rfl, rfl, rfl, rfl, rfl, rfl⟩

theorem compactNow {session : Text} (compacts : Q _ (Action.ask (.compact session)))
    (place : StepPlace) : Q _ (Run.compactNow session place) := by
  refine h.bind compacts fun answer => h.bind (h.orAgentFailure _ _) fun _ => ?_
  refine h.bind (h.asks trivial) fun stats => ?_
  split
  · exact h.countTokens _
  · exact h.changes fun _ => ⟨rfl, rfl, rfl, rfl, rfl, rfl, rfl⟩

/-- However a cycle begins, its session is tended; in fresh mode the context is loaded anew. -/
theorem beginCycle (r : Run) (compacts : ∀ session, Q _ (Action.ask (.compact session)))
    (clears : Q Unit (modify fun s => { s with tracker := s.tracker.clearFiles }))
    (loads : Q _ r.loadContext) : Q _ r.beginCycle := by
  have live : Q _ (Functor.discard r.liveSession) := h.discard (h.liveSession r)
  have opened : Q _ (do Functor.discard r.openSession; Functor.discard r.liveSession) :=
    h.bind (h.discard (h.openSession r)) fun _ => live
  refine h.getBind fun s => ?_
  dsimp only
  split
  · refine h.bind h.endSession fun _ => ?_
    split
    · exact h.bind clears fun _ => h.bind (h.discard loads) fun _ => opened
    · exact opened
  · split
    · split
      · exact h.bind (h.compactNow (compacts _) _) fun _ => live
      · exact live
    · exact live
  · exact live

end Action.TendsSessions

namespace Run.TakesTurns

variable {r : Run} {place : StepPlace} {Q : ∀ β : Type, Action β → Prop}
  (h : r.TakesTurns place Q)
include h

theorem compactAfter (preamble : Option Text) : Q _ (r.compactAfter preamble place) := by
  cases preamble with
  | some text =>
    refine h.getBind fun s => ?_
    exact h.bind (h.exchanges _) fun _ => h.compacts
  | none => exact h.compacts

theorem respectLimit : Q _ (r.respectLimit place) := by
  refine h.getBind fun s => ?_
  dsimp only
  split
  · split
    · exact h.stop rfl
    · exact h.compactAfter _
  · exact h.pure _

theorem sendTurn (prompt : Text) : Q _ (r.sendTurn prompt place) :=
  h.bind h.respectLimit fun _ => h.exchanges prompt

theorem compactStep : Q _ (r.compactStep place) := by
  refine h.getBind fun s => ?_
  split
  · exact h.pure _
  · exact h.compactAfter _

end Run.TakesTurns

/-! ## What a turn carries out -/

namespace Action.AsksOthers

variable {Q : ∀ β : Type, Action β → Prop} (h : Action.AsksOthers Q) (r : Run) (place : StepPlace)
include h

theorem tryCommand (command : Text) : Q _ (r.tryCommand command place) := by
  refine h.bind (h.asks trivial) fun answer => ?_
  split
  · exact h.pure _
  · exact h.orCommandFailure _ _

theorem askHost (request : HostRequest) : Q _ (r.askHost request place) :=
  h.bind (h.asks trivial) fun _ => h.orCommandFailure _ _

theorem askHostFor (line : Text) : Q _ (r.askHostFor line place) := by
  refine h.bind (h.asks trivial) fun files => ?_
  split
  · exact h.fail _
  · split
    · exact h.pure _
    · split
      · exact h.askHost r place _
      · exact h.pure _

theorem excerpts (references : List Text) : Q _ (r.excerpts references) :=
  h.bind (h.asks trivial) fun _ => h.orContextFailure _

theorem commandFilling (command : Text) : Q _ (r.commandFilling command place) := by
  refine h.bind (h.tryCommand r place _) fun output => ?_
  split
  · exact h.bind (h.warns _) fun _ => h.pure _
  · exact h.pure _

theorem hostFilling (line : Text) : Q _ (r.hostFilling line place) :=
  h.bind (h.askHostFor r place line) fun _ => h.pure _

theorem customFilling (name content : Text) : Q _ (r.customFilling name content place) := by
  refine h.getBind fun s => ?_
  exact h.bind (h.askHost r place _) fun _ => h.pure _

theorem resolve (m : MergedPrompt) : Q _ (r.resolve m place) := by
  refine h.bind (h.fillings _ _ _ _ fun c => ?_) fun runs => ?_
  · exact h.commandFilling r place c
  refine h.bind (h.fillings _ _ _ _ fun l => ?_) fun checks => ?_
  · exact h.hostFilling r place l
  refine h.bind (h.fillings _ _ _ _ fun refs => ?_) fun references => ?_
  · exact h.excerpts r _
  refine h.bind (h.fillings _ _ _ _ fun q => ?_) fun queries => ?_
  · exact h.hostFilling r place _
  refine h.bind (h.fillings _ _ _ _ fun t => ?_) fun topics => ?_
  · exact h.pure _
  refine h.bind (h.fillings _ _ _ _ fun d => ?_) fun customs => ?_
  · exact h.customFilling r place _ _
  refine h.bind (h.fillings _ _ _ _ fun t => ?_) fun _ => ?_
  · exact h.pure _
  exact h.pure _

/-- A turn is executed with what it composes. -/
theorem agentTurn
    (begins : ∀ {step : Step}, step.leavesHelp = false → Q _ (Action.note (.stepBegan place step)))
    (sends : ∀ prompt, Q _ (r.sendTurn prompt place)) {turn : TurnPlace} {step : Step}
    (hstep : step.isAgentTurn = true) (hs : r.Composes Q turn step) :
    Q _ (r.executeStep place turn step) := by
  cases step with
  | prompt text =>
    refine h.bind (begins rfl) fun _ => ?_
    exact h.bind hs fun _ => sends _
  | merged m =>
    refine h.bind (begins rfl) fun _ => ?_
    refine h.bind (h.resolve r place m) fun outputs => ?_
    exact h.bind (hs outputs) fun _ => sends _
  | _ => cases hstep

end Action.AsksOthers

/-! ## Steps -/

namespace Run.CarriesTurns

variable {r : Run} {place : StepPlace} {Q : ∀ β : Type, Action β → Prop}
  (h : r.CarriesTurns place Q)
include h

theorem report (sends : Bool) (output : Text) : Q _ (r.report sends output place) := by
  unfold Run.report
  split
  · exact h.sends output
  · exact h.pure _

theorem giveUp (command : Text) (output : CommandOutput) :
    Q _ (r.giveUp command place output) := by
  refine h.bind (h.report _ _) fun _ => ?_
  split
  · exact h.fail _
  · exact h.warns _

theorem attempt {next : Run.FollowUp} (hn : next.Has Q) (command : Text)
    {otherwise : CommandOutput → Action Unit} (ho : ∀ output, Q _ (otherwise output)) :
    Q _ (r.attempt command next place otherwise) := by
  refine h.bind (h.tryCommand r place _) fun output => ?_
  dsimp only
  split
  · exact h.bind (h.report _ _) fun _ => hn.onSuccess
  · split
    · next block hb => exact h.bind (h.report _ _) fun _ => hn.onFailure block hb
    · exact ho output

theorem executeCommand {next : Run.FollowUp} (hn : next.Has Q) (c : RunCommand) (retries : Nat) :
    Q _ (r.executeCommand c next place retries) := by
  induction retries with
  | zero => exact h.attempt hn _ fun output => h.giveUp _ output
  | succ retries ih =>
    refine h.attempt hn _ fun output => ?_
    refine h.bind ?_ fun _ => ih
    exact h.getBind fun s => h.sends _

theorem executeRequest {next : Run.FollowUp} (hn : next.Has Q) (request : HostRequest) :
    Q _ (r.executeRequest request next place) := by
  refine h.bind (h.askHost r place _) fun outcome => ?_
  refine h.bind (h.report _ _) fun _ => ?_
  split
  · exact hn.onSuccess
  · split
    · next block hb => exact hn.onFailure block hb
    · split
      · exact h.fail _
      · exact h.warns _

theorem writeCheckpoint (name : Option Text) : Q _ (r.writeCheckpoint name place) := by
  refine h.bind (h.asks trivial) fun stamp => ?_
  refine h.getBind fun s => ?_
  refine h.bind (h.asks trivial) fun answer => ?_
  split
  · exact h.fail _
  · exact h.saves _

omit h in
/-- The blocks of a step, if what they hold has the property. -/
theorem followUp {onFailure onSuccess : List Step}
    (hf : Q _ (r.executeBlock place onFailure)) (hs : Q _ (r.executeBlock place onSuccess)) :
    Run.FollowUp.Has
      { onFailure := if onFailure.isEmpty then none else some (r.executeBlock place onFailure)
        onSuccess := r.executeBlock place onSuccess } Q where
  onFailure block hb := by
    split at hb
    · cases hb
    · cases hb
      exact hf
  onSuccess := hs

theorem noFollowUp : Run.FollowUp.Has {} Q where
  onFailure block hb := by cases hb
  onSuccess := h.pure ()

mutual

/-- Every step has the trait, if it has it as a turn where it is one. -/
theorem executeStep {turn : TurnPlace} (s : Step)
    (hs : s.isAgentTurn = true → Q _ (r.executeStep place turn s)) :
    Q _ (r.executeStep place turn s) := by
  have begun {step : Step} (hhelp : step.leavesHelp = false) (hstep : step.isAgentTurn = false)
      {a : Action Unit} (ha : Q _ a) : Q _ (do Action.note (.stepBegan place step); a) :=
    h.bind (h.begins hhelp hstep) fun _ => ha
  cases s with
  | prompt text | merged m => exact hs rfl
  | run c onFailure onSuccess =>
    have hf := executeBlock onFailure
    have hs := executeBlock onSuccess
    exact begun rfl rfl (h.executeCommand (followUp hf hs) c _)
  | verify c onFailure onSuccess =>
    have hf := executeBlock onFailure
    have hs := executeBlock onSuccess
    exact begun rfl rfl (h.executeRequest (followUp hf hs) _)
  | lsp query options => exact begun rfl rfl (h.executeRequest h.noFollowUp _)
  | custom name content =>
    exact begun rfl rfl (h.getBind fun s => h.executeRequest h.noFollowUp _)
  | checkpoint name => exact begun rfl rfl (h.writeCheckpoint name)
  | compact preserve => exact h.compactSteps preserve
  | newConversation => exact h.renews
  | elide => exact begun rfl rfl (h.pure ())
  | refcat refs => exact begun rfl rfl (h.bind (h.excerpts r refs) fun _ => h.sends _)
  | helpInline topics joins =>
    cases joins with
    | true => exact h.helpWaits topics
    | false => exact begun rfl rfl (h.sends _)
  | consult text | pause text => exact begun rfl rfl (h.stop rfl)

/-- And so does every block. -/
theorem executeBlock (steps : List Step) : Q _ (r.executeBlock place steps) := by
  cases steps with
  | nil => exact h.pure ()
  | cons s rest =>
    have hs := executeStep s h.agentTurns
    have hrest := executeBlock rest
    exact h.bind hs fun _ => hrest

end

end Run.CarriesTurns

/-- Steps in a row have a trait that steps at all places have, and turns at their places. -/
theorem Run.CarriesTurns.executeFrom {r : Run} {Q : ∀ β : Type, Action β → Prop}
    (h : ∀ place, r.CarriesTurns place Q)
    (turns : ∀ place turn step, step.isAgentTurn = true → Q _ (r.executeStep place turn step))
    (dropsHelp : Q Unit (modify fun s => { s with pendingHelp := [] })) (index count : Nat)
    (steps : List Step) : Q _ (r.executeFrom index count steps) := by
  have trait := (h ⟨0, 0⟩).toIsTrait
  induction steps generalizing index count with
  | nil => exact dropsHelp
  | cons step rest ih =>
    refine trait.getBind fun s => ?_
    refine trait.bind ((h _).executeStep step (turns _ _ step)) fun _ => ?_
    exact trait.bind (trait.stopAfter r index) fun _ => ih _ _

namespace Run.Carries

variable {r : Run} {place : StepPlace} {Q : ∀ β : Type, Action β → Prop} (h : r.Carries place Q)
include h

theorem asksOthers : Action.AsksOthers Q where
  toIsTrait := h.toIsTrait
  asks := h.asks
  warns := h.warns

theorem takesTurns : r.TakesTurns place Q where
  toIsTrait := h.toIsTrait
  exchanges := h.exchanges
  compacts := h.compacts

/-- A turn is executed with what it composes. -/
theorem agentTurn {turn : TurnPlace} {step : Step} (hstep : step.isAgentTurn = true)
    (hs : r.Composes Q turn step) : Q _ (r.executeStep place turn step) :=
  h.asksOthers.agentTurn r place h.begins h.takesTurns.sendTurn hstep hs

theorem carriesTurns : r.CarriesTurns place Q where
  toAsksOthers := h.asksOthers
  begins hhelp _ := h.begins hhelp
  saves := h.saves
  helpWaits := h.helpWaits
  renews := h.renews
  sends := h.takesTurns.sendTurn
  compactSteps _ := h.bind (h.begins rfl) fun _ => h.takesTurns.compactStep
  agentTurns {step} hstep := h.agentTurn hstep (Run.composes_of_all h.composes step)

/-- Every step has the trait if what it composes has it. -/
theorem executeStep {turn : TurnPlace} (s : Step) (hs : r.Composes Q turn s) :
    Q _ (r.executeStep place turn s) :=
  h.carriesTurns.executeStep s fun hturn => h.agentTurn hturn hs

end Run.Carries

/-- Steps in a row have a trait that steps at all places have. -/
theorem Run.Carries.executeFrom {r : Run} {Q : ∀ β : Type, Action β → Prop}
    (h : ∀ place, r.Carries place Q)
    (composes : ∀ body turn fillings, Q _ (r.compose body turn fillings))
    (dropsHelp : Q Unit (modify fun s => { s with pendingHelp := [] })) (index turns : Nat)
    (steps : List Step) : Q _ (r.executeFrom index turns steps) :=
  Run.CarriesTurns.executeFrom (fun place => (h place).carriesTurns)
    (fun place turn step hstep => (h place).agentTurn hstep
      (Run.composes_of_all (fun body => composes body turn) step)) dropsHelp index turns steps

end ConversationFlow

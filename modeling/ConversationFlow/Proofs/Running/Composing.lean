import ConversationFlow.Proofs.Rendering.Plans
import ConversationFlow.Proofs.Running.Beginnings
import ConversationFlow.Proofs.Running.Starting
import ConversationFlow.Proofs.Value.Options

/-!
# What prompts are composed with

A prompt is composed with the variables, the number and the context of its cycle, and with the help
that was left since the last prompt. Sessions, commands and checks change none of these, and blocks
do so for themselves only: where the files stay as they are, every cycle has the same context, and
its variables differ from those of the others in its number alone. The turns of a cycle are composed
in their order, however many prompts of blocks come between them (`Run.Frames`).
-/

namespace ConversationFlow

/-! ## Frames -/

/-- The cycle that is set last is the one that the variables tell of. -/
theorem Variables.setCycle_setCycle (vars : Variables) (m n total : Nat) :
    (vars.setCycle m total).setCycle n total = vars.setCycle n total := by
  refine Dictionary.eq_of_get? fun name => ?_
  unfold setCycle
  simp only [Dictionary.get?_insert]
  split
  · rfl
  · split <;> rfl

/-- The text of a turn, with its values and its outputs. -/
def Step.HasBody (vars : Variables) (body : Text) : Step → Prop
  | .prompt text => body = vars.substitute text
  | .merged m => ∃ outputs, body = MergedPrompt.fill outputs (vars.substitute m.content)
  | _ => False

theorem MergedPrompt.fill_nil (t : Text) : fill [] t = t := by
  change fill.go [] 0 t = t
  induction t with
  | nil => rfl
  | cons c t ih =>
    unfold fill.go
    split
    · exact congrArg (c :: ·) ih
    · exact congrArg (c :: ·) ih

/-- The context is part of the first turn only. -/
theorem PromptFrame.composeResolved_context (f : PromptFrame) (pending : List Text) (body : Text)
    (place : TurnPlace) :
    let here := { f with context := if place.isFirst then f.context else [] }
    here.composeResolved pending body place = f.composeResolved pending body place := by
  unfold composeResolved parts
  cases place.isFirst <;> rfl

/-! ## Exchanges apart -/

namespace Exchange

/-- The exchange has no part in what prompts are composed with. -/
def isApart : Exchange → Bool
  | ⟨.note (.cycleBegan _), _⟩ | ⟨.note (.composed ..), _⟩ => false
  | ⟨.note (.stepBegan _ step), _⟩ => !step.leavesHelp
  | _ => true

/-- The help that waits for a prompt after the exchange, if the given help waited before. -/
def waitingAfter (waiting : List Text) : Exchange → List Text
  | ⟨.note (.cycleBegan _), _⟩ | ⟨.note (.composed ..), _⟩ => []
  | ⟨.note (.stepBegan _ (.helpInline topics true)), _⟩ => waiting ++ [Help.render topics]
  | _ => waiting

/-- How many turns of the cycle were composed after the exchange, if so many were before it. -/
def turnsAfter (composed : Nat) : Exchange → Nat
  | ⟨.note (.cycleBegan _), _⟩ => 0
  | ⟨.note (.composed (.among ..) _ _), _⟩ => composed + 1
  | _ => composed

variable {x : Exchange}

theorem begunCycle?_of_apart (h : x.isApart = true) : x.begunCycle? = none := by
  obtain ⟨request, answer⟩ := x
  cases request with
  | note n =>
    cases n with
    | cycleBegan => cases h
    | _ => rfl
  | _ => rfl

theorem waitingAfter_of_apart (h : x.isApart = true) (waiting : List Text) :
    x.waitingAfter waiting = waiting := by
  obtain ⟨request, answer⟩ := x
  cases request with
  | note n =>
    cases n with
    | cycleBegan | composed => cases h
    | sending => rfl
    | stepBegan place step =>
      cases step with
      | helpInline topics joins =>
        cases joins with
        | true => cases h
        | false => rfl
      | _ => rfl
  | _ => rfl

theorem turnsAfter_of_apart (h : x.isApart = true) (composed : Nat) :
    x.turnsAfter composed = composed := by
  obtain ⟨request, answer⟩ := x
  cases request with
  | note n =>
    cases n with
    | cycleBegan | composed => cases h
    | sending | stepBegan => rfl
  | _ => rfl

theorem apart_of_quiet (h : x.request.IsQuiet) : x.isApart = true ∧ x.begunStep? = none := by
  obtain ⟨request, answer⟩ := x
  cases request with
  | host | command | files | save | write | stamp | now | clock => exact ⟨rfl, rfl⟩
  | _ => cases h

/-- Whoever asks for the files or for the time finds these. -/
def FindsAt (fs : FileSystem) (now : Variables.Occasion) : Exchange → Prop
  | ⟨.now, moment⟩ => moment = now
  | x => x.Finds fs

end Exchange

/-- The help that was left since the last prompt of the cycle. -/
def helpWaiting (past : List Exchange) : List Text := past.foldl (fun w x => x.waitingAfter w) []

theorem helpWaiting_snoc (past : List Exchange) (x : Exchange) :
    helpWaiting (past ++ [x]) = x.waitingAfter (helpWaiting past) := by
  unfold helpWaiting
  rw [List.foldl_append]
  rfl

/-- How many turns were composed in the cycle that goes on. -/
def turnsComposed (past : List Exchange) : Nat := past.foldl (fun n x => x.turnsAfter n) 0

theorem turnsComposed_snoc (past : List Exchange) (x : Exchange) :
    turnsComposed (past ++ [x]) = x.turnsAfter (turnsComposed past) := by
  unfold turnsComposed
  rw [List.foldl_append]
  rfl

/-- The step that began last. -/
def lastStep? (past : List Exchange) : Option Step := (begunSteps past).getLast?

theorem lastStep?_began (past : List Exchange) (place : StepPlace) (step : Step) (answer : Unit) :
    lastStep? (past ++ [⟨.note (.stepBegan place step), answer⟩]) = some step := by
  unfold lastStep?
  rw [begunSteps_append]
  exact List.getLast?_concat

/-- The files and the time were found to be these. -/
def FoundAt (fs : FileSystem) (now : Variables.Occasion) (past : List Exchange) : Prop :=
  ∀ x ∈ past, x.FindsAt fs now

theorem FoundAt.of_append {fs : FileSystem} {now : Variables.Occasion} {past xs : List Exchange}
    (h : FoundAt fs now (past ++ xs)) : FoundAt fs now past ∧ FoundAt fs now xs :=
  List.forall_mem_append.mp h

theorem FoundAt.single {fs : FileSystem} {now : Variables.Occasion} {x : Exchange}
    (h : FoundAt fs now [x]) : x.FindsAt fs now := h x List.mem_cons_self

/-- The exchanges have no part in what prompts are composed with, nor have the changes. -/
def Course.apart : Course := fun s xs t => (∀ x ∈ xs, x.isApart = true) ∧ s.SameFrame t

/-- How many tokens a context may hold has no part in what it holds. -/
theorem ContextTracker.ofSettings_of_ok {s : Settings} {cwd workflowDir : Path} {m : Nat}
    {t : ContextTracker} (h : ofSettings s cwd workflowDir m = .ok t) (n : Nat) :
    ofSettings s cwd workflowDir n = .ok { t with maxTokens := n } := by
  obtain ⟨filter, hfilter, h⟩ := exists_of_bind_ok h
  obtain rfl := Except.ok.inj h
  unfold ofSettings
  rw [hfilter]
  rfl

namespace Run

open ConversationFlow.Action

section

variable {r : Run}

theorem apart_isPath : Course.apart.IsPath where
  rest _ := ⟨fun _ hx => absurd hx List.not_mem_nil, ⟨rfl, rfl, rfl, rfl, rfl, rfl⟩⟩
  join h h' := ⟨List.forall_mem_append.mpr ⟨h.1, h'.1⟩, h.2.trans h'.2⟩

theorem apart_ask {request : Request} (h : ∀ answer, Exchange.isApart ⟨request, answer⟩ = true) :
    Takes .apart (ask request) :=
  takes_ask fun answer _ =>
    ⟨List.forall_mem_singleton.mpr (h answer), ⟨rfl, rfl, rfl, rfl, rfl, rfl⟩⟩

theorem apart_modify {f : RunState → RunState} (h : ∀ s : RunState, s.SameFrame (f s)) :
    Takes .apart (modify f : Action Unit) :=
  takes_modify fun s => ⟨fun _ hx => absurd hx List.not_mem_nil, h s⟩

theorem apart_same (s : RunState) (owesInstruction : Bool) (detector : LoopDetector) :
    Course.apart s [] { s with owesInstruction, detector } :=
  ⟨fun _ hx => absurd hx List.not_mem_nil, rfl, rfl, rfl, rfl, rfl, rfl⟩

theorem apart_tends : TendsSessions fun _ a => Takes .apart a where
  toIsTrait := apart_isPath.isTrait
  asks {request} hr := by
    cases request with
    | create | destroy | stats => exact apart_ask fun _ => rfl
    | _ => cases hr
  changes h := apart_modify fun s => (h s).2

theorem exchange_apart (prompt : Text) (place : StepPlace) :
    Takes .apart (r.exchange prompt place) :=
  apart_isPath.exchange apart_same apart_tends (apart_ask fun _ => rfl)
    (fun _ => apart_ask fun _ => rfl) (fun _ _ _ => apart_ask fun _ => rfl)
    (fun _ _ _ _ _ => ⟨fun _ hx => absurd hx List.not_mem_nil, rfl, rfl, rfl, rfl, rfl, rfl⟩) prompt

theorem compactNow_apart (session : Text) (place : StepPlace) :
    Takes .apart (compactNow session place) :=
  apart_tends.compactNow (apart_ask fun _ => rfl) place

end

/-! ## The frame of a cycle -/

section

variable (r : Run) (fs : FileSystem) (now : Variables.Occasion)

/-- The turns of a cycle, in order. -/
def turns : List Step := r.conversation.steps.filter Step.isAgentTurn

/-- The context that is loaded from the files. -/
def Loads (loaded : ContextTracker) : Prop :=
  RenderedWorkflow.loadContext fs r.conversation r.cwd = .ok loaded

/-- What the prompts of a cycle are framed with. -/
def frame (loaded : ContextTracker) (cycle : Nat) : PromptFrame where
  settings := r.settings
  vars := (r.initialVars fs now).setCycle (cycle + 1) r.settings.cycles
  cycle
  context := loaded.render

end

section

variable (r : Run)

/-- The frame of the cycle that goes on: its values are from the files and the time when the run
began, and its context is loaded from files that were found before. -/
def IsFrame (past : List Exchange) (f : PromptFrame) : Prop :=
  ∃ fs now files loaded cycle,
    [⟨.files, fs⟩, ⟨.now, now⟩] <:+: past ∧ ⟨.files, files⟩ ∈ past ∧ r.Loads files loaded ∧
    (begunCycles past).getLast? = some cycle ∧ cycle < r.settings.cycles ∧
    f = r.frame fs now loaded cycle

/-- A prompt is composed of the body of the step that began last, with the frame of its cycle and
the help that waits. Turns are composed in their order, and all of them before another cycle
begins. -/
def Frames (past : List Exchange) : Exchange → Prop
  | ⟨.note (.composed turn pending prompt), _⟩ =>
    pending = helpWaiting past ∧ ∃ f step body, r.IsFrame past f ∧ lastStep? past = some step ∧
      step.HasBody f.vars body ∧ prompt = f.composeResolved pending body turn ∧
      ∀ k total, turn = .among k total →
        k = turnsComposed past ∧ total = r.turns.length ∧ r.turns[k]? = some step
  | ⟨.note (.cycleBegan cycle), _⟩ => 0 < cycle → turnsComposed past = r.turns.length
  | _ => True

/-- The state has the values that the cycle `n` would have. -/
def HasValues (past : List Exchange) (s : RunState) : Prop :=
  ∃ fs now, [⟨.files, fs⟩, ⟨.now, now⟩] <:+: past ∧
    ∀ n, s.vars.setCycle n r.settings.cycles = (r.initialVars fs now).setCycle n r.settings.cycles

/-- The state has a context that is loaded from files that were found. -/
def HasContext (past : List Exchange) (s : RunState) : Prop :=
  ∃ files loaded, ⟨.files, files⟩ ∈ past ∧ r.Loads files loaded ∧ s.tracker.SameFiles loaded

/-- The state has the frame of the cycle that began last, in which `k` turns were composed, and the
help that was left since the last prompt. -/
structure InCycle (k : Nat) (past : List Exchange) (s : RunState) : Prop where
  begun : (begunCycles past).getLast? = some s.cycle
  bounded : s.cycle < r.settings.cycles
  vars : ∃ fs now, [⟨.files, fs⟩, ⟨.now, now⟩] <:+: past ∧
    s.vars = (r.initialVars fs now).setCycle (s.cycle + 1) r.settings.cycles
  help : s.pendingHelp = helpWaiting past
  context : r.HasContext past s
  turns : turnsComposed past = k

/-- The state has what the cycle takes over. -/
structure Ready (cycle : Nat) (past : List Exchange) (s : RunState) : Prop where
  vars : r.HasValues past s
  help : s.pendingHelp = []
  context : r.HasContext past s
  turns : 0 < cycle → turnsComposed past = r.turns.length

variable {r} {past xs : List Exchange} {s t : RunState} {x : Exchange} {k : Nat}

theorem HasContext.append (h : r.HasContext past s) (ht : t.tracker.SameFiles s.tracker) :
    r.HasContext (past ++ xs) t := by
  obtain ⟨files, loaded, hfiles, hloaded, hsame⟩ := h
  exact ⟨files, loaded, List.mem_append_left xs hfiles, hloaded, ht.trans hsame⟩

namespace InCycle

theorem snoc (h : r.InCycle k past s) (hx : x.isApart = true) : r.InCycle k (past ++ [x]) s where
  begun := by
    rw [begunCycles_append, begunCycles_eq_nil_iff.mpr (List.forall_mem_singleton.mpr
      (Exchange.begunCycle?_of_apart hx)), List.append_nil]
    exact h.begun
  bounded := h.bounded
  vars := by
    obtain ⟨fs, now, hfound, hvars⟩ := h.vars
    exact ⟨fs, now, hfound.trans (List.prefix_append past [x]).isInfix, hvars⟩
  help := by
    rw [helpWaiting_snoc, Exchange.waitingAfter_of_apart hx]
    exact h.help
  context := h.context.append ⟨rfl, rfl, rfl⟩
  turns := by
    rw [turnsComposed_snoc, Exchange.turnsAfter_of_apart hx]
    exact h.turns

theorem same (h : r.InCycle k past s) (ht : s.SameFrame t) : r.InCycle k past t where
  begun := by
    rw [ht.cycle]
    exact h.begun
  bounded := by
    rw [ht.cycle]
    exact h.bounded
  vars := by
    rw [ht.cycle, ht.vars]
    exact h.vars
  help := ht.pendingHelp.trans h.help
  context := by
    have hcontext : r.HasContext (past ++ []) t := h.context.append ht.context
    rwa [List.append_nil] at hcontext
  turns := h.turns

theorem along (h : r.InCycle k past s) (hxs : ∀ x ∈ xs, x.isApart = true) (ht : s.SameFrame t) :
    r.InCycle k (past ++ xs) t := by
  induction xs generalizing past with
  | nil =>
    rw [List.append_nil]
    exact h.same ht
  | cons x xs ih =>
    obtain ⟨hx, hxs⟩ := List.forall_mem_cons.mp hxs
    have hrest := ih (h.snoc hx) hxs
    rwa [List.append_assoc] at hrest

/-- The frame that the state has is that of the cycle. -/
theorem exists_frame (h : r.InCycle k past s) :
    ∃ f, r.IsFrame past f ∧ f.settings = r.settings ∧ f.vars = s.vars ∧ f.cycle = s.cycle ∧
      f.context = s.tracker.render := by
  obtain ⟨fs, now, hfound, hvars⟩ := h.vars
  obtain ⟨files, loaded, hfiles, hloaded, hsame⟩ := h.context
  exact ⟨_, ⟨fs, now, files, loaded, s.cycle, hfound, hfiles, hloaded, h.begun, h.bounded, rfl⟩,
    rfl, hvars.symm, rfl, hsame.render_eq.symm⟩

end InCycle

theorem Frames.of_apart (hx : x.isApart = true) : r.Frames past x := by
  obtain ⟨request, answer⟩ := x
  cases request with
  | note n =>
    cases n with
    | composed | cycleBegan => cases hx
    | _ => trivial
  | _ => trivial

theorem Frames.along (hxs : ∀ x ∈ xs, x.isApart = true) : Along r.Frames past xs := by
  induction xs generalizing past with
  | nil => trivial
  | cons x xs ih =>
    obtain ⟨hx, hxs⟩ := List.forall_mem_cons.mp hxs
    exact ⟨.of_apart hx, ih hxs⟩

/-- What has no part in prompts leaves the frame of a cycle as it is. -/
theorem upholds_of_apart {β : Type} {a : Action β} (h : Takes .apart a) :
    Upholds r.Frames (r.InCycle k) a := by
  intro past s hs xs result t hr
  obtain ⟨hxs, ht⟩ := (h s xs result t hr).1
  exact ⟨Frames.along hxs, fun _ _ => hs.along hxs ht⟩

/-! ## Steps -/

/-- The place of a turn in the cycle: in a block, or the next of all. -/
inductive StandsNext (r : Run) (step : Step) (k : Nat) : TurnPlace → (after : Nat) → Prop
  | inBlock : StandsNext r step k .inBlock k
  | among (h : r.turns[k]? = some step) :
    StandsNext r step k (.among k r.conversation.promptCount) (k + 1)

/-- A prompt is composed with what waits, and then nothing waits any more. -/
theorem compose_ensures {step : Step} {turn : TurnPlace} {after : Nat} {body : Text}
    {fillings : List (Text × Text)} (hturn : r.StandsNext step k turn after)
    (hbody : ∀ vars, step.HasBody vars (MergedPrompt.fill fillings (vars.substitute body)))
    (hs : r.InCycle k past s) (hlast : lastStep? past = some step) :
    Ensures r.Frames past s (r.compose body turn fillings) fun _ => r.InCycle after := by
  refine ensures_get_bind (ensures_set_bind (ensures_ask_bind fun _ => ⟨?_, ensures_pure ?_⟩))
  · obtain ⟨f, hframe, hsettings, hvars, hcycle, hcontext⟩ := hs.exists_frame
    refine ⟨hs.help, f, step, _, hframe, hlast, hbody f.vars, ?_, ?_⟩
    · rw [← f.composeResolved_context]
      obtain ⟨settings, vars, cycle, context⟩ := f
      subst hsettings hvars hcycle hcontext
      rfl
    · intro k' total hplace
      cases hturn with
      | inBlock => cases hplace
      | among hstep =>
        cases hplace
        exact ⟨hs.turns.symm, rfl, hstep⟩
  · refine ⟨?_, hs.bounded, ?_, ?_, hs.context.append ⟨rfl, rfl, rfl⟩, ?_⟩
    · rw [begunCycles_append]
      exact (congrArg _ (List.append_nil _)).trans hs.begun
    · obtain ⟨fs, now, hfound, hvars⟩ := hs.vars
      exact ⟨fs, now, hfound.trans (List.prefix_append past _).isInfix, hvars⟩
    · rw [helpWaiting_snoc]
      rfl
    · rw [turnsComposed_snoc]
      cases hturn with
      | inBlock => exact hs.turns
      | among => exact congrArg (· + 1) hs.turns

/-- Help that is left for a prompt waits behind the help that waits already. -/
theorem leaveHelp_upholds (place : StepPlace) (topics : List Text) :
    Upholds r.Frames (r.InCycle k) (do
      note (.stepBegan place (.helpInline topics true))
      modify fun s => { s with pendingHelp := s.pendingHelp ++ [Help.render topics] }) := by
  intro past s hs
  refine ensures_ask_bind fun _ => ⟨trivial, ensures_modify ?_⟩
  refine ⟨?_, hs.bounded, ?_, ?_, hs.context.append ⟨rfl, rfl, rfl⟩, ?_⟩
  · rw [begunCycles_append]
    exact (congrArg _ (List.append_nil _)).trans hs.begun
  · obtain ⟨fs, now, hfound, hvars⟩ := hs.vars
    exact ⟨fs, now, hfound.trans (List.prefix_append past _).isInfix, hvars⟩
  · rw [helpWaiting_snoc, ← hs.help]
    rfl
  · rw [turnsComposed_snoc]
    exact hs.turns

theorem takesTurns_apart (place : StepPlace) : r.TakesTurns place fun _ a => Takes .apart a where
  toIsTrait := apart_isPath.isTrait
  exchanges prompt := exchange_apart prompt place
  compacts := takes_bind apart_isPath (apart_tends.liveSession r) fun _ => compactNow_apart _ place

/-- What a merged turn carries out leaves the step as the last that began. -/
theorem resolve_upholds {step : Step} (m : MergedPrompt) (place : StepPlace) :
    Upholds r.Frames (fun past t => r.InCycle k past t ∧ lastStep? past = some step)
      (r.resolve m place) := by
  have others : AsksOthers fun _ a =>
      Upholds r.Frames (fun past t => r.InCycle k past t ∧ lastStep? past = some step) a :=
    { upholds_isTrait _ _ with
      asks := fun {request} hq past s ⟨hs, hlast⟩ => ensures_ask fun answer => by
        obtain ⟨hx, hstep⟩ := Exchange.apart_of_quiet (x := ⟨request, answer⟩) hq
        refine ⟨.of_apart hx, hs.snoc hx, ?_⟩
        unfold lastStep?
        rwa [begunSteps_append, begunSteps, begunSteps, List.filterMap_cons_none hstep,
          List.filterMap_nil, List.append_nil]
      warns := fun _ past s ⟨hs, hlast⟩ =>
        ensures_modify ⟨hs.same ⟨rfl, rfl, rfl, rfl, rfl, rfl⟩, hlast⟩ }
  exact others.resolve r place m

/-- A turn of the agent is composed of the step's body where it stands. -/
theorem agentTurn_ensures {step : Step} {turn : TurnPlace} {after : Nat} (place : StepPlace)
    (hstep : step.isAgentTurn = true) (hturn : r.StandsNext step k turn after)
    (hs : r.InCycle k past s) :
    Ensures r.Frames past s (r.executeStep place turn step) fun _ => r.InCycle after := by
  have sends (prompt : Text) : Upholds r.Frames (r.InCycle after) (r.sendTurn prompt place) :=
    upholds_of_apart ((takesTurns_apart place).sendTurn prompt)
  cases step with
  | prompt text =>
    refine ensures_ask_bind fun _ => ⟨trivial, ?_⟩
    refine ensures_bind _ (compose_ensures hturn (fun vars => ?_) (hs.snoc rfl)
      (lastStep?_began _ _ _ _)) fun prompt past t ht => sends prompt past t ht
    exact MergedPrompt.fill_nil _
  | merged m =>
    refine ensures_ask_bind fun _ => ⟨trivial, ?_⟩
    refine ensures_bind _ (resolve_upholds m place _ s ⟨hs.snoc rfl, lastStep?_began _ _ _ _⟩)
      fun outputs past t ⟨ht, hlast⟩ => ?_
    refine ensures_bind _ (compose_ensures hturn (fun vars => ⟨outputs, rfl⟩) ht hlast)
      fun prompt past t ht => sends prompt past t ht
  | _ => cases hstep

/-- The steps at every place keep the frame of the cycle, but those that are turns of their own. -/
theorem framed_carries (place : StepPlace) :
    r.CarriesTurns place fun _ a => Upholds r.Frames (r.InCycle k) a where
  toIsTrait := upholds_isTrait _ _
  asks hq := upholds_of_apart (apart_ask fun _ => (Exchange.apart_of_quiet hq).1)
  begins hhelp _ := upholds_of_apart (apart_ask fun _ => congrArg not hhelp)
  warns _ := upholds_of_apart (apart_modify fun _ => ⟨rfl, rfl, rfl, rfl, rfl, rfl⟩)
  saves _ := upholds_of_apart (apart_modify fun _ => ⟨rfl, rfl, rfl, rfl, rfl, rfl⟩)
  helpWaits := leaveHelp_upholds place
  renews := upholds_of_apart (takes_bind apart_isPath (apart_ask fun _ => rfl) fun _ =>
    takes_bind apart_isPath apart_tends.endSession fun _ =>
      takes_discard apart_isPath (apart_tends.openSession r))
  sends prompt := upholds_of_apart ((takesTurns_apart place).sendTurn prompt)
  compactSteps _ := upholds_of_apart (takes_bind apart_isPath (apart_ask fun _ => rfl) fun _ =>
    (takesTurns_apart place).compactStep)
  agentTurns hstep _ _ hs := agentTurn_ensures place hstep .inBlock hs

/-- The turns that are left after a step. -/
theorem drop_turns {step : Step} {rest : List Step}
    (h : r.turns.drop k = (step :: rest).filter Step.isAgentTurn) (hk : k ≤ r.turns.length) :
    let next := if step.isAgentTurn then k + 1 else k
    r.turns.drop next = rest.filter Step.isAgentTurn ∧ next ≤ r.turns.length := by
  dsimp only
  split
  · next hstep =>
    rw [List.filter_cons_of_pos hstep] at h
    refine ⟨by rw [← List.drop_drop, h, List.drop_one, List.tail_cons], ?_⟩
    by_contra hlt
    rw [List.drop_of_length_le (by omega)] at h
    cases h
  · next hstep =>
    rw [List.filter_cons_of_neg hstep] at h
    exact ⟨h, hk⟩

/-- Steps in a row keep the frame, compose their turns, and leave no help for the next cycle. -/
theorem executeFrom_ensures (index cycle : Nat) {k : Nat} {steps : List Step}
    (hsteps : r.turns.drop k = steps.filter Step.isAgentTurn) (hk : k ≤ r.turns.length)
    (hs : r.InCycle k past s) :
    Ensures r.Frames past s (r.executeFrom index k steps) fun _ => r.Ready cycle := by
  induction steps generalizing index k past s with
  | nil =>
    refine ensures_modify ⟨?_, rfl, hs.context, fun _ => ?_⟩
    · obtain ⟨fs, now, hfound, hvars⟩ := hs.vars
      refine ⟨fs, now, hfound, fun n => ?_⟩
      exact (congrArg (·.setCycle n r.settings.cycles) hvars).trans
        (Variables.setCycle_setCycle _ _ _ _)
    · have hle := List.drop_eq_nil_iff.mp hsteps
      exact hs.turns.trans (Nat.le_antisymm hk hle)
  | cons step rest ih =>
    refine ensures_get_bind ?_
    refine ensures_bind (fun _ => r.InCycle (if step.isAgentTurn then k + 1 else k)) ?_
      fun _ past t ht => ?_
    · cases hstep : step.isAgentTurn with
      | true =>
        refine agentTurn_ensures _ hstep (.among ?_) hs
        rw [← List.head?_drop, hsteps, List.filter_cons_of_pos hstep]
        rfl
      | false =>
        refine (framed_carries _).executeStep step (fun hturn => ?_) past s hs
        cases hstep.symm.trans hturn
    · have gate := (upholds_isTrait r.Frames _).stopAfter r index past t ht
      refine ensures_bind _ gate fun _ past u hu => ?_
      have hrest := drop_turns hsteps hk
      exact ih (index + 1) hrest.1 hrest.2 hu

/-! ## Loading -/

/-- The tracker looks up what the conversation does, and holds nothing yet. -/
def IsUnloaded (r : Run) (t : ContextTracker) : Prop :=
  ∃ empty, ContextTracker.ofSettings r.settings r.cwd r.workflowDir
    RenderedWorkflow.defaultMaxTokens = .ok empty ∧ t.SameFiles empty

theorem loads_of_load {t : ContextTracker} (ht : r.IsUnloaded t) {missing : List Text}
    (hload : (t.load fs r.settings r.settings.isLenient).2 = .ok missing) :
    ∃ loaded, r.Loads fs loaded ∧
      (t.load fs r.settings r.settings.isLenient).1.SameFiles loaded := by
  obtain ⟨empty, hempty, hsame⟩ := ht
  have hnone := (ContextTracker.ofSettings_holdsNothing hempty).files
  obtain ⟨e, he, -⟩ | ⟨_, -, hloaded, hsame⟩ :=
    hsame.load_cases hnone fs r.settings r.settings.isLenient
  · cases he.symm.trans hload
  · exact ⟨_, RenderedWorkflow.loadContext_of_ok hempty hloaded, hsame⟩

theorem Loads.isUnloaded (h : r.Loads fs loaded) {t : ContextTracker} (ht : t.SameFiles loaded) :
    r.IsUnloaded t.clearFiles := by
  obtain ⟨empty, hempty, h⟩ := exists_of_bind_ok h
  obtain ⟨missing, -, h⟩ := exists_of_bind_ok h
  obtain rfl := Except.ok.inj h
  have hgrows := ContextTracker.grows_load empty fs r.settings r.settings.isLenient
  exact ⟨empty, hempty, ht.scope.trans hgrows.scope_eq, ht.filter.trans hgrows.filter_eq,
    (ContextTracker.ofSettings_holdsNothing hempty).files.symm⟩

/-- The context is loaded once more, or for the first time. -/
theorem loadContext_ensures :
    Ensures r.Frames past s r.loadContext fun _ past' t =>
      ∃ files tracker, past' = past ++ [⟨.files, files⟩] ∧ t = { s with tracker } ∧
        (r.IsUnloaded s.tracker → r.HasContext past' t) := by
  refine ensures_ask_bind fun files => ⟨trivial, ensures_get_bind (ensures_set_bind ?_)⟩
  refine ensures_orContextFailure fun missing hmissing => ⟨files, _, rfl, rfl, fun hunloaded => ?_⟩
  obtain ⟨loaded, hloaded, hsame⟩ := loads_of_load hunloaded hmissing
  exact ⟨files, loaded, List.mem_append_right past List.mem_cons_self, hloaded, hsame⟩

/-- In fresh mode the files are forgotten between cycles, and found again. -/
theorem reload_ensures (hs : r.InCycle k past s) :
    Ensures r.Frames past { s with tracker := s.tracker.clearFiles } r.loadContext
      fun _ => r.InCycle k := by
  refine loadContext_ensures.imp fun _ past' t ⟨files, tracker, hpast, ht, hload⟩ => ?_
  subst hpast ht
  obtain ⟨_, loaded, -, hloaded, hsame⟩ := hs.context
  have hstill := hs.snoc (x := ⟨.files, files⟩) rfl
  exact { hstill with context := hload (hloaded.isUnloaded hsame) }

theorem beginCycle_upholds : Upholds r.Frames (r.InCycle k) r.beginCycle := by
  have live : Takes .apart (discard r.liveSession) :=
    takes_discard apart_isPath (apart_tends.liveSession r)
  have opens : Takes .apart (discard r.openSession >>= fun _ => discard r.liveSession) :=
    takes_bind apart_isPath (takes_discard apart_isPath (apart_tends.openSession r)) fun _ => live
  intro past s hs
  refine ensures_get_bind ?_
  dsimp only
  split
  · refine ensures_bind _ (upholds_of_apart apart_tends.endSession past s hs) fun _ past t ht => ?_
    split
    · refine ensures_modify_bind ?_
      refine ensures_bind (fun _ => r.InCycle k) (ensures_discard (reload_ensures ht)) ?_
      exact fun _ past u hu => upholds_of_apart opens past u hu
    · exact upholds_of_apart opens past t ht
  · split
    · split
      · exact upholds_of_apart
          (takes_bind apart_isPath (compactNow_apart _ _) fun _ => live) past s hs
      · exact upholds_of_apart live past s hs
    · exact upholds_of_apart live past s hs
  · exact upholds_of_apart live past s hs

/-! ## Cycles -/

theorem startCycle_ensures {cycle : Nat} (hcycle : cycle < r.settings.cycles)
    (hs : r.Ready cycle past s) :
    Ensures r.Frames past s (r.startCycle cycle) fun _ => r.InCycle 0 := by
  refine ensures_modify_bind (ensures_ask_bind fun _ => ⟨hs.turns, ?_⟩)
  refine beginCycle_upholds _ _ ⟨?_, hcycle, ?_, ?_, hs.context.append ⟨rfl, rfl, rfl⟩, ?_⟩
  · rw [begunCycles_append]
    exact List.getLast?_concat
  · obtain ⟨fs, now, hfound, hvars⟩ := hs.vars
    exact ⟨fs, now, hfound.trans (List.prefix_append past _).isInfix, hvars _⟩
  · rw [helpWaiting_snoc]
    exact hs.help
  · rw [turnsComposed_snoc]
    rfl

/-- The cycles of a run compose their prompts each with its own frame. -/
theorem executeCycles_ensures {left cycle : Nat} (hleft : cycle + left ≤ r.settings.cycles)
    (hs : r.Ready cycle past s) :
    Ensures r.Frames past s (r.executeCycles left cycle) fun _ => r.Ready (cycle + left) := by
  induction left generalizing cycle past s with
  | zero => exact ensures_pure hs
  | succ left ih =>
    refine ensures_bind (fun _ => r.Ready (cycle + 1)) ?_ fun _ past t ht => ?_
    · rw [executeCycle_eq]
      refine ensures_bind _ (startCycle_ensures (by omega) hs) fun _ past t ht => ?_
      refine ensures_bind _ (executeFrom_ensures 0 (cycle + 1) rfl (Nat.zero_le _) ht)
        fun _ past u hu => ensures_modify ⟨hu.vars, hu.help, hu.context, hu.turns⟩
    · have hrest := ih (by omega) ht
      rwa [Nat.add_right_comm] at hrest

/-! ## Whole runs -/

/-- The preconditions are that the context can be loaded, among others. -/
theorem checkPreconditions_ensures (hunloaded : r.IsUnloaded s.tracker)
    (hhelp : s.pendingHelp = []) :
    Ensures r.Frames past s r.checkPreconditions
      fun _ past t => t.pendingHelp = [] ∧ r.HasContext past t := by
  -- Warnings before and after the loading change nothing that counts here.
  have warned (issues : List (Text × RequirementIssue)) (f : Text × RequirementIssue → Text)
      (g : Text → Text) (past : List Exchange) :
      Ensures r.Frames past s (issues.forM (fun i => warn (f i)) >>= fun _ =>
        r.loadContext >>= fun missing => missing.forM fun pattern => warn (g pattern))
        fun _ past t => t.pendingHelp = [] ∧ r.HasContext past t := by
    have before (i : Text × RequirementIssue) : Upholds r.Frames
        (fun _ t => r.IsUnloaded t.tracker ∧ t.pendingHelp = []) (warn (f i)) :=
      fun _ _ ht => ensures_modify ht
    have after (pattern : Text) : Upholds r.Frames
        (fun past t => t.pendingHelp = [] ∧ r.HasContext past t) (warn (g pattern)) :=
      fun _ _ ht => ensures_modify ht
    have warns := (upholds_isTrait _ _).forM before issues
    refine ensures_bind _ (warns past s ⟨hunloaded, hhelp⟩) fun _ past t ⟨hunloaded, hhelp⟩ => ?_
    refine ensures_bind (fun _ past t => t.pendingHelp = [] ∧ r.HasContext past t) ?_
      fun missing past u hu => ?_
    · refine loadContext_ensures.imp fun _ past' u ⟨files, tracker, hpast, hu, hload⟩ => ?_
      subst hpast hu
      exact ⟨hhelp, hload hunloaded⟩
    · exact (upholds_isTrait _ _).forM after missing past u hu
  have refused {failure : Failure} {f : Unit → Action Unit} {past : List Exchange} :
      Ensures r.Frames past s (Action.fail failure >>= f)
        fun _ past t => t.pendingHelp = [] ∧ r.HasContext past t :=
    ensures_bind (fun _ _ _ => False) ensures_throw fun _ _ _ hfalse => hfalse.elim
  refine ensures_ask_bind fun files => ⟨trivial, ensures_get_bind ?_⟩
  dsimp only
  split
  · exact refused
  · split
    · exact refused
    · exact warned _ _ _ _

theorem opening_ensures (hunloaded : r.IsUnloaded s.tracker) (hhelp : s.pendingHelp = []) :
    Ensures r.Frames past s r.opening fun _ => r.Ready 0 := by
  refine ensures_bind _ (checkPreconditions_ensures hunloaded hhelp)
    fun _ past t ⟨hhelp, hcontext⟩ => ?_
  refine ensures_ask_bind fun fs => ⟨trivial, ensures_ask_bind fun now => ⟨trivial, ?_⟩⟩
  refine ensures_modify_bind (ensures_ask_bind fun answer => ⟨trivial, ?_⟩)
  refine ensures_orAgentFailure_bind fun _ _ => ensures_modify ⟨⟨fs, now, ?_, fun _ => rfl⟩, hhelp,
    ?_, fun h => absurd h (Nat.lt_irrefl 0)⟩
  · exact ⟨past, [⟨.start, answer⟩], by simp only [List.append_assoc, List.cons_append,
      List.nil_append]⟩
  · exact ((hcontext.append ⟨rfl, rfl, rfl⟩).append ⟨rfl, rfl, rfl⟩).append ⟨rfl, rfl, rfl⟩

theorem shutDown_apart : Takes .apart shutDown :=
  apart_isPath.isTrait.shutDown (fun _ => apart_ask fun _ => rfl) (apart_ask fun _ => rfl)
    (apart_modify fun _ => ⟨rfl, rfl, rfl, rfl, rfl, rfl⟩)

theorem turnsComposed_of_apart (hxs : ∀ x ∈ xs, x.isApart = true) :
    turnsComposed (past ++ xs) = turnsComposed past := by
  induction xs generalizing past with
  | nil => rw [List.append_nil]
  | cons x xs ih =>
    obtain ⟨hx, hxs⟩ := List.forall_mem_cons.mp hxs
    have hrest : turnsComposed (past ++ [x] ++ xs) = turnsComposed (past ++ [x]) := ih hxs
    rwa [List.append_assoc, turnsComposed_snoc, Exchange.turnsAfter_of_apart hx] at hrest

/-- In every run each prompt is composed in the frame of its cycle, with the help that waits for it.
Where the run completes, so did its last cycle. -/
theorem frames_along (hunloaded : r.IsUnloaded s.tracker) (hhelp : s.pendingHelp = [])
    {result : Except RunFailure RunReport} (hr : (r.dialogue s).Reaches xs result) :
    Along r.Frames [] xs ∧ (completes result = true → turnsComposed xs = r.turns.length) := by
  obtain ⟨ys, zs, ended, t, closed, last, rfl, hexecute, hshut, rfl⟩ := reaches_dialogue_iff.mp hr
  have all : Ensures r.Frames [] s r.execute fun _ => r.Ready r.settings.cycles := by
    rw [execute_eq_stopAt]
    refine ensures_bind _ (opening_ensures hunloaded hhelp) fun _ past t ht => ?_
    have gate := r.stopAt_isTrait (upholds_isTrait r.Frames (r.Ready 0)) 0
    refine ensures_bind _ (gate past t ht) fun _ past t ht => ?_
    have hcycles := executeCycles_ensures (Nat.le_of_eq (Nat.zero_add _)) ht
    rwa [Nat.zero_add] at hcycles
  have hclosing := (hshut.takes shutDown_apart).1.1
  refine ⟨(all ys ended t hexecute).1.append (Frames.along hclosing), fun hdone => ?_⟩
  rw [completes_answer hexecute] at hdone
  match ended with
  | .ok () =>
    have hready := (all ys _ t hexecute).2 () rfl
    rw [turnsComposed_of_apart hclosing]
    exact hready.turns (Nat.lt_of_lt_of_le Nat.zero_lt_one (Nat.le_max_left 1 _))
  | .error _ => cases hdone

end

/-! ## Files and time that stay as they are -/

section

variable (r : Run) (fs : FileSystem) (now : Variables.Occasion)

/-- A prompt of a turn is composed with the frame of its cycle and the help that waits for it. -/
def Assembles (past : List Exchange) : Exchange → Prop
  | ⟨.note (.composed (.among k total) pending prompt), _⟩ => FoundAt fs now past →
    pending = helpWaiting past ∧ ∃ loaded cycle, r.Loads fs loaded ∧
      (begunCycles past).getLast? = some cycle ∧ cycle < r.settings.cycles ∧
      ∀ text, r.turns[k]? = some (.prompt text) → total = r.turns.length ∧
        prompt = (r.frame fs now loaded cycle).compose pending text (.among k total)
  | _ => True

variable {r fs now} {past xs : List Exchange} {s : RunState} {x : Exchange}

theorem Frames.assembles (h : r.Frames past x) : r.Assembles fs now past x := by
  obtain ⟨request, answer⟩ := x
  match request with
  | .note (.composed (.among k total) pending prompt) =>
    intro hfound
    obtain ⟨hpending, f, step, body, hframe, hlast, hbody, hprompt, hplace⟩ := h
    obtain ⟨fs', now', files, loaded, cycle, hstart, hfiles, hloaded, hbegun, hcycle, rfl⟩ := hframe
    obtain rfl : files = fs := hfound _ hfiles
    obtain rfl : fs' = files := hfound _ (hstart.subset List.mem_cons_self)
    obtain rfl : now' = now :=
      hfound _ (hstart.subset (List.mem_cons_of_mem _ List.mem_cons_self))
    refine ⟨hpending, loaded, cycle, hloaded, hbegun, hcycle, fun text htext => ?_⟩
    obtain ⟨-, htotal, hturn⟩ := hplace k total rfl
    obtain rfl : step = .prompt text := Option.some.inj (hturn.symm.trans htext)
    obtain rfl := hbody
    exact ⟨htotal, hprompt⟩
  | .note (.composed .inBlock _ _) | .note (.cycleBegan _) | .note (.stepBegan ..)
  | .note (.sending ..) | .start | .stop | .create _ | .send .. | .stats _ | .compact _
  | .destroy _ | .close _ | .host .. | .command .. | .files | .save .. | .write .. | .stamp
  | .now | .clock => trivial

/-- In every run each prompt of a turn is composed with the frame of its cycle and the help that
waits for it. -/
theorem assembles_along (hunloaded : r.IsUnloaded s.tracker) (hhelp : s.pendingHelp = [])
    {result : Except RunFailure RunReport} (hr : (r.dialogue s).Reaches xs result) :
    Along (r.Assembles fs now) [] xs :=
  (frames_along hunloaded hhelp hr).1.imp fun _ _ => Frames.assembles

end

theorem prepare_isUnloaded {c : Conversation} {o : RunOptions} {r : Run} {s : RunState}
    (h : prepare c o = .ok (r, s)) :
    r.cwd = o.cwd.within c.settings.cwd ∧ r.IsUnloaded s.tracker ∧ s.pendingHelp = [] := by
  obtain ⟨tracker, htracker, rfl, rfl⟩ := exists_of_prepare h
  exact ⟨rfl, ⟨_, ContextTracker.ofSettings_of_ok htracker _, rfl, rfl, rfl⟩, rfl⟩

end Run

/-- Files that stay as they are, and an agent that says of every prompt that it is done. -/
def stillAnswer (fs : FileSystem) : (request : Request) → request.Answer
  | .start | .stop | .compact _ | .destroy _ | .close _ => .ok ()
  | .create _ => .ok "s1".toList
  | .send .. => .ok ⟨"done".toList, none⟩
  | .stats _ => .ok {}
  | .host .. | .command .. => .error .empty
  | .files => fs
  | .save .. => .error (.unsupportedVersion [])
  | .write .. => .ok ()
  | .stamp => ⟨[], []⟩
  | .now => ⟨⟨[], []⟩, fun _ _ => {}⟩
  | .clock => .ofSeconds 0
  | .note _ => ()

/-- An agent may answer briefly, and the same many times. -/
def patientOptions : RunOptions :=
  { cwd := "w", detector := { identicalThreshold := 10, minResponseLength := 0 } }

end ConversationFlow

import ConversationFlow.Proofs.Running.Reaching
import ConversationFlow.Proofs.Running.Traits

/-!
# Courses of actions

A course says how exchanges lead from one state of a run to another. That actions take it is a
trait: if the few actions that open, end and use sessions and compose prompts take it, and requests
to others than the agent keep to it, then every step of every conversation takes it, whatever its
blocks, retries and checks (`Course.Allows.carries`).
Of how an action ends, a course says that it does not end the run as completed: only
`Run.dialogue` says so, where nothing ended the run.
-/

namespace ConversationFlow

/-- A run that ended early did not complete. -/
def Ending.IsEarly : Ending → Prop
  | .stopped outcome => outcome.isCompleted = false
  | .failed _ => True

/-- A relation of a state, the exchanges that follow, and the state then. -/
abbrev Course := RunState → List Exchange → RunState → Prop

namespace Action

variable {β γ : Type}

/-- Where the action ends the run, it does not end it as completed. -/
def EndsEarly (a : Action β) : Prop :=
  ∀ s xs ending after, Reaches a s xs (.error ending) after → ending.IsEarly

/-- The result and the state then are as said, unless the run ended early. -/
def Meets (post : β → RunState → Prop) (t : RunState) : Except Ending β → Prop
  | .ok b => post b t
  | .error ending => ending.IsEarly

/-- What comes of the action from a state is on the course, and what it results in is as said. -/
def Gives (R : Course) (s : RunState) (a : Action β) (post : β → RunState → Prop) : Prop :=
  ∀ xs result t, Reaches a s xs result t → R s xs t ∧ Meets post t result

/-- Whatever comes of the action, its exchanges lead from state to state on the course. -/
def Takes (R : Course) (a : Action β) : Prop := ∀ s, Gives R s a fun _ _ => True

theorem reaches_pure_iff {b : β} {s t : RunState} {xs : List Exchange}
    {result : Except Ending β} :
    Reaches (pure b : Action β) s xs result t ↔ xs = [] ∧ result = .ok b ∧ t = s := by
  unfold Reaches
  change Dialogue.Reaches (.done (Except.ok b, s)) _ _ ↔ _
  rw [Dialogue.reaches_done_iff, Prod.mk.injEq]

theorem reaches_ask_iff {request : Request} {s t : RunState} {xs : List Exchange}
    {result : Except Ending request.Answer} :
    Reaches (ask request) s xs result t ↔
      ∃ answer, xs = [⟨request, answer⟩] ∧ result = .ok answer ∧ t = s := by
  constructor
  · intro h
    obtain _ | ⟨answer, h⟩ := h
    cases h
    exact ⟨answer, rfl, rfl, rfl⟩
  · rintro ⟨answer, rfl, rfl, rfl⟩
    exact .ask answer (.done _)

theorem reaches_modify_iff {f : RunState → RunState} {s t : RunState} {xs : List Exchange}
    {result : Except Ending Unit} :
    Reaches (modify f : Action Unit) s xs result t ↔ xs = [] ∧ result = .ok () ∧ t = f s := by
  unfold Reaches
  change Dialogue.Reaches (.done (Except.ok (), f s)) _ _ ↔ _
  rw [Dialogue.reaches_done_iff, Prod.mk.injEq]

/-- The state is known to what follows. -/
theorem reaches_get_bind_iff {f : RunState → Action γ} {s t : RunState} {xs : List Exchange}
    {result : Except Ending γ} :
    Reaches (get >>= f) s xs result t ↔ Reaches (f s) s xs result t := Iff.rfl

theorem reaches_modify_bind_iff {g : RunState → RunState} {f : Unit → Action γ} {s t : RunState}
    {xs : List Exchange} {result : Except Ending γ} :
    Reaches (modify g >>= f) s xs result t ↔ Reaches (f ()) (g s) xs result t := Iff.rfl

theorem reaches_set_bind_iff {u : RunState} {f : PUnit → Action γ} {s t : RunState}
    {xs : List Exchange} {result : Except Ending γ} :
    Reaches (set u >>= f) s xs result t ↔ Reaches (f ⟨⟩) u xs result t := Iff.rfl

/-- An answer that is no error is gone on with. -/
theorem reaches_orAgentFailure_ok_iff {place : Option StepPlace} {b : β} {f : β → Action γ}
    {s t : RunState} {xs : List Exchange} {result : Except Ending γ} :
    Reaches (orAgentFailure place (.ok b) >>= f) s xs result t ↔ Reaches (f b) s xs result t :=
  Iff.rfl

/-- And an error ends the run. -/
theorem reaches_orAgentFailure_bind_iff {place : Option StepPlace} {answer : Except AgentError β}
    {f : β → Action γ} {s t : RunState} {xs : List Exchange} {result : Except Ending γ} :
    Reaches (orAgentFailure place answer >>= f) s xs result t ↔
      (∃ b, answer = .ok b ∧ Reaches (f b) s xs result t) ∨
      ∃ e, answer = .error e ∧ xs = [] ∧ result = .error (.failed (.ofAgent place e)) ∧ t = s := by
  cases answer with
  | ok b =>
    rw [reaches_orAgentFailure_ok_iff]
    constructor
    · exact fun h => .inl ⟨b, rfl, h⟩
    · rintro (⟨_, hb, h⟩ | ⟨_, he, -⟩)
      · cases hb
        exact h
      · cases he
  | error e =>
    have hthrow : Reaches (orAgentFailure place (.error e) >>= f) s xs result t ↔
        xs = [] ∧ result = .error (.failed (.ofAgent place e)) ∧ t = s := reaches_throw_iff
    rw [hthrow]
    constructor
    · exact fun h => .inr ⟨e, rfl, h⟩
    · rintro (⟨_, hb, -⟩ | ⟨_, he, h⟩)
      · cases hb
      · cases he
        exact h

/-- A request and its answer come first. -/
theorem reaches_ask_bind_iff {request : Request} {f : request.Answer → Action γ}
    {s t : RunState} {xs : List Exchange} {result : Except Ending γ} :
    Reaches (ask request >>= f) s xs result t ↔
      ∃ answer ys, xs = ⟨request, answer⟩ :: ys ∧ Reaches (f answer) s ys result t := by
  constructor
  · intro h
    obtain _ | ⟨answer, h⟩ := h
    exact ⟨answer, _, rfl, h⟩
  · rintro ⟨answer, ys, rfl, h⟩
    exact .ask answer h

end Action

/-- A course that may be left at any state, and gone on with from there. -/
structure Course.IsPath (R : Course) : Prop where
  rest : ∀ s, R s [] s
  join : ∀ {s xs t ys u}, R s xs t → R t ys u → R s (xs ++ ys) u

/-- The course that leads anywhere. -/
def Course.any : Course := fun _ _ _ => True

theorem Course.any_isPath : Course.any.IsPath := ⟨fun _ => trivial, fun _ _ => trivial⟩

namespace Action

open Course

variable {β γ : Type} {R : Course} {s : RunState} {a : Action β} {post : β → RunState → Prop}

/-! ## From one state -/

theorem Gives.weaken {post' : β → RunState → Prop} (h : Gives R s a post)
    (hp : ∀ b t, post b t → post' b t) : Gives R s a post' := by
  intro xs result t hr
  obtain ⟨hcourse, hmeets⟩ := h xs result t hr
  refine ⟨hcourse, ?_⟩
  cases result with
  | ok b => exact hp b t hmeets
  | error e => exact hmeets

/-- The course was taken up to the state in which something is given. -/
theorem Gives.along (h : Gives R s a post) :
    Gives R s a fun b t => post b t ∧ ∃ xs, R s xs t := by
  intro xs result t hr
  obtain ⟨hcourse, hmeets⟩ := h xs result t hr
  refine ⟨hcourse, ?_⟩
  cases result with
  | ok b => exact ⟨hmeets, xs, hcourse⟩
  | error e => exact hmeets

theorem gives_get_bind {f : RunState → Action β} (h : Gives R s (f s) post) :
    Gives R s (get >>= f) post := by
  intro xs result t hr
  exact h xs result t (reaches_get_bind_iff.mp hr)

theorem gives_modify {f : RunState → RunState} {post : Unit → RunState → Prop}
    (h : R s [] (f s)) (hp : post () (f s)) : Gives R s (modify f) post := by
  intro xs result t hr
  obtain ⟨rfl, rfl, rfl⟩ := reaches_modify_iff.mp hr
  exact ⟨h, hp⟩

theorem gives_set {u : RunState} {post : Unit → RunState → Prop} (h : R s [] u)
    (hp : post () u) : Gives R s (set u) post := gives_modify (f := fun _ => u) h hp

theorem gives_ask {request : Request} {post : request.Answer → RunState → Prop}
    (h : ∀ answer, R s [⟨request, answer⟩] s ∧ post answer s) :
    Gives R s (ask request) post := by
  intro xs result t hr
  obtain ⟨answer, rfl, rfl, rfl⟩ := reaches_ask_iff.mp hr
  exact h answer

section

variable (hR : R.IsPath)
include hR

theorem gives_pure {b : β} (h : post b s) : Gives R s (pure b) post := by
  intro xs result t hr
  obtain ⟨rfl, rfl, rfl⟩ := reaches_pure_iff.mp hr
  exact ⟨hR.rest t, h⟩

theorem gives_throw {ending : Ending} (h : ending.IsEarly) : Gives R s (throw ending) post := by
  intro xs result t hr
  obtain ⟨rfl, rfl, rfl⟩ := reaches_throw_iff.mp hr
  exact ⟨hR.rest t, h⟩

theorem gives_bind (mid : γ → RunState → Prop) {a : Action γ} {f : γ → Action β}
    (ha : Gives R s a mid) (hf : ∀ c t, mid c t → Gives R t (f c) post) :
    Gives R s (a >>= f) post := by
  intro xs result t hr
  rcases reaches_bind_iff.mp hr with ⟨ys, zs, c, u, rfl, hy, hz⟩ | ⟨e, rfl, he⟩
  · obtain ⟨hsu, hmid⟩ := ha ys _ u hy
    obtain ⟨hut, hpost⟩ := hf c u hmid zs result t hz
    exact ⟨hR.join hsu hut, hpost⟩
  · exact ha xs _ t he

theorem gives_orAgentFailure {place : Option StepPlace} {answer : Except AgentError β}
    (h : ∀ b, answer = .ok b → post b s) : Gives R s (orAgentFailure place answer) post := by
  cases answer with
  | ok b => exact gives_pure hR (h b rfl)
  | error e => exact gives_throw hR trivial

theorem gives_orContextFailure {answer : Except ContextError β}
    (h : ∀ b, answer = .ok b → post b s) : Gives R s (orContextFailure answer) post := by
  cases answer with
  | ok b => exact gives_pure hR (h b rfl)
  | error e => exact gives_throw hR trivial

end

/-! ## From every state -/

theorem Takes.endsEarly (h : Takes R a) : EndsEarly a :=
  fun s xs _ after hr => (h s xs _ after hr).2

/-- What came of an action is on a course that the action takes. -/
theorem Reaches.takes {xs : List Exchange} {result : Except Ending β} {t : RunState}
    (hr : Reaches a s xs result t) (h : Takes R a) : R s xs t ∧ Meets (fun _ _ => True) t result :=
  h s xs result t hr

theorem Takes.any (h : Takes R a) : Takes .any a :=
  fun s xs result t hr => ⟨trivial, (h s xs result t hr).2⟩

theorem takes_of_gives (post : RunState → β → RunState → Prop)
    (h : ∀ s, Gives R s a (post s)) : Takes R a :=
  fun s => (h s).weaken fun _ _ _ => trivial

theorem takes_get_bind {f : RunState → Action γ} (hf : ∀ s, Takes R (f s)) :
    Takes R (get >>= f) :=
  fun s => gives_get_bind (hf s s)

theorem takes_modify {f : RunState → RunState} (h : ∀ s, R s [] (f s)) :
    Takes R (modify f : Action Unit) :=
  fun s => gives_modify (h s) trivial

theorem takes_ask {request : Request} (h : ∀ answer s, R s [⟨request, answer⟩] s) :
    Takes R (ask request) :=
  fun s => gives_ask fun answer => ⟨h answer s, trivial⟩

section

variable (hR : R.IsPath)
include hR

theorem takes_pure (b : β) : Takes R (pure b : Action β) := fun _ => gives_pure hR trivial

theorem takes_bind {f : β → Action γ} (ha : Takes R a) (hf : ∀ b, Takes R (f b)) :
    Takes R (a >>= f) :=
  fun s => gives_bind hR _ (ha s) fun b t _ => hf b t

theorem takes_fail (failure : Failure) : Takes R (fail failure : Action β) :=
  fun _ => gives_throw hR trivial

theorem takes_stop {outcome : RunOutcome} (h : outcome.isCompleted = false) :
    Takes R (stop outcome : Action β) :=
  fun _ => gives_throw hR h

theorem takes_orAgentFailure (place : Option StepPlace) (answer : Except AgentError β) :
    Takes R (orAgentFailure place answer) :=
  fun _ => gives_orAgentFailure hR fun _ _ => trivial

theorem takes_orContextFailure (answer : Except ContextError β) :
    Takes R (orContextFailure answer) :=
  fun _ => gives_orContextFailure hR fun _ _ => trivial

theorem takes_discard (ha : Takes R a) : Takes R (discard a) :=
  takes_bind hR ha fun _ => takes_pure hR _

end

end Action

section

open ConversationFlow.Action

variable {R : Course} (hR : R.IsPath)
  (keeps : ∀ (s : RunState) owesInstruction detector, R s [] { s with owesInstruction, detector })
include hR keeps

/-- What is said of the stop file has no part in a course that leaves the session aside. -/
theorem Course.IsPath.instructed (prompt : Text) : Takes R (Run.instructed prompt) := by
  intro s
  refine gives_get_bind ?_
  split
  · exact gives_bind hR (fun _ _ => True) (gives_set (keeps s _ _) trivial) fun _ _ _ =>
      gives_pure hR trivial
  · exact gives_pure hR trivial

/-- And neither has what is made of a response. -/
theorem Course.IsPath.judge (asks : Takes R (ask .files)) (response : Response) (toolCalls : Nat) :
    Takes R (Run.judge response toolCalls) := by
  refine takes_bind hR asks fun files s => gives_get_bind ?_
  refine gives_bind hR (fun _ _ => True) (gives_set (keeps s _ _) trivial) fun _ t _ => ?_
  split
  · exact gives_pure hR trivial
  · refine gives_throw hR ?_
    split <;> rfl

/-- A prompt is exchanged on a course that sessions are tended on and the send and what is counted
of its response keep to. -/
theorem Course.IsPath.exchange {r : Run} {place : StepPlace}
    (tends : TendsSessions fun _ a => Takes R a) (asks : Takes R (ask .files))
    (notes : ∀ prompt, Takes R (note (.sending place prompt)))
    (sends : ∀ session sent streams, Takes R (ask (.send session sent streams)))
    (counts : ∀ (s : RunState) sent response report, report.warnings = s.report.warnings →
      R s [] { s with tracker := s.tracker.addTurn sent response, report }) (prompt : Text) :
    Takes R (r.exchange prompt place) := by
  refine takes_bind hR (tends.liveSession r) fun session => ?_
  refine takes_bind hR (hR.instructed keeps prompt) fun sent => ?_
  refine takes_bind hR (notes _) fun _ => takes_bind hR (sends _ _ _) fun answer => ?_
  refine takes_bind hR (takes_orAgentFailure hR _ _) fun response => ?_
  refine takes_bind hR (takes_modify fun s => counts s _ _ _ rfl) fun _ => ?_
  refine takes_bind hR (tends.asks trivial) fun stats => ?_
  exact takes_bind hR (tends.countTokens _) fun _ => hR.judge keeps asks response _

end

/-- The course is taken by what the steps at a place are made of: it is kept by requests that go
neither to the agent nor to an observer, by the beginning of a step and by what is only reported,
and the actions on sessions and the composing of prompts take it. -/
structure Course.Allows (R : Course) (r : Run) (place : StepPlace) : Prop extends R.IsPath where
  quiet : ∀ {request : Request}, request.IsQuiet → ∀ answer s, R s [⟨request, answer⟩] s
  begun : ∀ step answer s, R s [⟨.note (.stepBegan place step), answer⟩] s
  reported : ∀ (s : RunState) warnings checkpoints,
    R s [] { s with report := { s.report with warnings, checkpoints } }
  helpWaits : ∀ (s : RunState) help, R s [] { s with pendingHelp := s.pendingHelp ++ [help] }
  renews : Action.Takes R (do Run.endSession; discard r.openSession)
  exchanges : ∀ prompt, Action.Takes R (r.exchange prompt place)
  compacts : Action.Takes R (do Run.compactNow (← r.liveSession) place)
  composes : ∀ body turn fillings, Action.Takes R (r.compose body turn fillings)

section

open ConversationFlow.Action

variable {R : Course} {r : Run} {place : StepPlace}

theorem Course.IsPath.isTrait (h : R.IsPath) : IsTrait fun _ a => Takes R a where
  pure := takes_pure h
  bind := takes_bind h
  getBind := takes_get_bind
  fail := takes_fail h
  stop := takes_stop h

/-- The steps at a place take a course that is taken by what they are made of. -/
theorem Course.Allows.carries (h : R.Allows r place) : r.Carries place fun _ a => Takes R a where
  toIsTrait := h.toIsPath.isTrait
  asks hq := takes_ask (h.quiet hq)
  begins _ := takes_ask (h.begun _)
  warns _ := takes_modify fun s => h.reported s _ _
  saves _ := takes_modify fun s => h.reported s _ _
  helpWaits _ := takes_bind h.toIsPath (takes_ask (h.begun _)) fun _ =>
    takes_modify fun s => h.helpWaits s _
  renews := takes_bind h.toIsPath (takes_ask (h.begun _)) fun _ => h.renews
  exchanges := h.exchanges
  compacts := h.compacts
  composes body := h.composes body .inBlock

theorem Course.Allows.executeStep (h : R.Allows r place) (turn : TurnPlace) (step : Step) :
    Takes R (r.executeStep place turn step) :=
  h.carries.executeStep step (Run.composes_of_all (fun body => h.composes body turn) step)

end

/-- What a cycle begins with. -/
def Run.startCycle (r : Run) (cycle : Nat) : Action Unit := do
  modify fun s => { s with
    cycle
    vars := s.vars.setCycle (cycle + 1) r.settings.cycles }
  Action.note (.cycleBegan cycle)
  r.beginCycle

/-- What a cycle consists of. -/
theorem Run.executeCycle_eq (r : Run) (cycle : Nat) :
    r.executeCycle cycle = (do
      r.startCycle cycle
      r.executeFrom 0 0 r.conversation.steps
      modify fun s => { s with
        report := { s.report with cyclesCompleted := s.report.cyclesCompleted + 1 } }) := by
  simp only [startCycle, bind_assoc]
  rfl

/-- The course is also taken between the steps and cycles of a run. -/
structure Course.AllowsCycles (R : Course) (r : Run) : Prop extends R.IsPath where
  steps : ∀ place, R.Allows r place
  begins : ∀ cycle, Action.Takes R (r.startCycle cycle)
  dropsHelp : ∀ s : RunState, R s [] { s with pendingHelp := [] }
  counts : ∀ s : RunState,
    R s [] { s with report := { s.report with cyclesCompleted := s.report.cyclesCompleted + 1 } }

namespace Course.AllowsCycles

open ConversationFlow.Action

variable {R : Course} {r : Run} (h : R.AllowsCycles r)
include h

theorem executeFrom (index turns : Nat) (steps : List Step) :
    Takes R (r.executeFrom index turns steps) :=
  Run.Carries.executeFrom (fun place => (h.steps place).carries) (h.steps ⟨0, 0⟩).composes
    (takes_modify h.dropsHelp) index turns steps

theorem executeCycle (cycle : Nat) : Takes R (r.executeCycle cycle) := by
  rw [Run.executeCycle_eq]
  refine takes_bind h.toIsPath (h.begins cycle) fun _ => ?_
  exact takes_bind h.toIsPath (h.executeFrom 0 0 _) fun _ => takes_modify h.counts

/-- All cycles of a run take the course. -/
theorem executeCycles (left cycle : Nat) : Takes R (r.executeCycles left cycle) := by
  induction left generalizing cycle with
  | zero => exact takes_pure h.toIsPath ()
  | succ left ih => exact takes_bind h.toIsPath (h.executeCycle cycle) fun _ => ih _

end Course.AllowsCycles

end ConversationFlow

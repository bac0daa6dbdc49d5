import ConversationFlow.Proofs.Merging.Points
import ConversationFlow.Proofs.Running.Sessions

/-!
# Human gates

A run looks for a human at two places: for a pause before the first step, and for a pause or
a consultation after each step. The points it can find there are its gates, and the first of
them ends every run that gets there, in the first cycle. A consultation that was declared
before any step is at neither place: it is no gate, and a run that has no other point goes on
to its last cycle. Nothing is assumed of the agent, the host or the commands.
-/

namespace ConversationFlow

/-- A point for a human at which runs stop. -/
structure Gate where
  point : HumanPoint
  isConsult : Bool

namespace Gate

/-- The number of steps of a cycle before the gate. -/
def stepsBefore (g : Gate) : Nat :=
  match g.point.afterStep with
  | none => 0
  | some i => i + 1

/-- What becomes of a run that gets there. -/
def outcome (g : Gate) : RunOutcome := .paused g.point.afterStep g.point.message g.isConsult

/-- The first of the gates with the fewest steps before them. -/
def firstOf : List Gate → Option Gate
  | [] => none
  | g :: rest =>
    match firstOf rest with
    | some h => if g.stepsBefore ≤ h.stepsBefore then some g else some h
    | none => some g

/-- The gate after a number of steps. -/
def after? (gates : List Gate) (steps : Nat) : Option Gate :=
  gates.find? fun g => g.stepsBefore == steps

theorem firstOf_eq_none_iff {gates : List Gate} : firstOf gates = none ↔ gates = [] := by
  cases gates with
  | nil => exact ⟨fun _ => rfl, fun _ => rfl⟩
  | cons g rest =>
    simp only [firstOf, reduceCtorEq, iff_false]
    split
    · split <;> exact nofun
    · exact nofun

theorem stepsBefore_le_of_firstOf {gates : List Gate} {g : Gate} (h : firstOf gates = some g) :
    ∀ k ∈ gates, g.stepsBefore ≤ k.stepsBefore := by
  induction gates generalizing g with
  | nil => cases h
  | cons first rest ih =>
    simp only [firstOf] at h
    split at h
    · next other ho =>
      have hrest := ih ho
      intro k hk
      split at h <;> cases h <;> rcases List.mem_cons.mp hk with rfl | hk
      · exact Nat.le_refl _
      · exact Nat.le_trans ‹_› (hrest k hk)
      · omega
      · exact hrest k hk
    · next ho =>
      cases h
      intro k hk
      rw [firstOf_eq_none_iff.mp ho] at hk
      obtain rfl := List.mem_singleton.mp hk
      exact Nat.le_refl _

/-- Where the first gate is, it is the one that is found. -/
theorem after_of_firstOf {gates : List Gate} {g : Gate} (h : firstOf gates = some g) :
    after? gates g.stepsBefore = some g := by
  induction gates generalizing g with
  | nil => cases h
  | cons first rest ih =>
    simp only [firstOf] at h
    unfold after?
    rw [List.find?_cons]
    split at h
    · next other ho =>
      split at h
      · cases h
        simp
      · cases h
        have hne : (first.stepsBefore == g.stepsBefore) = false := by
          rw [beq_eq_false_iff_ne]
          omega
        rw [hne]
        exact ih ho
    · cases h
      simp

/-- No gate is found before the first one. -/
theorem after_eq_none_of_lt {gates : List Gate} {g : Gate} (h : firstOf gates = some g) {n : Nat}
    (hn : n < g.stepsBefore) : after? gates n = none := by
  refine List.find?_eq_none.mpr fun k hk he => ?_
  have hle := stepsBefore_le_of_firstOf h k hk
  have heq : k.stepsBefore = n := by simpa using he
  omega

end Gate

/-- The gates of a conversation: its pauses, and its consultations after a step. -/
def Settings.gates (s : Settings) : List Gate :=
  s.pausePoints.map (⟨·, false⟩) ++
    (s.consultPoints.filter fun p => p.afterStep.isSome).map (⟨·, true⟩)

/-- There is a gate unless all points are consultations before the first step. -/
theorem Settings.gates_ne_nil_iff {s : Settings} :
    s.gates ≠ [] ↔ s.pausePoints ≠ [] ∨ ∃ p ∈ s.consultPoints, p.afterStep ≠ none := by
  unfold gates
  rw [ne_eq, List.append_eq_nil_iff, List.map_eq_nil_iff, List.map_eq_nil_iff,
    List.filter_eq_nil_iff, Classical.not_and_iff_not_or_not]
  simp only [Classical.not_forall, Classical.not_not, exists_prop, Option.isSome_iff_ne_none]

theorem Gate.stepsBefore_beq_zero (p : HumanPoint) (isConsult : Bool) :
    ((Gate.mk p isConsult).stepsBefore == 0) = (p.afterStep == none) := by
  obtain ⟨step, message⟩ := p
  cases step <;> rfl

theorem Gate.stepsBefore_beq_succ (p : HumanPoint) (isConsult : Bool) (i : Nat) :
    ((Gate.mk p isConsult).stepsBefore == i + 1) = (p.afterStep == some i) := by
  obtain ⟨step, message⟩ := p
  cases step <;> simp [stepsBefore]

/-- Before the first step only a pause is found. -/
theorem Settings.after_gates_zero (s : Settings) :
    Gate.after? s.gates 0 = (s.pauseAfter? none).map (⟨·, false⟩) := by
  have noConsult : (s.consultPoints.filter fun p => p.afterStep.isSome).find?
      (fun p => p.afterStep == none) = none := by
    rw [List.find?_eq_none]
    intro p hp he
    have hs := (List.mem_filter.mp hp).2
    rw [beq_iff_eq.mp he] at hs
    cases hs
  unfold Gate.after? gates pauseAfter?
  rw [List.find?_append, List.find?_map, List.find?_map]
  simp only [Function.comp_def, Gate.stepsBefore_beq_zero, noConsult, Option.map_none,
    Option.or_none]

/-- After a step a pause is found before a consultation. -/
theorem Settings.after_gates_succ (s : Settings) (i : Nat) :
    Gate.after? s.gates (i + 1) =
      ((s.pauseAfter? (some i)).map (⟨·, false⟩)).or
        ((s.consultAfter? (some i)).map (⟨·, true⟩)) := by
  have atStep (p : HumanPoint) :
      decide (p.afterStep.isSome = true ∧ (p.afterStep == some i) = true) =
        (p.afterStep == some i) := by
    by_cases h : p.afterStep = some i <;> simp [h]
  unfold Gate.after? gates pauseAfter? consultAfter?
  rw [List.find?_append, List.find?_map, List.find?_map, List.find?_filter]
  simp only [Function.comp_def, Gate.stepsBefore_beq_succ, atStep]

namespace Run

/-! ## The two places -/

/-- Stops at the gate after a number of steps, if there is one. -/
def stopAt (r : Run) (steps : Nat) : Action Unit :=
  match Gate.after? r.settings.gates steps with
  | some g => Action.stop g.outcome
  | none => pure ()

/-- Everything before the place where a run first looks for a human. -/
def opening (r : Run) : Action Unit := do
  r.checkPreconditions
  let vars := r.initialVars (← Action.ask .files) (← Action.ask .now)
  modify fun s => { s with vars }
  Action.orAgentFailure none (← Action.ask .start)
  modify fun s => { s with isStarted := true }

theorem opening_isTrait (r : Run) {Q : ∀ β : Type, Action β → Prop} (h : Action.IsTrait Q)
    (asksFiles : Q _ (Action.ask .files)) (asksNow : Q _ (Action.ask .now))
    (asksStart : Q _ (Action.ask .start)) (warns : ∀ message, Q _ (Action.warn message))
    (loads : Q _ r.loadContext)
    (setsVars : ∀ vars, Q Unit (modify fun s => { s with vars }))
    (started : Q Unit (modify fun s => { s with isStarted := true })) : Q _ r.opening := by
  refine h.bind (h.checkPreconditions asksFiles warns loads) fun _ => ?_
  refine h.bind asksFiles fun files => h.bind asksNow fun now => h.bind (setsVars _) fun _ => ?_
  exact h.bind asksStart fun answer => h.bind (h.orAgentFailure _ _) fun _ => started

theorem stopAfter_eq_stopAt (r : Run) (i : Nat) : r.stopAfter i = r.stopAt (i + 1) := by
  unfold stopAfter stopAt
  rw [Settings.after_gates_succ]
  cases hp : r.settings.pauseAfter? (some i) with
  | some p =>
    have hs : p.afterStep = some i := by simpa using List.find?_some hp
    simp [Gate.outcome, hs]
  | none =>
    cases hc : r.settings.consultAfter? (some i) with
    | some p =>
      have hs : p.afterStep = some i := by simpa using List.find?_some hc
      simp [Gate.outcome, hs]
    | none => rfl

theorem execute_eq_stopAt (r : Run) :
    r.execute = (do r.opening; r.stopAt 0; r.executeCycles r.settings.cycles 0) := by
  unfold execute opening stopAt
  rw [Settings.after_gates_zero]
  simp only [bind_assoc]
  cases hp : r.settings.pauseAfter? none with
  | some p =>
    have hs : p.afterStep = none := by simpa using List.find?_some hp
    simp only [Option.map_some, Gate.outcome, hs]
  | none => simp only [Option.map_none, pure_bind]

/-! ## Steps without a gate between them -/

/-- Executes steps one after the other and looks for nobody. -/
def perform (r : Run) : (index turns : Nat) → List Step → Action Unit
  | _, _, [] => pure ()
  | index, turns, step :: rest => do
    let place : StepPlace := ⟨(← get).cycle + 1, index⟩
    let turn : TurnPlace :=
      if step.isAgentTurn then .among turns r.conversation.promptCount else .inBlock
    r.executeStep place turn step
    perform r (index + 1) (if step.isAgentTurn then turns + 1 else turns) rest

/-- Cycles in which no human is looked for. -/
def performCycles (r : Run) : (left cycle : Nat) → Action Unit
  | 0, _ => pure ()
  | left + 1, cycle => do
    r.startCycle cycle
    r.perform 0 0 r.conversation.steps
    modify fun s => { s with pendingHelp := [] }
    modify fun s => { s with
      report := { s.report with cyclesCompleted := s.report.cyclesCompleted + 1 } }
    performCycles r left (cycle + 1)

/-- Everything before the gate with so many steps before it. -/
def approach (r : Run) : (steps : Nat) → Action Unit
  | 0 => r.opening
  | n + 1 => do
    r.opening
    r.startCycle 0
    r.perform 0 0 (r.conversation.steps.take (n + 1))

theorem stopAt_of_none {r : Run} {n : Nat} (h : Gate.after? r.settings.gates n = none) :
    r.stopAt n = pure () := by
  unfold stopAt
  rw [h]

theorem stopAt_of_some {r : Run} {n : Nat} {g : Gate}
    (h : Gate.after? r.settings.gates n = some g) : r.stopAt n = Action.stop g.outcome := by
  unfold stopAt
  rw [h]

theorem stopAt_isTrait (r : Run) {Q : ∀ β : Type, Action β → Prop} (h : Action.IsTrait Q)
    (steps : Nat) : Q _ (r.stopAt steps) := by
  unfold stopAt
  split
  · exact h.stop rfl
  · exact h.pure ()

/-- An action that ends the run is not followed by anything. -/
theorem stop_bind {β γ : Type} (outcome : RunOutcome) (f : β → Action γ) :
    (Action.stop outcome : Action β) >>= f = Action.stop outcome := rfl

/-- Steps up to the first gate are executed like steps without gates. -/
theorem executeFrom_of_gate {r : Run} {n : Nat} {g : Gate} (index turns : Nat)
    {steps : List Step} (hn : n < steps.length)
    (hg : Gate.after? r.settings.gates (index + n + 1) = some g)
    (hfree : ∀ k < n, Gate.after? r.settings.gates (index + k + 1) = none) :
    r.executeFrom index turns steps =
      (do r.perform index turns (steps.take (n + 1)); Action.stop g.outcome) := by
  induction n generalizing index turns steps with
  | zero =>
    cases steps with
    | nil => cases hn
    | cons step rest =>
      simp only [executeFrom, perform, List.take, stopAfter_eq_stopAt, bind_assoc, pure_bind,
        stopAt_of_some hg, stop_bind]
  | succ n ih =>
    cases steps with
    | nil => cases hn
    | cons step rest =>
      have hfirst := hfree 0 (Nat.succ_pos n)
      have hrest (turns : Nat) := ih (index + 1) turns (Nat.lt_of_succ_lt_succ hn)
        (by rw [← hg]; congr 1; omega)
        fun k hk => by rw [← hfree (k + 1) (by omega)]; congr 1; omega
      simp only [executeFrom, perform, List.take, stopAfter_eq_stopAt, stopAt_of_none hfirst,
        bind_assoc, pure_bind, hrest]

/-- Without gates no step is followed by a stop. -/
theorem executeFrom_of_no_gate {r : Run} (h : r.settings.gates = []) (index turns : Nat)
    (steps : List Step) :
    r.executeFrom index turns steps =
      (do r.perform index turns steps; modify fun s => { s with pendingHelp := [] }) := by
  induction steps generalizing index turns with
  | nil => simp only [executeFrom, perform, pure_bind]
  | cons step rest ih =>
    have hnone : Gate.after? r.settings.gates (index + 1) = none := by
      rw [h]
      rfl
    simp only [executeFrom, perform, stopAfter_eq_stopAt, stopAt_of_none hnone, bind_assoc,
      pure_bind, ih]

theorem executeCycles_of_no_gate {r : Run} (h : r.settings.gates = []) (left cycle : Nat) :
    r.executeCycles left cycle = r.performCycles left cycle := by
  induction left generalizing cycle with
  | zero => rfl
  | succ left ih =>
    simp only [executeCycles, performCycles, executeCycle, startCycle, bind_assoc,
      executeFrom_of_no_gate h, ih]

/-- A run with a gate is the way to the first gate and a stop there. -/
theorem execute_of_gate {r : Run} {g : Gate} (hg : Gate.firstOf r.settings.gates = some g)
    (hin : g.stepsBefore ≤ r.conversation.steps.length) :
    r.execute = (do r.approach g.stepsBefore; Action.stop g.outcome) := by
  have hfound := Gate.after_of_firstOf hg
  rw [execute_eq_stopAt]
  cases hs : g.stepsBefore with
  | zero =>
    rw [hs] at hfound
    simp only [stopAt_of_some hfound, approach, stop_bind]
  | succ n =>
    have hfree (k : Nat) (hk : k < n + 1) : Gate.after? r.settings.gates k = none :=
      Gate.after_eq_none_of_lt hg (by omega)
    have hcycles : ∃ more, r.settings.cycles = more + 1 := ⟨r.settings.cycles - 1, by
      unfold Settings.cycles
      omega⟩
    obtain ⟨more, hcycles⟩ := hcycles
    have hlt : n < r.conversation.steps.length := by omega
    have hat : Gate.after? r.settings.gates (0 + n + 1) = some g := by
      rw [← hfound, hs, Nat.zero_add]
    have hfrom := executeFrom_of_gate 0 0 hlt hat fun k hk => hfree (0 + k + 1) (by omega)
    simp only [stopAt_of_none (hfree 0 (Nat.succ_pos n)), hcycles, executeCycles, executeCycle,
      approach, startCycle, bind_assoc, pure_bind, hfrom, stop_bind]

/-- A run without gates goes through all its cycles. -/
theorem execute_of_no_gate {r : Run} (h : r.settings.gates = []) :
    r.execute = (do r.opening; r.performCycles r.settings.cycles 0) := by
  have hnone : Gate.after? r.settings.gates 0 = none := by
    rw [h]
    rfl
  simp only [execute_eq_stopAt, stopAt_of_none hnone, executeCycles_of_no_gate h, pure_bind]

/-! ## The way to a gate ends the run only early -/

section

open ConversationFlow.Action

theorem opening_takes (r : Run) : Takes .any r.opening := by
  have asks (request : Request) : Takes .any (ask request) := takes_ask fun _ _ => trivial
  refine r.opening_isTrait Course.any_isPath.isTrait (asks _) (asks _) (asks _) (fun _ => ?_)
    ?_ (fun _ => takes_modify fun _ => trivial) (takes_modify fun _ => trivial)
  · exact takes_modify fun _ => trivial
  · exact (takes_of_gives _ fun s => r.loadContext_gives).any

theorem perform_takes (r : Run) (index turns : Nat) (steps : List Step) :
    Takes .onSessions (r.perform index turns steps) := by
  induction steps generalizing index turns with
  | nil => exact takes_pure onSessions_isPath ()
  | cons step rest ih =>
    refine takes_get_bind fun s => ?_
    exact takes_bind onSessions_isPath ((r.onSessions_allows _).executeStep _ step) fun _ => ih _ _

theorem endsEarly_approach (r : Run) (steps : Nat) : (r.approach steps).EndsEarly := by
  cases steps with
  | zero => exact r.opening_takes.endsEarly
  | succ n =>
    have hcycle := (r.onSessions_allowsCycles.begins 0).any
    have hsteps := (r.perform_takes 0 0 (r.conversation.steps.take (n + 1))).any
    exact (takes_bind Course.any_isPath r.opening_takes fun _ =>
      takes_bind Course.any_isPath hcycle fun _ => hsteps).endsEarly

/-- No action of a run says that the run completed. -/
theorem endsEarly_execute (r : Run) : r.execute.EndsEarly := by
  have hgate := r.stopAt_isTrait Course.any_isPath.isTrait 0
  have hcycles := (r.onSessions_allowsCycles.executeCycles r.settings.cycles 0).any
  rw [execute_eq_stopAt]
  exact (takes_bind Course.any_isPath r.opening_takes fun _ =>
    takes_bind Course.any_isPath hgate fun _ => hcycles).endsEarly

end

/-! ## What a whole run comes to -/

/-- What a run answers: its outcome, or that of the early end, or the failure. -/
def answer (outcome : RunOutcome) (ended : Except Ending Unit) (report : RunReport) :
    Except RunFailure RunReport :=
  match ended with
  | .ok () => .ok { report with outcome }
  | .error (.stopped earlier) => .ok { report with outcome := earlier }
  | .error (.failed failure) => .error ⟨failure, report⟩

/-- A run from a state comes to what an action comes to, and has the outcome where the action
is done: its exchanges are those of the action and of the shutting down. -/
def Concludes (r : Run) (s : RunState) (a : Action Unit) (outcome : RunOutcome) : Prop :=
  ∀ xs result, (r.dialogue s).Reaches xs result ↔
    ∃ ys zs ended t closed last, xs = ys ++ zs ∧ a.Reaches s ys ended t ∧
      shutDown.Reaches t zs closed last ∧ result = answer outcome ended last.report

theorem dialogue_eq (r : Run) (s : RunState) :
    r.dialogue s = (r.execute s).bind fun ended =>
      (shutDown ended.2).bind fun closed => .done (answer .completed ended.1 closed.2.report) := by
  change (r.execute s).bind _ = _
  congr 1
  funext ⟨ended, t⟩
  change (shutDown t).bind _ = _
  congr 1
  funext ⟨closed, last⟩
  match ended with
  | .ok () => rfl
  | .error (.stopped _) => rfl
  | .error (.failed _) => rfl

theorem reaches_dialogue_iff {r : Run} {s : RunState} {xs : List Exchange}
    {result : Except RunFailure RunReport} :
    (r.dialogue s).Reaches xs result ↔
      ∃ ys zs ended t closed last, xs = ys ++ zs ∧ r.execute.Reaches s ys ended t ∧
        shutDown.Reaches t zs closed last ∧ result = answer .completed ended last.report := by
  rw [dialogue_eq, Dialogue.reaches_bind_iff]
  constructor
  · rintro ⟨ys, zs, ⟨ended, t⟩, rfl, hy, hz⟩
    obtain ⟨ws, _, ⟨closed, last⟩, rfl, hw, hlast⟩ := Dialogue.reaches_bind_iff.mp hz
    obtain ⟨rfl, hr⟩ := Dialogue.reaches_done_iff.mp hlast
    rw [List.append_nil]
    exact ⟨ys, ws, ended, t, closed, last, rfl, hy, hw, hr⟩
  · rintro ⟨ys, zs, ended, t, closed, last, rfl, hy, hz, rfl⟩
    refine ⟨ys, zs, (ended, t), rfl, hy, Dialogue.reaches_bind_iff.mpr ?_⟩
    exact ⟨zs, [], (closed, last), (List.append_nil zs).symm, hz, .done _⟩

/-- Whether the run completed. -/
def completes : Except RunFailure RunReport → Bool
  | .ok report => report.outcome.isCompleted
  | .error _ => false

/-- A run completes if it comes to the end of its last cycle. -/
theorem completes_answer {r : Run} {s t : RunState} {xs : List Exchange}
    {ended : Except Ending Unit} (h : r.execute.Reaches s xs ended t) (report : RunReport) :
    completes (answer .completed ended report) = ended.isOk := by
  match ended with
  | .ok () => rfl
  | .error (.stopped _) => exact r.endsEarly_execute s xs _ t h
  | .error (.failed _) => rfl

/-- An action with a stop behind it stops where the action is done. -/
theorem reaches_then_stop_iff {a : Action Unit} {outcome : RunOutcome} {s t : RunState}
    {xs : List Exchange} {ended : Except Ending Unit} :
    Action.Reaches (do a; Action.stop outcome) s xs ended t ↔
      (a.Reaches s xs (.ok ()) t ∧ ended = .error (.stopped outcome)) ∨
      ∃ e, ended = .error e ∧ a.Reaches s xs (.error e) t := by
  rw [Action.reaches_bind_iff]
  refine or_congr ⟨?_, ?_⟩ Iff.rfl
  · rintro ⟨ys, zs, _, _, rfl, hy, hz⟩
    obtain ⟨rfl, rfl, rfl⟩ := Action.reaches_throw_iff.mp hz
    rw [List.append_nil]
    exact ⟨hy, rfl⟩
  · rintro ⟨h, rfl⟩
    exact ⟨xs, [], (), t, (List.append_nil xs).symm, h,
      Action.reaches_throw_iff.mpr ⟨rfl, rfl, rfl⟩⟩

theorem concludes_of_gate {r : Run} {g : Gate} (hg : Gate.firstOf r.settings.gates = some g)
    (hin : g.stepsBefore ≤ r.conversation.steps.length) (s : RunState) :
    r.Concludes s (r.approach g.stepsBefore) g.outcome := by
  intro xs result
  rw [reaches_dialogue_iff, execute_of_gate hg hin]
  constructor
  · rintro ⟨ys, zs, ended, t, closed, last, rfl, hy, hz, rfl⟩
    rcases reaches_then_stop_iff.mp hy with ⟨hdone, rfl⟩ | ⟨e, rfl, hended⟩
    · exact ⟨ys, zs, .ok (), t, closed, last, rfl, hdone, hz, rfl⟩
    · refine ⟨ys, zs, .error e, t, closed, last, rfl, hended, hz, ?_⟩
      cases e <;> rfl
  · rintro ⟨ys, zs, ended, t, closed, last, rfl, hy, hz, rfl⟩
    match ended with
    | .ok () =>
      exact ⟨ys, zs, _, t, closed, last, rfl, reaches_then_stop_iff.mpr (.inl ⟨hy, rfl⟩), hz, rfl⟩
    | .error e =>
      refine ⟨ys, zs, _, t, closed, last, rfl,
        reaches_then_stop_iff.mpr (.inr ⟨e, rfl, hy⟩), hz, ?_⟩
      cases e <;> rfl

theorem concludes_of_no_gate {r : Run} (h : r.settings.gates = []) (s : RunState) :
    r.Concludes s (do r.opening; r.performCycles r.settings.cycles 0) .completed := by
  intro xs result
  rw [reaches_dialogue_iff, execute_of_no_gate h]

/-- A run that stops at a gate does not complete, nor does one that ends on the way. -/
theorem not_completed_of_concludes {r : Run} {s : RunState} {a : Action Unit}
    {outcome : RunOutcome} (hc : r.Concludes s a outcome) (ha : a.EndsEarly)
    (ho : outcome.isCompleted = false) {xs : List Exchange} {report : RunReport}
    (h : (r.dialogue s).Reaches xs (.ok report)) : report.outcome.isCompleted = false := by
  obtain ⟨ys, zs, ended, t, closed, last, rfl, hy, -, hr⟩ := (hc xs _).mp h
  match ended with
  | .ok () =>
    cases hr
    exact ho
  | .error (.stopped earlier) =>
    cases hr
    exact ha s ys _ t hy
  | .error (.failed failure) => cases hr

end Run

/-! ## The gates of compiled conversations -/

namespace Conversation

theorem prepare_conversation {c : Conversation} {o : RunOptions} {r : Run} {s : RunState}
    (h : Run.prepare c o = .ok (r, s)) : r.conversation = c := by
  obtain ⟨tracker, -, rfl, rfl⟩ := Run.exists_of_prepare h
  rfl

/-- A point of the conversation is one of the compiled points, moved. -/
theorem mem_pausePoints {c : Compiled} (h : c.IsResult) {q : HumanPoint}
    (hq : q ∈ (ofCompiled c).settings.pausePoints) :
    ∃ p ∈ c.settings.pausePoints, Moved c p q := by
  obtain ⟨p, hp, rfl⟩ := List.mem_map.mp hq
  exact ⟨p, hp, moved_of_follows ((Compiled.points_follow h).1 p hp)⟩

theorem mem_consultPoints {c : Compiled} (h : c.IsResult) {q : HumanPoint}
    (hq : q ∈ (ofCompiled c).settings.consultPoints) :
    ∃ p ∈ c.settings.consultPoints, Moved c p q := by
  obtain ⟨p, hp, rfl⟩ := List.mem_map.mp hq
  exact ⟨p, hp, moved_of_follows ((Compiled.points_follow h).2 p hp)⟩

theorem Moved.afterStep_eq_none_iff {c : Compiled} {p q : HumanPoint} (h : Moved c p q) :
    q.afterStep = none ↔ p.afterStep = none := by
  refine ⟨fun hq => ?_, h.leading⟩
  cases hp : p.afterStep with
  | none => rfl
  | some i =>
    obtain ⟨j, hj, -⟩ := h.following i hp
    rw [hq] at hj
    cases hj

/-- A conversation has a gate if and only if the compiled conversation has a pause, or a
consultation that was declared after a step. -/
theorem gates_ofCompiled_ne_nil_iff {c : Compiled} (h : c.IsResult) :
    (ofCompiled c).settings.gates ≠ [] ↔
      c.settings.pausePoints ≠ [] ∨ ∃ p ∈ c.settings.consultPoints, p.afterStep ≠ none := by
  rw [Settings.gates_ne_nil_iff]
  refine or_congr ?_ ⟨?_, ?_⟩
  · rw [ofCompiled, Settings.renumber, ne_eq, List.map_eq_nil_iff]
  · rintro ⟨q, hq, hs⟩
    obtain ⟨p, hp, hm⟩ := mem_consultPoints h hq
    exact ⟨p, hp, fun hn => hs (hm.afterStep_eq_none_iff.mpr hn)⟩
  · rintro ⟨p, hp, hs⟩
    have hm := moved_of_follows ((Compiled.points_follow h).2 p hp)
    exact ⟨_, List.mem_map_of_mem hp, fun hn => hs (hm.afterStep_eq_none_iff.mp hn)⟩

theorem Moved.stepsBefore_le {c : Compiled} {p q : HumanPoint} (h : Moved c p q)
    (isConsult : Bool) : (Gate.mk q isConsult).stepsBefore ≤ (ofCompiled c).steps.length := by
  cases hp : p.afterStep with
  | none =>
    rw [Gate.stepsBefore, h.leading hp]
    exact Nat.zero_le _
  | some i =>
    obtain ⟨j, hj, hw⟩ := h.following i hp
    rw [Gate.stepsBefore, hj]
    exact hw.inside

theorem stepsBefore_le {c : Compiled} (h : c.IsResult) {g : Gate}
    (hg : g ∈ (ofCompiled c).settings.gates) : g.stepsBefore ≤ (ofCompiled c).steps.length := by
  rcases List.mem_append.mp hg with hg | hg
  · obtain ⟨q, hq, rfl⟩ := List.mem_map.mp hg
    obtain ⟨p, -, hm⟩ := mem_pausePoints h hq
    exact hm.stepsBefore_le false
  · obtain ⟨q, hq, rfl⟩ := List.mem_map.mp hg
    obtain ⟨p, -, hm⟩ := mem_consultPoints h (List.mem_of_mem_filter hq)
    exact hm.stepsBefore_le true

/-- The first gate of a compiled conversation ends every run that gets there, and every other run
ends before it; none completes. Without a gate a run goes through all its cycles, whatever
consultations were declared before the first step. -/
theorem first_gate_ends_runs {c : Compiled} (hc : c.IsResult) {o : RunOptions} {r : Run}
    {s : RunState} (hp : Run.prepare (ofCompiled c) o = .ok (r, s)) :
    (c.settings.pausePoints ≠ [] ∨ (∃ p ∈ c.settings.consultPoints, p.afterStep ≠ none) →
      ∃ g, Gate.firstOf (ofCompiled c).settings.gates = some g ∧
        g.stepsBefore ≤ (ofCompiled c).steps.length ∧
        r.Concludes s (r.approach g.stepsBefore) g.outcome ∧
        ∀ xs report, (r.dialogue s).Reaches xs (.ok report) → report.outcome.isCompleted = false) ∧
    (c.settings.pausePoints = [] ∧ (∀ p ∈ c.settings.consultPoints, p.afterStep = none) →
      r.Concludes s (do r.opening; r.performCycles r.settings.cycles 0) .completed) := by
  have hr := prepare_conversation hp
  constructor
  · intro hpoints
    have hgates := (gates_ofCompiled_ne_nil_iff hc).mpr hpoints
    obtain ⟨g, hg⟩ := Option.ne_none_iff_exists'.mp (mt Gate.firstOf_eq_none_iff.mp hgates)
    have hin := stepsBefore_le hc (List.mem_of_find?_eq_some (Gate.after_of_firstOf hg))
    have hends : r.Concludes s (r.approach g.stepsBefore) g.outcome :=
      Run.concludes_of_gate (by rw [Run.settings, hr]; exact hg) (by rw [hr]; exact hin) s
    exact ⟨g, hg, hin, hends, fun xs report h =>
      Run.not_completed_of_concludes hends (r.endsEarly_approach _) rfl h⟩
  · rintro ⟨noPause, leading⟩
    have hnone : (ofCompiled c).settings.gates = [] := by
      by_contra hne
      rcases (gates_ofCompiled_ne_nil_iff hc).mp hne with h | ⟨p, hp, h⟩
      · exact h noPause
      · exact h (leading p hp)
    exact Run.concludes_of_no_gate (by rw [Run.settings, hr]; exact hnone) s

/-- A consultation after a prompt stops the run there; the same consultation before it does not. -/
theorem consultation_stops_after_a_prompt_only :
    (∃ c r s,
      Compiled.ofText FileSystem.empty .empty "PROMPT hi\nCONSULT ask".toList = .ok c ∧
      Run.prepare (ofCompiled c) { cwd := "w" } = .ok (r, s) ∧
      r.Concludes s (r.approach 1) (.paused (some 0) "ask".toList true)) ∧
    ∃ c r s,
      Compiled.ofText FileSystem.empty .empty "CONSULT ask\nPROMPT hi".toList = .ok c ∧
      Run.prepare (ofCompiled c) { cwd := "w" } = .ok (r, s) ∧
      r.Concludes s (do r.opening; r.performCycles r.settings.cycles 0) .completed := by
  let asking (step : Option Nat) : Compiled :=
    ⟨{ consultPoints := [⟨step, "ask".toList⟩] }, [.prompt "hi".toList], none⟩
  constructor
  · have hc : Compiled.ofText FileSystem.empty .empty "PROMPT hi\nCONSULT ask".toList =
        .ok (asking (some 0)) := by
      cbv
    have hp : Run.prepare (ofCompiled (asking (some 0))) { cwd := "w" } = .ok (_, _) := rfl
    obtain ⟨g, hg, -, hends, -⟩ := (first_gate_ends_runs (.inl ⟨_, _, _, hc⟩) hp).1
      (.inr ⟨_, List.mem_singleton.mpr rfl, Option.some_ne_none 0⟩)
    obtain rfl : ⟨⟨some 0, "ask".toList⟩, true⟩ = g := Option.some.inj hg
    exact ⟨_, _, _, hc, hp, hends⟩
  · have hc : Compiled.ofText FileSystem.empty .empty "CONSULT ask\nPROMPT hi".toList =
        .ok (asking none) := by
      cbv
    have hp : Run.prepare (ofCompiled (asking none)) { cwd := "w" } = .ok (_, _) := rfl
    exact ⟨_, _, _, hc, hp, (first_gate_ends_runs (.inl ⟨_, _, _, hc⟩) hp).2
      ⟨rfl, fun p h => by rw [List.mem_singleton.mp h]⟩⟩

end Conversation

end ConversationFlow

import ConversationFlow.Proofs.Running.Delivery

/-!
# Retries of commands

A step that runs a command goes on by moves: it executes the command, sends prompts, carries out a
block, and fails or warns. Its moves are decided by the outputs of the executions alone
(`Run.moves`). What comes of a move is up to the world, and where one ends the run the moves after
it are not made (`Run.Performs`). In the exchanges this shows as executions with one turn between
any two of them (`Run.Tries`). What a block does in itself is not followed here.
-/

namespace ConversationFlow

/-- A step that runs a command. -/
structure CommandStep where
  command : RunCommand
  onFailure : List Step
  onSuccess : List Step

namespace CommandStep

def step (c : CommandStep) : Step := .run c.command c.onFailure c.onSuccess

/-- How often the command is tried again at most. A block for failures takes the place of
retries. -/
def retryLimit (c : CommandStep) : Nat := if c.onFailure.isEmpty then c.command.retries else 0

/-- What follows the command. -/
def followUp (c : CommandStep) (r : Run) (place : StepPlace) : Run.FollowUp where
  onFailure := if c.onFailure.isEmpty then none else some (r.executeBlock place c.onFailure)
  onSuccess := r.executeBlock place c.onSuccess

theorem retryLimit_of_block (c : CommandStep) (h : c.onFailure ≠ []) : c.retryLimit = 0 :=
  if_neg (List.isEmpty_iff.not.mpr h)

theorem retryLimit_of_no_block (c : CommandStep) (h : c.onFailure = []) :
    c.retryLimit = c.command.retries := if_pos (List.isEmpty_iff.mpr h)

end CommandStep

/-- A move of a step that runs a command. -/
inductive Move where
  | execute (output : CommandOutput)
  | report (text : Text)
  | askForRetry (text : Text)
  | onFailure
  | onSuccess
  | warn (message : Text)
  | fail (failure : Failure)

namespace Move

/-- The move executes the command, or asks the agent to mend what failed. -/
def isAttempt : Move → Bool
  | .execute _ | .askForRetry _ => true
  | _ => false

/-- The output of an execution. -/
def output? : Move → Option CommandOutput
  | .execute output => some output
  | _ => none

def warning? : Move → Option Text
  | .warn message => some message
  | _ => none

end Move

/-- The last execution of a command that may be tried again `limit` times, counted from 0: the
first that passes, or the one after which no retry is left. -/
def lastAttempt : (limit : Nat) → (outputs : Nat → CommandOutput) → Nat
  | 0, _ => 0
  | limit + 1, outputs =>
    if (outputs 0).passed then 0 else lastAttempt limit (fun k => outputs (k + 1)) + 1

section

variable {limit : Nat} {outputs : Nat → CommandOutput}

theorem lastAttempt_of_passed (h : (outputs 0).passed = true) : lastAttempt limit outputs = 0 := by
  cases limit with
  | zero => rfl
  | succ limit => exact if_pos h

theorem lastAttempt_succ (h : (outputs 0).passed = false) :
    lastAttempt (limit + 1) outputs = lastAttempt limit (fun k => outputs (k + 1)) + 1 :=
  if_neg (Bool.eq_false_iff.mp h)

theorem lastAttempt_le : lastAttempt limit outputs ≤ limit := by
  induction limit generalizing outputs with
  | zero => exact Nat.le_refl 0
  | succ limit ih =>
    unfold lastAttempt
    split
    · exact Nat.zero_le _
    · exact Nat.succ_le_succ ih

theorem failed_before_last {k : Nat} (hk : k < lastAttempt limit outputs) :
    (outputs k).passed = false := by
  induction limit generalizing outputs k with
  | zero => exact absurd hk (Nat.not_lt_zero k)
  | succ limit ih =>
    cases h : (outputs 0).passed with
    | true =>
      rw [lastAttempt_of_passed h] at hk
      exact absurd hk (Nat.not_lt_zero k)
    | false =>
      rw [lastAttempt_succ h] at hk
      cases k with
      | zero => exact h
      | succ k =>
        have hrest := Nat.lt_of_succ_lt_succ hk
        exact (ih hrest :)

theorem lastAttempt_of_failed (h : (outputs (lastAttempt limit outputs)).passed = false) :
    lastAttempt limit outputs = limit := by
  induction limit generalizing outputs with
  | zero => rfl
  | succ limit ih =>
    cases h0 : (outputs 0).passed with
    | true =>
      rw [lastAttempt_of_passed h0, h0] at h
      cases h
    | false =>
      rw [lastAttempt_succ h0] at h ⊢
      exact congrArg (· + 1) (ih h)

/-- All executions failed if the last one did. -/
theorem failed_last_iff :
    (outputs (lastAttempt limit outputs)).passed = false ↔
      ∀ k ≤ limit, (outputs k).passed = false := by
  refine ⟨fun h k hk => ?_, fun h => h _ lastAttempt_le⟩
  have hlast := lastAttempt_of_failed h
  rcases Nat.lt_or_eq_of_le hk with hlt | rfl
  · exact failed_before_last (by rwa [hlast])
  · rwa [hlast] at h

end

/-- A command is executed. -/
def Exchange.isCommand : Exchange → Bool
  | ⟨.command .., _⟩ => true
  | _ => false

/-- No command is executed, and no warning is entered. -/
def Course.speaking : Course := fun s xs t =>
  (∀ x ∈ xs, x.isCommand = false) ∧ t.report.warnings = s.report.warnings

/-! ## Moves -/

namespace Run

section

variable (r : Run) (place : StepPlace) (c : CommandStep)

/-- The prompt that asks the agent to mend what an output tells. -/
def retryText (vars : Variables) (output : CommandOutput) : Text :=
  output.render r.runner.settings.outputLimit ++ "\n\n" ++
    vars.substitute (c.command.retryPrompt.getD RunCommand.defaultRetryPrompt)

/-- What the last output is followed by: it may be sent, a block is carried out if there is one for
it, and a failure without a block is handled as the settings say. -/
def lastMoves (output : CommandOutput) : List Move :=
  let rendered := output.render r.runner.settings.outputLimit
  (if r.runner.settings.output.sends !output.passed then [.report rendered] else []) ++
    if output.passed then [.onSuccess]
    else if !c.onFailure.isEmpty then [.onFailure]
    else
      match r.runner.settings.onError with
      | .stop => [.fail (.commandFailed place c.command.command output.status rendered)]
      | .proceed =>
        [.warn (place.text ++ ": RUN `" ++ c.command.command ++ "` " ++ output.status)]

/-- The moves of a step whose command may be tried again `limit` times. -/
def movesWithin (limit : Nat) (vars : Variables) (outputs : Nat → CommandOutput) : List Move :=
  let last := lastAttempt limit outputs
  (List.range last).flatMap (fun k =>
      [.execute (outputs k), .askForRetry (r.retryText c vars (outputs k))]) ++
    .execute (outputs last) :: r.lastMoves place c (outputs last)

/-- The moves of a step, by the outputs of the executions of its command. -/
def moves (vars : Variables) (outputs : Nat → CommandOutput) : List Move :=
  r.movesWithin place c c.retryLimit vars outputs

/-- The output that the answer to a command counts as. A command that cannot be started counts as
one that failed; another error ends the run. -/
def outputOf : Except CommandError CommandOutput → Except Ending CommandOutput
  | .ok output => .ok output
  | .error (.notStarted command cause) =>
    .ok (.notStarted command cause.message r.runner.settings.timeout)
  | .error e => .error (.failed (.command place e))

/-- What comes of a move in a state. -/
def Does (s : RunState) (xs : List Exchange) (result : Except Ending Unit) (t : RunState) :
    Move → Prop
  | .execute output => ∃ answer, xs = [⟨.command r.runner c.command.command, answer⟩] ∧ t = s ∧
    r.outputOf place answer = result.map fun _ => output
  | .report text | .askForRetry text => (r.sendTurn text place).Reaches s xs result t
  | .onFailure => (r.executeBlock place c.onFailure).Reaches s xs result t
  | .onSuccess => (r.executeBlock place c.onSuccess).Reaches s xs result t
  | .warn message => (Action.warn message).Reaches s xs result t
  | .fail failure => (Action.fail failure).Reaches s xs result t

/-- What comes of moves in a row. Nothing follows a move that ends the run. -/
inductive Performs : List Move → RunState → List Exchange → Except Ending Unit → RunState → Prop
  | done (s : RunState) : Performs [] s [] (.ok ()) s
  | next {m : Move} {ms : List Move} {s t u : RunState} {xs ys : List Exchange}
      {result : Except Ending Unit} (h : r.Does place c s xs (.ok ()) t m)
      (rest : Performs ms t ys result u) : Performs (m :: ms) s (xs ++ ys) result u
  | ends {m : Move} {ms : List Move} {s t : RunState} {xs : List Exchange} {ending : Ending}
      (h : r.Does place c s xs (.error ending) t m) : Performs (m :: ms) s xs (.error ending) t

end

/-! ## What comes of the actions -/

open ConversationFlow.Action

section

variable {r : Run} {place : StepPlace} {c : CommandStep} {m : Move} {ms : List Move}
  {s t : RunState} {xs : List Exchange} {result : Except Ending Unit}

theorem performs_cons_iff :
    r.Performs place c (m :: ms) s xs result t ↔
      (∃ ys zs u, xs = ys ++ zs ∧ r.Does place c s ys (.ok ()) u m ∧
        r.Performs place c ms u zs result t) ∨
      ∃ ending, result = .error ending ∧ r.Does place c s xs (.error ending) t m := by
  constructor
  · intro h
    cases h with
    | next h rest => exact .inl ⟨_, _, _, rfl, h, rest⟩
    | ends h => exact .inr ⟨_, rfl, h⟩
  · rintro (⟨ys, zs, u, rfl, h, rest⟩ | ⟨ending, rfl, h⟩)
    · exact .next h rest
    · exact .ends h

/-- Whatever comes of the action comes of the moves, and the other way round. -/
def Plays (r : Run) (place : StepPlace) (c : CommandStep) (a : Action Unit) (ms : List Move) :
    Prop :=
  ∀ s xs result t, a.Reaches s xs result t ↔ r.Performs place c ms s xs result t

theorem plays_pure : r.Plays place c (pure ()) [] := by
  intro s xs result t
  rw [reaches_pure_iff]
  constructor
  · rintro ⟨rfl, rfl, rfl⟩
    exact .done t
  · rintro ⟨⟩
    exact ⟨rfl, rfl, rfl⟩

theorem plays_bind {a b : Action Unit}
    (ha : ∀ s xs result t, a.Reaches s xs result t ↔ r.Does place c s xs result t m)
    (hb : r.Plays place c b ms) : r.Plays place c (a >>= fun _ => b) (m :: ms) := by
  intro s xs result t
  rw [reaches_bind_iff, performs_cons_iff]
  constructor
  · rintro (⟨ys, zs, ⟨⟩, u, rfl, hy, hz⟩ | ⟨ending, rfl, he⟩)
    · exact .inl ⟨ys, zs, u, rfl, (ha s ys _ u).mp hy, (hb u zs _ t).mp hz⟩
    · exact .inr ⟨ending, rfl, (ha s xs _ t).mp he⟩
  · rintro (⟨ys, zs, u, rfl, hy, hz⟩ | ⟨ending, rfl, he⟩)
    · exact .inl ⟨ys, zs, (), u, rfl, (ha s ys _ u).mpr hy, (hb u zs _ t).mpr hz⟩
    · exact .inr ⟨ending, rfl, (ha s xs _ t).mpr he⟩

theorem plays_single {a : Action Unit}
    (ha : ∀ s xs result t, a.Reaches s xs result t ↔ r.Does place c s xs result t m) :
    r.Plays place c a [m] := by
  have h : r.Plays place c (a >>= pure) [m] := plays_bind ha plays_pure
  rwa [bind_pure] at h

theorem plays_report {a : Action Unit} (sends : Bool) (text : Text) (ha : r.Plays place c a ms) :
    r.Plays place c (r.report sends text place >>= fun _ => a)
      ((if sends then [.report text] else []) ++ ms) := by
  cases sends with
  | true => exact plays_bind (fun _ _ _ _ => Iff.rfl) ha
  | false => exact ha

/-- An output that is not followed by a retry is followed by the last moves. -/
theorem plays_lastMoves (output : CommandOutput) :
    r.Plays place c
      (if output.passed then do
        r.report (r.runner.settings.output.sends false)
          (output.render r.runner.settings.outputLimit) place
        (c.followUp r place).onSuccess
      else
        match (c.followUp r place).onFailure with
        | some block => do
          r.report (r.runner.settings.output.sends true)
            (output.render r.runner.settings.outputLimit) place
          block
        | none => r.giveUp c.command.command place output)
      (r.lastMoves place c output) := by
  unfold lastMoves
  cases output.passed with
  | true => exact plays_report _ _ (plays_single fun _ _ _ _ => Iff.rfl)
  | false =>
    unfold CommandStep.followUp
    cases c.onFailure.isEmpty with
    | false => exact plays_report _ _ (plays_single fun _ _ _ _ => Iff.rfl)
    | true =>
      refine plays_report _ _ ?_
      cases r.runner.settings.onError with
      | stop => exact plays_single fun _ _ _ _ => Iff.rfl
      | proceed => exact plays_single fun _ _ _ _ => Iff.rfl

/-- A command is executed in one exchange. -/
theorem reaches_tryCommand_iff {command : Text} {result : Except Ending CommandOutput} :
    (r.tryCommand command place).Reaches s xs result t ↔
      ∃ answer, xs = [⟨.command r.runner command, answer⟩] ∧ t = s ∧
        r.outputOf place answer = result := by
  have alone {x : Exchange} {a : Action CommandOutput} {e : Except Ending CommandOutput}
      (ha : ∀ ys, a.Reaches s ys result t ↔ ys = [] ∧ result = e ∧ t = s) :
      (∃ ys, xs = x :: ys ∧ a.Reaches s ys result t) ↔ xs = [x] ∧ t = s ∧ e = result := by
    constructor
    · rintro ⟨ys, rfl, h⟩
      obtain ⟨rfl, rfl, rfl⟩ := (ha ys).mp h
      exact ⟨rfl, rfl, rfl⟩
    · rintro ⟨rfl, rfl, rfl⟩
      exact ⟨[], rfl, (ha []).mpr ⟨rfl, rfl, rfl⟩⟩
  unfold tryCommand
  rw [reaches_ask_bind_iff]
  refine exists_congr fun answer => ?_
  cases answer with
  | ok output => exact alone fun _ => reaches_pure_iff
  | error e =>
    cases e with
    | notStarted command cause => exact alone fun _ => reaches_pure_iff
    | unreadable | empty | hostFailed => exact alone fun _ => reaches_throw_iff

instance : Nonempty CommandOutput := ⟨.notStarted [] [] (.ofSeconds 0)⟩

/-- What follows an execution is decided by its output, and by the outputs after it. -/
theorem reaches_execute_iff {ι : Type} [Nonempty ι] {f : CommandOutput → Action Unit}
    (after : CommandOutput → ι → List Move)
    (hf : ∀ output ys, (f output).Reaches s ys result t ↔
      ∃ i, r.Performs place c (after output i) s ys result t) :
    (r.tryCommand c.command.command place >>= f).Reaches s xs result t ↔
      ∃ output i, r.Performs place c (.execute output :: after output i) s xs result t := by
  rw [reaches_bind_iff]
  simp only [reaches_tryCommand_iff, performs_cons_iff]
  constructor
  · rintro (⟨_, ys, output, _, rfl, ⟨answer, rfl, rfl, houtput⟩, h⟩ |
      ⟨ending, rfl, answer, rfl, rfl, hending⟩)
    · obtain ⟨i, h⟩ := (hf output ys).mp h
      exact ⟨output, i, .inl ⟨_, ys, _, rfl, ⟨answer, rfl, rfl, houtput⟩, h⟩⟩
    · -- An execution that ends the run has no output, so that any may stand for it.
      obtain ⟨output⟩ := (inferInstance : Nonempty CommandOutput)
      obtain ⟨i⟩ := ‹Nonempty ι›
      exact ⟨output, i, .inr ⟨ending, rfl, answer, rfl, rfl, hending⟩⟩
  · rintro ⟨output, i, ⟨_, ys, _, rfl, ⟨answer, rfl, rfl, houtput⟩, h⟩ |
      ⟨ending, rfl, answer, rfl, rfl, hending⟩⟩
    · exact .inl ⟨_, ys, output, _, rfl, ⟨answer, rfl, rfl, houtput⟩, (hf output ys).mpr ⟨i, h⟩⟩
    · exact .inr ⟨ending, rfl, answer, rfl, rfl, hending⟩

/-- No turn changes the values of variables. -/
theorem sendTurn_vars {prompt : Text} (h : (r.sendTurn prompt place).Reaches s xs result t) :
    t.vars = s.vars :=
  (h.takes ((takesTurns_apart place).sendTurn prompt)).1.2.vars

/-- The moves after the first execution. -/
theorem movesWithin_succ {limit : Nat} {vars : Variables} (outputs : Nat → CommandOutput) :
    r.movesWithin place c (limit + 1) vars outputs = .execute (outputs 0) ::
      if (outputs 0).passed then r.lastMoves place c (outputs 0)
      else .askForRetry (r.retryText c vars (outputs 0)) ::
        r.movesWithin place c limit vars fun k => outputs (k + 1) := by
  unfold movesWithin
  cases h : (outputs 0).passed with
  | true =>
    rw [lastAttempt_of_passed h]
    rfl
  | false =>
    rw [lastAttempt_succ h]
    dsimp only
    rw [List.range_succ_eq_map, List.flatMap_cons, List.flatMap_map]
    rfl

/-- A command that is not tried again. -/
theorem executeCommand_once {vars : Variables} :
    (r.executeCommand c.command (c.followUp r place) place 0).Reaches s xs result t ↔
      ∃ outputs, r.Performs place c (r.movesWithin place c 0 vars outputs) s xs result t := by
  refine (reaches_execute_iff (fun output (_ : Unit) => r.lastMoves place c output)
    fun output ys => ?_).trans ?_
  · rw [exists_const]
    exact plays_lastMoves output s ys result t
  · constructor
    · rintro ⟨output, -, h⟩
      exact ⟨fun _ => output, h⟩
    · rintro ⟨outputs, h⟩
      exact ⟨outputs 0, (), h⟩

/-- A block for failures keeps a command from being tried again. -/
theorem executeCommand_of_block (h : c.onFailure.isEmpty = false) (retries : Nat) :
    r.executeCommand c.command (c.followUp r place) place retries =
      r.executeCommand c.command (c.followUp r place) place 0 := by
  cases retries with
  | zero => rfl
  | succ retries =>
    unfold executeCommand attempt CommandStep.followUp
    rw [h]
    rfl

/-- The agent is asked for a retry in one turn, and the moves after it are as from the beginning. -/
theorem reaches_askForRetry_bind_iff {retries : Nat} {a : Action Unit} (output : CommandOutput)
    (ha : ∀ u zs, a.Reaches u zs result t ↔
      ∃ outputs, r.Performs place c (r.movesWithin place c retries u.vars outputs) u zs result t) :
    (r.askForRetry c.command.retryPrompt place output >>= fun _ => a).Reaches s xs result t ↔
      ∃ outputs, r.Performs place c (.askForRetry (r.retryText c s.vars output) ::
        r.movesWithin place c retries s.vars outputs) s xs result t := by
  have hask (ys : List Exchange) (asked : Except Ending Unit) (u : RunState) :
      (r.askForRetry c.command.retryPrompt place output).Reaches s ys asked u ↔
        (r.sendTurn (r.retryText c s.vars output) place).Reaches s ys asked u := by
    unfold askForRetry
    exact reaches_get_bind_iff
  simp only [reaches_bind_iff, performs_cons_iff, hask, ha]
  constructor
  · rintro (⟨ys, zs, ⟨⟩, u, rfl, hy, outputs, hz⟩ | ⟨ending, rfl, he⟩)
    · rw [sendTurn_vars hy] at hz
      exact ⟨outputs, .inl ⟨ys, zs, u, rfl, hy, hz⟩⟩
    · exact ⟨fun _ => output, .inr ⟨ending, rfl, he⟩⟩
  · rintro ⟨outputs, ⟨ys, zs, u, rfl, hy, hz⟩ | ⟨ending, rfl, he⟩⟩
    · rw [← sendTurn_vars hy] at hz
      exact .inl ⟨ys, zs, (), u, rfl, hy, outputs, hz⟩
    · exact .inr ⟨ending, rfl, he⟩

/-- A command without such a block is tried again while it fails and retries are left. -/
theorem executeCommand_retried (h : c.onFailure.isEmpty = true) (retries : Nat) :
    (r.executeCommand c.command (c.followUp r place) place retries).Reaches s xs result t ↔
      ∃ outputs,
        r.Performs place c (r.movesWithin place c retries s.vars outputs) s xs result t := by
  induction retries generalizing s xs with
  | zero => exact executeCommand_once
  | succ retries ih =>
    refine (reaches_execute_iff (fun output outputs =>
      if output.passed then r.lastMoves place c output
      else .askForRetry (r.retryText c s.vars output) ::
        r.movesWithin place c retries s.vars outputs) fun output ys => ?_).trans ?_
    · cases hpassed : output.passed with
      | true =>
        have hlast : r.Plays place c _ _ := plays_lastMoves output
        rw [hpassed] at hlast
        exact (hlast s ys result t).trans (exists_const _).symm
      | false =>
        refine Iff.trans ?_ (reaches_askForRetry_bind_iff output fun _ _ => ih)
        unfold CommandStep.followUp
        rw [h]
        exact Iff.rfl
    · simp only [movesWithin_succ]
      constructor
      · rintro ⟨output, outputs, hmoves⟩
        exact ⟨fun k => k.casesOn output outputs, hmoves⟩
      · rintro ⟨outputs, hmoves⟩
        exact ⟨outputs 0, fun k => outputs (k + 1), hmoves⟩

/-! ## What the moves are -/

/-- A move that is no attempt is one of the last. -/
theorem mem_movesWithin_iff {limit : Nat} {vars : Variables} {outputs : Nat → CommandOutput}
    (hm : m.isAttempt = false) :
    m ∈ r.movesWithin place c limit vars outputs ↔
      m ∈ r.lastMoves place c (outputs (lastAttempt limit outputs)) := by
  unfold movesWithin
  dsimp only
  rw [List.mem_append, List.mem_cons, List.mem_flatMap]
  constructor
  · rintro (⟨k, -, hk⟩ | rfl | hlast)
    · rcases List.mem_pair.mp hk with rfl | rfl <;> cases hm
    · cases hm
    · exact hlast
  · exact fun hlast => .inr (.inr hlast)

theorem mem_lastMoves {output : CommandOutput} (hm : m ∈ r.lastMoves place c output) :
    m.isAttempt = false ∧ m.output? = none := by
  unfold lastMoves at hm
  rcases List.mem_append.mp hm with hreport | hm
  · split at hreport
    · obtain rfl := List.mem_singleton.mp hreport
      exact ⟨rfl, rfl⟩
    · cases hreport
  · split at hm
    · obtain rfl := List.mem_singleton.mp hm
      exact ⟨rfl, rfl⟩
    · split at hm
      · obtain rfl := List.mem_singleton.mp hm
        exact ⟨rfl, rfl⟩
      · split at hm <;>
        · obtain rfl := List.mem_singleton.mp hm
          exact ⟨rfl, rfl⟩

theorem filter_movesWithin (limit : Nat) (vars : Variables) (outputs : Nat → CommandOutput) :
    (r.movesWithin place c limit vars outputs).filter Move.isAttempt =
      (List.range (lastAttempt limit outputs)).flatMap (fun k =>
        [.execute (outputs k), .askForRetry (r.retryText c vars (outputs k))]) ++
      [.execute (outputs (lastAttempt limit outputs))] := by
  unfold movesWithin
  dsimp only
  rw [List.filter_append, List.filter_cons_of_pos rfl,
    List.filter_eq_nil_iff.mpr fun m hm => Bool.eq_false_iff.mp (mem_lastMoves hm).1,
    List.filter_eq_self.mpr fun m hm => ?_]
  obtain ⟨k, -, hk⟩ := List.mem_flatMap.mp hm
  rcases List.mem_pair.mp hk with rfl | rfl <;> rfl

/-- The last execution is the last attempt. -/
theorem getLast?_outputs (limit : Nat) (vars : Variables) (outputs : Nat → CommandOutput) :
    ((r.movesWithin place c limit vars outputs).filterMap Move.output?).getLast? =
      some (outputs (lastAttempt limit outputs)) := by
  unfold movesWithin
  dsimp only
  rw [List.filterMap_append, List.filterMap_cons_some
      (show Move.output? (.execute (outputs (lastAttempt limit outputs))) = some _ from rfl),
    List.filterMap_eq_nil_iff.mpr fun m hm => (mem_lastMoves hm).2]
  exact List.getLast?_concat

theorem warnings_movesWithin (limit : Nat) (vars : Variables) (outputs : Nat → CommandOutput) :
    (r.movesWithin place c limit vars outputs).filterMap Move.warning? =
      (r.lastMoves place c (outputs (lastAttempt limit outputs))).filterMap Move.warning? := by
  unfold movesWithin
  dsimp only
  rw [List.filterMap_append, List.filterMap_eq_nil_iff.mpr fun m hm => ?_, List.nil_append,
    List.filterMap_cons_none rfl]
  obtain ⟨k, -, hk⟩ := List.mem_flatMap.mp hm
  rcases List.mem_pair.mp hk with rfl | rfl <;> rfl

section

variable {output : CommandOutput}

theorem onSuccess_mem_lastMoves :
    .onSuccess ∈ r.lastMoves place c output ↔ output.passed = true := by
  unfold lastMoves
  cases output.passed <;> cases c.onFailure <;> cases r.runner.settings.onError <;> simp

theorem onFailure_mem_lastMoves :
    .onFailure ∈ r.lastMoves place c output ↔ c.onFailure ≠ [] ∧ output.passed = false := by
  unfold lastMoves
  cases output.passed <;> cases c.onFailure <;> cases r.runner.settings.onError <;> simp

theorem fail_mem_lastMoves {failure : Failure} :
    .fail failure ∈ r.lastMoves place c output ↔
      c.onFailure = [] ∧ output.passed = false ∧ r.runner.settings.onError = .stop ∧
      failure = .commandFailed place c.command.command output.status
        (output.render r.runner.settings.outputLimit) := by
  unfold lastMoves
  cases output.passed <;> cases c.onFailure <;> cases r.runner.settings.onError <;> simp

theorem warnings_lastMoves :
    (r.lastMoves place c output).filterMap Move.warning? =
      if c.onFailure = [] ∧ output.passed = false ∧ r.runner.settings.onError = .proceed then
        [place.text ++ ": RUN `" ++ c.command.command ++ "` " ++ output.status]
      else [] := by
  have unwarned (sends : Bool) (text : Text) :
      (if sends then [Move.report text] else []).filterMap Move.warning? = [] := by
    cases sends <;> rfl
  unfold lastMoves
  rw [List.filterMap_append, unwarned, List.nil_append]
  cases output.passed <;> cases c.onFailure <;> cases r.runner.settings.onError <;> rfl

end

end

/-- What the moves of a step are, if its command has the outputs. -/
structure KeepsToRetries (r : Run) (place : StepPlace) (c : CommandStep) (vars : Variables)
    (outputs : Nat → CommandOutput) (moves : List Move) : Prop where
  /-- With a block for failures the command is executed once. -/
  once : c.onFailure ≠ [] → moves.filter Move.isAttempt = [.execute (outputs 0)]
  /-- Without one it is executed until it passes or the retries are used up, with a prompt between
  two executions and none after the last. -/
  repeated : c.onFailure = [] → ∃ last ≤ c.command.retries,
    (∀ k < last, (outputs k).passed = false) ∧
    ((outputs last).passed = true ∨ last = c.command.retries) ∧
    moves.filter Move.isAttempt =
      (List.range last).flatMap (fun k =>
        [.execute (outputs k), .askForRetry (r.retryText c vars (outputs k))]) ++
      [.execute (outputs last)]
  /-- The block for successes is carried out exactly if the last execution passed. -/
  onSuccess : .onSuccess ∈ moves ↔
    ∃ output, (moves.filterMap Move.output?).getLast? = some output ∧ output.passed = true
  onFailure : .onFailure ∈ moves ↔ c.onFailure ≠ [] ∧ (outputs 0).passed = false
  /-- The step fails exactly if there is no such block, all executions failed and the settings say
  to stop. -/
  fails : ∀ failure, .fail failure ∈ moves ↔
    c.onFailure = [] ∧ (∀ k ≤ c.command.retries, (outputs k).passed = false) ∧
    r.runner.settings.onError = .stop ∧
    failure = .commandFailed place c.command.command (outputs c.command.retries).status
      ((outputs c.command.retries).render r.runner.settings.outputLimit)
  /-- If they say to proceed, there is one warning instead. -/
  warns : moves.filterMap Move.warning? =
    if c.onFailure = [] ∧ (∀ k ≤ c.command.retries, (outputs k).passed = false) ∧
        r.runner.settings.onError = .proceed then
      [place.text ++ ": RUN `" ++ c.command.command ++ "` " ++
        (outputs c.command.retries).status]
    else []

theorem moves_keepToRetries (r : Run) (place : StepPlace) (c : CommandStep) (vars : Variables)
    (outputs : Nat → CommandOutput) :
    r.KeepsToRetries place c vars outputs (r.moves place c vars outputs) where
  once hc := by
    unfold moves
    rw [c.retryLimit_of_block hc]
    exact filter_movesWithin 0 vars outputs
  repeated hc := by
    unfold moves
    rw [c.retryLimit_of_no_block hc]
    refine ⟨_, lastAttempt_le, fun k => failed_before_last, ?_, filter_movesWithin _ vars outputs⟩
    cases h : (outputs (lastAttempt c.command.retries outputs)).passed with
    | true => exact .inl rfl
    | false => exact .inr (lastAttempt_of_failed h)
  onSuccess := by
    unfold moves
    rw [mem_movesWithin_iff rfl, onSuccess_mem_lastMoves, getLast?_outputs]
    simp only [Option.some.injEq, exists_eq_left']
  onFailure := by
    unfold moves
    rw [mem_movesWithin_iff rfl, onFailure_mem_lastMoves]
    refine and_congr_right fun hc => ?_
    rw [c.retryLimit_of_block hc]
    exact Iff.rfl
  fails failure := by
    unfold moves
    rw [mem_movesWithin_iff rfl, fail_mem_lastMoves]
    refine and_congr_right fun hc => ?_
    rw [c.retryLimit_of_no_block hc]
    refine (and_congr_right fun h => ?_).trans (and_congr_left' failed_last_iff)
    rw [lastAttempt_of_failed h]
  warns := by
    unfold moves
    rw [warnings_movesWithin, warnings_lastMoves]
    by_cases hc : c.onFailure = []
    · rw [c.retryLimit_of_no_block hc]
      by_cases h : (outputs (lastAttempt c.command.retries outputs)).passed = false
      · have hall := failed_last_iff.mp h
        have hlast := lastAttempt_of_failed h
        rw [hlast] at h ⊢
        exact if_congr (and_congr_right fun _ => and_congr_left' (iff_of_true h hall)) rfl rfl
      · rw [if_neg fun hif => h hif.2.1, if_neg fun hif => h (failed_last_iff.mpr hif.2.1)]
    · rw [if_neg fun hif => hc hif.1, if_neg fun hif => hc hif.1]

/-- What comes of the step is what comes of its moves. -/
theorem reaches_commandStep_iff (r : Run) (place : StepPlace) (turn : TurnPlace)
    (c : CommandStep) (s t : RunState) (xs : List Exchange) (result : Except Ending Unit) :
    (r.executeStep place turn c.step).Reaches s xs result t ↔ ∃ outputs ys,
      xs = ⟨.note (.stepBegan place c.step), ()⟩ :: ys ∧
        r.Performs place c (r.moves place c s.vars outputs) s ys result t := by
  have hcommand (ys : List Exchange) :
      (r.executeCommand c.command (c.followUp r place) place c.command.retries).Reaches s ys
        result t ↔
      ∃ outputs, r.Performs place c (r.moves place c s.vars outputs) s ys result t := by
    unfold moves
    by_cases hc : c.onFailure = []
    · rw [c.retryLimit_of_no_block hc]
      exact executeCommand_retried (List.isEmpty_iff.mpr hc) _
    · rw [c.retryLimit_of_block hc, executeCommand_of_block (List.isEmpty_eq_false_iff.mpr hc)]
      exact executeCommand_once
  have hstep : r.executeStep place turn c.step = (do
      Action.note (.stepBegan place c.step)
      r.executeCommand c.command (c.followUp r place) place c.command.retries) := by
    unfold CommandStep.step executeStep
    rfl
  rw [hstep]
  refine reaches_ask_bind_iff.trans ?_
  constructor
  · rintro ⟨_, ys, rfl, h⟩
    obtain ⟨outputs, h⟩ := (hcommand ys).mp h
    exact ⟨outputs, ys, rfl, h⟩
  · rintro ⟨outputs, ys, rfl, h⟩
    exact ⟨(), ys, rfl, (hcommand ys).mpr ⟨outputs, h⟩⟩

/-- What comes of a step that runs a command is what comes of its moves, for some outputs of the
command; and whatever the outputs are, the moves keep to the retries, the blocks and the settings.
No more of them is made once one has ended the run. -/
theorem command_step_keeps_to_retries (r : Run) (place : StepPlace) (turn : TurnPlace)
    (c : CommandStep) (s t : RunState) (xs : List Exchange) (result : Except Ending Unit) :
    ((r.executeStep place turn c.step).Reaches s xs result t ↔ ∃ outputs ys,
      xs = ⟨.note (.stepBegan place c.step), ()⟩ :: ys ∧
        r.Performs place c (r.moves place c s.vars outputs) s ys result t) ∧
    ∀ outputs, r.KeepsToRetries place c s.vars outputs (r.moves place c s.vars outputs) :=
  ⟨r.reaches_commandStep_iff place turn c s t xs result, r.moves_keepToRetries place c s.vars⟩

/-! ## What the exchanges show -/

theorem speaking_isPath : Course.speaking.IsPath where
  rest _ := ⟨fun _ hx => absurd hx List.not_mem_nil, rfl⟩
  join h h' := ⟨List.forall_mem_append.mpr ⟨h.1, h'.1⟩, h'.2.trans h.2⟩

theorem speaking_ask {request : Request}
    (h : ∀ answer, Exchange.isCommand ⟨request, answer⟩ = false) :
    Takes .speaking (ask request) :=
  takes_ask fun answer _ => ⟨List.forall_mem_singleton.mpr (h answer), rfl⟩

theorem speaking_tends : TendsSessions fun _ a => Takes .speaking a where
  toIsTrait := speaking_isPath.isTrait
  asks {request} hr := by
    cases request with
    | create | destroy | stats => exact speaking_ask fun _ => rfl
    | _ => cases hr
  changes h := takes_modify fun s =>
    ⟨fun _ hx => absurd hx List.not_mem_nil, congrArg RunReport.warnings (h s).1⟩

theorem takesTurns_speaking (r : Run) (place : StepPlace) :
    r.TakesTurns place fun _ a => Takes .speaking a where
  toIsTrait := speaking_isPath.isTrait
  exchanges := speaking_isPath.exchange
    (fun _ _ _ => ⟨fun _ hx => absurd hx List.not_mem_nil, rfl⟩) speaking_tends
    (speaking_ask fun _ => rfl) (fun _ => speaking_ask fun _ => rfl)
    (fun _ _ _ => speaking_ask fun _ => rfl)
    fun _ _ _ _ h => ⟨fun _ hx => absurd hx List.not_mem_nil, h⟩
  compacts := takes_bind speaking_isPath (speaking_tends.liveSession r) fun _ =>
    speaking_tends.compactNow (speaking_ask fun _ => rfl) place

theorem sendTurn_speaks {r : Run} {place : StepPlace} {prompt : Text} {s t : RunState}
    {xs : List Exchange} {result : Except Ending Unit}
    (h : (r.sendTurn prompt place).Reaches s xs result t) :
    (∀ x ∈ xs, x.isCommand = false) ∧ t.report.warnings = s.report.warnings :=
  (h.takes ((r.takesTurns_speaking place).sendTurn prompt)).1

/-- How the executions of a command follow one another, if it may be tried again `limit` times. -/
inductive Tries (r : Run) (place : StepPlace) (c : CommandStep) (vars : Variables) :
    (limit : Nat) → RunState → List Exchange → Except Ending Unit → RunState → Prop
  /-- The last execution is followed by what its output calls for. -/
  | last {limit : Nat} {s t : RunState} {answer : Except CommandError CommandOutput}
      {output : CommandOutput} {xs : List Exchange} {result : Except Ending Unit}
      (executed : r.outputOf place answer = .ok output)
      (done : output.passed = true ∨ limit = 0)
      (h : r.Performs place c (r.lastMoves place c output) s xs result t) :
    Tries r place c vars limit s (⟨.command r.runner c.command.command, answer⟩ :: xs) result t
  /-- Any other one has failed, and one turn is sent before the next. -/
  | again {limit : Nat} {s t u : RunState} {answer : Except CommandError CommandOutput}
      {output : CommandOutput} {turn xs : List Exchange} {result : Except Ending Unit}
      (executed : r.outputOf place answer = .ok output) (failed : output.passed = false)
      (asked : IsTurn r.settings place (r.retryText c vars output) turn)
      (unexecuted : ∀ x ∈ turn, x.isCommand = false)
      (unwarned : u.report.warnings = s.report.warnings)
      (rest : Tries r place c vars limit u xs result t) :
    Tries r place c vars (limit + 1) s
      (⟨.command r.runner c.command.command, answer⟩ :: (turn ++ xs)) result t
  /-- The run ends in that turn. -/
  | stopped {limit : Nat} {s t : RunState} {answer : Except CommandError CommandOutput}
      {output : CommandOutput} {turn : List Exchange} {ending : Ending}
      (executed : r.outputOf place answer = .ok output) (failed : output.passed = false)
      (asked : IsTurn r.settings place (r.retryText c vars output) turn ∨ MakesWay r.settings turn)
      (unexecuted : ∀ x ∈ turn, x.isCommand = false) :
    Tries r place c vars (limit + 1) s
      (⟨.command r.runner c.command.command, answer⟩ :: turn) (.error ending) t
  /-- The command cannot be executed, and the run ends. -/
  | refused {limit : Nat} {s : RunState} {answer : Except CommandError CommandOutput}
      {ending : Ending} (refused : r.outputOf place answer = .error ending) :
    Tries r place c vars limit s [⟨.command r.runner c.command.command, answer⟩] (.error ending) s

section

variable {r : Run} {place : StepPlace} {c : CommandStep} {vars : Variables} {s t : RunState}
  {xs : List Exchange} {result : Except Ending Unit}

/-- An execution and the moves after it. -/
theorem performs_execute {output : CommandOutput} {ms : List Move}
    (h : r.Performs place c (.execute output :: ms) s xs result t) :
    ∃ answer ys, xs = ⟨.command r.runner c.command.command, answer⟩ :: ys ∧
      (r.outputOf place answer = .ok output ∧ r.Performs place c ms s ys result t ∨
        ∃ ending, r.outputOf place answer = .error ending ∧ ys = [] ∧ result = .error ending ∧
          t = s) := by
  rcases performs_cons_iff.mp h with ⟨_, zs, u, rfl, ⟨answer, rfl, rfl, houtput⟩, hrest⟩ |
    ⟨ending, rfl, answer, rfl, rfl, hending⟩
  · exact ⟨answer, zs, rfl, .inl ⟨houtput, hrest⟩⟩
  · exact ⟨answer, [], rfl, .inr ⟨ending, hending, rfl, rfl, rfl⟩⟩

theorem tries_of_performs {limit : Nat} {outputs : Nat → CommandOutput}
    (h : r.Performs place c (r.movesWithin place c limit vars outputs) s xs result t) :
    r.Tries place c vars limit s xs result t := by
  induction limit generalizing s xs outputs with
  | zero =>
    obtain ⟨answer, ys, rfl, ⟨houtput, hrest⟩ | ⟨ending, hending, rfl, rfl, rfl⟩⟩ :=
      performs_execute h
    · exact .last houtput (.inr rfl) hrest
    · exact .refused hending
  | succ limit ih =>
    rw [movesWithin_succ] at h
    obtain ⟨answer, ys, rfl, ⟨houtput, hrest⟩ | ⟨ending, hending, rfl, rfl, rfl⟩⟩ :=
      performs_execute h
    · cases hpassed : (outputs 0).passed with
      | true =>
        rw [hpassed, if_pos rfl] at hrest
        exact .last houtput (.inl hpassed) hrest
      | false =>
        rw [hpassed, if_neg Bool.false_ne_true] at hrest
        rcases performs_cons_iff.mp hrest with ⟨turn, zs, u, rfl, hturn, hmore⟩ |
          ⟨ending, rfl, hturn⟩
        · obtain ⟨unexecuted, unwarned⟩ := sendTurn_speaks hturn
          have hasked := (sendTurn_isTurn hturn).resolve_right fun hend => nomatch hend.1
          exact .again houtput hpassed hasked unexecuted unwarned (ih hmore)
        · exact .stopped houtput hpassed ((sendTurn_isTurn hturn).imp_right And.right)
            (sendTurn_speaks hturn).1
    · exact .refused hending

/-- The exchanges of a step that runs a command are those of its executions, one turn that asks for
a retry between any two of them. -/
theorem executions_are_traced {turn : TurnPlace}
    (h : (r.executeStep place turn c.step).Reaches s xs result t) :
    ∃ ys, xs = ⟨.note (.stepBegan place c.step), ()⟩ :: ys ∧
      r.Tries place c s.vars c.retryLimit s ys result t := by
  obtain ⟨outputs, ys, rfl, hperforms⟩ := (r.reaches_commandStep_iff place turn c s t xs result).mp h
  exact ⟨ys, rfl, tries_of_performs hperforms⟩

/-- What becomes of a failure that no block handles. -/
def unhandled (r : Run) (place : StepPlace) (c : CommandStep) (output : CommandOutput) : Move :=
  match r.runner.settings.onError with
  | .stop => .fail (.commandFailed place c.command.command output.status
      (output.render r.runner.settings.outputLimit))
  | .proceed => .warn (place.text ++ ": RUN `" ++ c.command.command ++ "` " ++ output.status)

/-- A failure without a block ends the run or is warned of, and may be reported before. -/
theorem lastMoves_of_failed {output : CommandOutput} (hblock : c.onFailure = [])
    (hfailed : output.passed = false) : r.lastMoves place c output =
      (if r.runner.settings.output.sends true then
        [.report (output.render r.runner.settings.outputLimit)] else []) ++
      [r.unhandled place c output] := by
  unfold lastMoves unhandled
  dsimp only
  rw [hfailed, hblock]
  cases r.runner.settings.onError <;> rfl

/-- A failure that the step goes on after. -/
theorem performs_warning {output : CommandOutput} (hblock : c.onFailure = [])
    (hfailed : output.passed = false)
    (h : r.Performs place c (r.lastMoves place c output) s xs (.ok ()) t) :
    r.runner.settings.onError = .proceed ∧ (∀ x ∈ xs, x.isCommand = false) ∧
      t.report.warnings = s.report.warnings ++
        [place.text ++ ": RUN `" ++ c.command.command ++ "` " ++ output.status] := by
  rw [lastMoves_of_failed hblock hfailed] at h
  -- The report is a turn, which executes nothing and warns of nothing.
  obtain ⟨ys, zs, u, rfl, unexecuted, unwarned, hlast⟩ : ∃ ys zs u, xs = ys ++ zs ∧
      (∀ x ∈ ys, x.isCommand = false) ∧ u.report.warnings = s.report.warnings ∧
      r.Performs place c [r.unhandled place c output] u zs (.ok ()) t := by
    cases hsends : r.runner.settings.output.sends true with
    | false =>
      rw [hsends] at h
      exact ⟨[], xs, s, rfl, fun _ hx => absurd hx List.not_mem_nil, rfl, h⟩
    | true =>
      rw [hsends] at h
      rcases performs_cons_iff.mp h with ⟨ys, zs, u, rfl, hreport, hrest⟩ | ⟨_, hending, -⟩
      · obtain ⟨unexecuted, unwarned⟩ := sendTurn_speaks hreport
        exact ⟨ys, zs, u, rfl, unexecuted, unwarned, hrest⟩
      · cases hending
  rw [← unwarned]
  unfold unhandled at hlast
  cases honError : r.runner.settings.onError with
  | stop =>
    rw [honError] at hlast
    rcases performs_cons_iff.mp hlast with ⟨_, _, _, -, hdoes, -⟩ | ⟨_, hending, -⟩
    · cases (reaches_throw_iff.mp hdoes).2.1
    · cases hending
  | proceed =>
    rw [honError] at hlast
    rcases performs_cons_iff.mp hlast with ⟨_, _, _, rfl, hdoes, hdone⟩ | ⟨_, hending, -⟩
    · obtain ⟨rfl, -, rfl⟩ := reaches_modify_iff.mp hdoes
      cases hdone
      rw [List.append_nil, List.append_nil]
      exact ⟨rfl, unexecuted, rfl⟩
    · cases hending

/-- A step without a block for failures that goes on although its last execution failed adds one
warning to the report, and no more. -/
theorem Tries.warns_once {limit : Nat} {result : Except Ending Unit} (hblock : c.onFailure = [])
    (h : r.Tries place c vars limit s xs result t) (hresult : result = .ok ()) :
    ∃ before answer output since,
      xs = before ++ ⟨.command r.runner c.command.command, answer⟩ :: since ∧
      r.outputOf place answer = .ok output ∧
      (output.passed = false → r.runner.settings.onError = .proceed ∧
        (∀ x ∈ since, x.isCommand = false) ∧
        t.report.warnings = s.report.warnings ++
          [place.text ++ ": RUN `" ++ c.command.command ++ "` " ++ output.status]) := by
  induction h with
  | last executed _ hmoves =>
    subst hresult
    exact ⟨[], _, _, _, rfl, executed, fun hfailed => performs_warning hblock hfailed hmoves⟩
  | @again _ s _ u first _ turn _ _ _ _ _ _ unwarned _ ih =>
    obtain ⟨before, answer, output, since, rfl, houtput, hwarns⟩ := ih hresult
    refine ⟨⟨.command r.runner c.command.command, first⟩ :: (turn ++ before), answer, output, since,
      ?_, houtput, fun hfailed => unwarned ▸ hwarns hfailed⟩
    rw [List.cons_append, List.append_assoc]
  | stopped | refused => cases hresult

end

end Run

namespace CommandStep

/-- A command that is tried again once. -/
def triedTwice : CommandStep where
  command := { command := "make".toList, retries := 1 }
  onFailure := []
  onSuccess := []

/-- The conversation with this one command, which goes on whatever its command comes to. -/
def insistent : Compiled :=
  ⟨{ run := { onError := .proceed, output := .never } }, [triedTwice.step], none⟩

/-- No command can be started; all else is answered as in a still world. -/
def brokenAnswer : (request : Request) → request.Answer
  | .command _ line => .error (.notStarted line .notFound)
  | request => stillAnswer .empty request

/-- Both executions fail: one prompt is sent between them, and one warning is left behind. -/
theorem failure_is_retried_once : ∃ r s,
    Run.prepare (.ofCompiled insistent) patientOptions = .ok (r, s) ∧
    let run := (r.executeStep ⟨0, 0⟩ .inBlock triedTwice.step s).run
      (fun request w => (brokenAnswer request, w)) ()
    run.1.1.isOk ∧ (run.2.1.filter Exchange.isCommand).length = 2 ∧
      (sentPrompts run.2.1).length = 1 ∧ run.1.2.report.warnings.length = 1 := by
  have hp : Run.prepare (.ofCompiled insistent) patientOptions = .ok (_, _) := rfl
  refine ⟨_, _, hp, ?_, ?_, ?_, ?_⟩
  · decide +kernel
  · decide +kernel
  · decide +kernel
  · decide +kernel

end CommandStep

end ConversationFlow

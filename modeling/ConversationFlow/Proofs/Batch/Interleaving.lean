import ConversationFlow.Batch.Dispatch
import ConversationFlow.Proofs.Running.Reaching

/-!
# Interleavings of a batch

The scheduler and the tasks of the started items take turns in any order, and whatever is asked in
a turn may be answered in any way. `Batch.Turns` is one turn with its exchanges, and
`Batch.Interleaves` is any number of them from a configuration on; what holds of every
interleaving holds of every `Batch.play` (`Batch.interleaves_of_play`), whatever answers and
whoever moves. What a turn can do is said once, in `SchedulerTurn` and `TaskTurn`. No order of
turns is preferred, and no fairness is assumed.
-/

namespace ConversationFlow

/-- The turns that were taken, each with its exchanges. -/
abbrev BatchHistory := List (BatchMove × List Exchange)

namespace BatchHistory

/-- All that was exchanged, in order. -/
def exchanges (history : BatchHistory) : List Exchange := history.flatMap (·.2)

/-- What the task of an item exchanged. -/
def exchangesOf (history : BatchHistory) (index : Nat) : List Exchange :=
  (history.filter fun turn => turn.1 = .task index).flatMap (·.2)

variable {history later : BatchHistory} {index : Nat} {xs : List Exchange}

theorem exchanges_append :
    exchanges (history ++ later) = exchanges history ++ exchanges later := List.flatMap_append

theorem exchanges_singleton {move : BatchMove} : exchanges [(move, xs)] = xs :=
  List.flatMap_singleton _ _

theorem exchangesOf_append :
    exchangesOf (history ++ later) index =
      exchangesOf history index ++ exchangesOf later index := by
  simp only [exchangesOf, List.filter_append, List.flatMap_append]

theorem exchangesOf_task : exchangesOf [(.task index, xs)] index = xs := by
  simp [exchangesOf]

theorem exchangesOf_other {move : BatchMove} (h : move ≠ .task index) :
    exchangesOf [(move, xs)] index = [] := by
  simp [exchangesOf, h]

end BatchHistory

/-- The task of an item, if it was started and has no result yet. -/
def BatchConfiguration.task? (c : BatchConfiguration) (index : Nat) : Option Task :=
  c.tasks.find? fun k => k.index = index

namespace Batch

variable {b : Batch} {c d : BatchConfiguration} {s t : BatchState} {xs : List Exchange}

/-! ## What a turn can do -/

/-- A turn of the scheduler. -/
inductive SchedulerTurn (b : Batch) (c : BatchConfiguration) :
    List Exchange → BatchConfiguration → Prop where
  | close (idle : c.scheduler = .idle) (last : b.items[c.started]? = none) :
      SchedulerTurn b c [] { c with scheduler := .ended }
  | refuse {item : BatchItem} (idle : c.scheduler = .idle) (next : b.items[c.started]? = some item)
      (room : c.tasks.length < b.limit) (halted : c.state.isHalted = true) :
      SchedulerTurn b c [] { c with scheduler := .ended }
  | accept {item : BatchItem} (idle : c.scheduler = .idle) (next : b.items[c.started]? = some item)
      (room : c.tasks.length < b.limit) (goesOn : c.state.isHalted = false) :
      SchedulerTurn b c [] { c with scheduler := .admitted }
  | halt {item : BatchItem} (admitted : c.scheduler = .admitted)
      (next : b.items[c.started]? = some item) (files : FileSystem)
      (stop : (b.stopRequest files).isSome = true) :
      SchedulerTurn b c [⟨.files, files⟩]
        { c with state := { c.state with isHalted := true }, scheduler := .ended }
  | start {item : BatchItem} (admitted : c.scheduler = .admitted)
      (next : b.items[c.started]? = some item) (files : FileSystem)
      (noStop : (b.stopRequest files).isSome = false) :
      SchedulerTurn b c [⟨.files, files⟩]
        { c with
          scheduler := .idle
          started := c.started + 1
          tasks := c.tasks ++ [{ index := c.started, item }] }

/-- The board after a change of a row, written by the exchanges. -/
def ShowsRow (s : BatchState) (index : Nat) (status : ItemStatus) (output : Option Path)
    (duration : Option Duration) (xs : List Exchange) (t : BatchState) : Prop :=
  (writeBoard (s.board.update index status output duration)).Reaches xs () ∧
    t = { s with board := s.board.update index status output duration }

/-- A turn of a task, with the state and the task after it. -/
inductive TaskTurn (b : Batch) (s : BatchState) (k : Task) :
    List Exchange → BatchState → Option Task → Prop where
  | begin {xs : List Exchange} {t : BatchState} (phase : k.phase = .waiting)
      (shows : ShowsRow s k.index .running none none xs t) :
      TaskTurn b s k xs t (some { k with phase := .talking (b.instanceOf k.item) })
  | talk {request : Request} {next : request.Answer → Dialogue ItemResult}
      (phase : k.phase = .talking (.ask request next)) (answer : request.Answer) :
      TaskTurn b s k [⟨request, answer⟩] s (some { k with phase := .talking (next answer) })
  | conclude {r : ItemResult} (phase : k.phase = .talking (.done r)) :
      TaskTurn b s k [] (b.conclude s r) (some { k with phase := .ended r })
  | post {r : ItemResult} {xs : List Exchange} {t : BatchState} (phase : k.phase = .ended r)
      (shows : ShowsRow s k.index r.status r.output r.duration xs t) :
      TaskTurn b s k xs t (some { k with phase := .shown r })
  | settle {r : ItemResult} (phase : k.phase = .shown r) :
      TaskTurn b s k [] (settle s k.index r) none

theorem reaches_showRow_iff {index : Nat} {status : ItemStatus} {output : Option Path}
    {duration : Option Duration} :
    (showRow s index status output duration).Reaches xs t ↔
      ShowsRow s index status output duration xs t := by
  constructor
  · intro h
    obtain ⟨ys, zs, ⟨⟩, rfl, hw, hdone⟩ := Dialogue.reaches_bind_iff.mp h
    obtain ⟨rfl, rfl⟩ := Dialogue.reaches_done_iff.mp hdone
    rw [List.append_nil]
    exact ⟨hw, rfl⟩
  · rintro ⟨hw, rfl⟩
    exact Dialogue.reaches_bind_iff.mpr ⟨xs, [], (), (List.append_nil xs).symm, hw, .done _⟩

/-- The turns of a task are those of `TaskTurn`, one for each phase. -/
theorem reaches_taskTurn_iff {k : Task} {after : Option Task} :
    (b.taskTurn s k).Reaches xs (t, after) ↔ TaskTurn b s k xs t after := by
  constructor
  · intro h
    unfold taskTurn at h
    split at h
    · next phase =>
      obtain ⟨ys, zs, u, rfl, hs, hdone⟩ := Dialogue.reaches_bind_iff.mp h
      obtain ⟨rfl, heq⟩ := Dialogue.reaches_done_iff.mp hdone
      cases heq
      rw [List.append_nil]
      exact .begin phase (reaches_showRow_iff.mp hs)
    · next phase =>
      rcases h with _ | ⟨answer, hdone⟩
      obtain ⟨rfl, heq⟩ := Dialogue.reaches_done_iff.mp hdone
      cases heq
      exact .talk phase answer
    · next phase =>
      obtain ⟨rfl, heq⟩ := Dialogue.reaches_done_iff.mp h
      cases heq
      exact .conclude phase
    · next phase =>
      obtain ⟨ys, zs, u, rfl, hs, hdone⟩ := Dialogue.reaches_bind_iff.mp h
      obtain ⟨rfl, heq⟩ := Dialogue.reaches_done_iff.mp hdone
      cases heq
      rw [List.append_nil]
      exact .post phase (reaches_showRow_iff.mp hs)
    · next phase =>
      obtain ⟨rfl, heq⟩ := Dialogue.reaches_done_iff.mp h
      cases heq
      exact .settle phase
  · intro h
    unfold taskTurn
    cases h with
    | begin phase shows =>
      rw [phase]
      exact Dialogue.reaches_bind_iff.mpr
        ⟨xs, [], t, (List.append_nil xs).symm, reaches_showRow_iff.mpr shows, .done _⟩
    | talk phase answer =>
      rw [phase]
      exact .ask answer (.done _)
    | conclude phase =>
      rw [phase]
      exact .done _
    | post phase shows =>
      rw [phase]
      exact Dialogue.reaches_bind_iff.mpr
        ⟨xs, [], t, (List.append_nil xs).symm, reaches_showRow_iff.mpr shows, .done _⟩
    | settle phase =>
      rw [phase]
      exact .done _

theorem reaches_files (files : FileSystem) :
    (Dialogue.ask .files .done).Reaches [⟨.files, files⟩] files :=
  @Dialogue.Reaches.ask FileSystem .files .done files [] files (.done files)

/-- The turns of the scheduler are those of `SchedulerTurn`. -/
theorem reaches_schedulerTurn_iff :
    (∃ turn, b.schedulerTurn c = some turn ∧ turn.Reaches xs d) ↔ SchedulerTurn b c xs d := by
  constructor
  · rintro ⟨turn, hturn, h⟩
    unfold schedulerTurn at hturn
    split at hturn
    · cases hturn
    · next idle last =>
      cases hturn
      obtain ⟨rfl, rfl⟩ := Dialogue.reaches_done_iff.mp h
      exact .close idle last
    · next idle next =>
      split at hturn
      · cases hturn
      · next room =>
        cases hturn
        obtain ⟨rfl, rfl⟩ := Dialogue.reaches_done_iff.mp h
        cases halted : c.state.isHalted with
        | true => exact .refuse idle next (Nat.lt_of_not_le room) halted
        | false => exact .accept idle next (Nat.lt_of_not_le room) halted
    · cases hturn
    · next admitted next =>
      cases hturn
      rcases h with _ | ⟨files, hrest⟩
      change Dialogue.Reaches (if (b.stopRequest files).isSome = true then _ else _) _ _ at hrest
      split at hrest
      · next stop =>
        obtain ⟨rfl, rfl⟩ := Dialogue.reaches_done_iff.mp hrest
        exact .halt admitted next files stop
      · next noStop =>
        obtain ⟨rfl, rfl⟩ := Dialogue.reaches_done_iff.mp hrest
        exact .start admitted next files (eq_false_of_ne_true noStop)
  · intro h
    unfold schedulerTurn
    cases h with
    | close idle last =>
      rw [idle, last]
      exact ⟨_, rfl, .done _⟩
    | refuse idle next room halted =>
      rw [idle, next]
      refine ⟨_, if_neg (Nat.not_le_of_lt room), ?_⟩
      rw [if_pos halted]
      exact .done _
    | accept idle next room goesOn =>
      rw [idle, next]
      refine ⟨_, if_neg (Nat.not_le_of_lt room), ?_⟩
      rw [if_neg (ne_true_of_eq_false goesOn)]
      exact .done _
    | halt admitted next files stop =>
      rw [admitted, next]
      refine ⟨_, rfl, Dialogue.reaches_bind_iff.mpr
        ⟨[_], [], files, rfl, reaches_files files, ?_⟩⟩
      rw [if_pos stop]
      exact .done _
    | start admitted next files noStop =>
      rw [admitted, next]
      refine ⟨_, rfl, Dialogue.reaches_bind_iff.mpr
        ⟨[_], [], files, rfl, reaches_files files, ?_⟩⟩
      rw [if_neg (ne_true_of_eq_false noStop)]
      exact .done _

/-! ## Any number of turns -/

/-- A turn of a party, with its exchanges and the configuration after it. -/
def Turns (b : Batch) (c : BatchConfiguration) (move : BatchMove) (xs : List Exchange)
    (d : BatchConfiguration) : Prop :=
  ∃ turn, b.turn c move = some turn ∧ turn.Reaches xs d

/-- Turns in any order lead from one configuration to another. -/
inductive Interleaves (b : Batch) (c : BatchConfiguration) :
    BatchHistory → BatchConfiguration → Prop where
  | start : Interleaves b c [] c
  | turn {history : BatchHistory} {d e : BatchConfiguration} {move : BatchMove}
      {xs : List Exchange} (h : Interleaves b c history d) (turns : b.Turns d move xs e) :
      Interleaves b c (history ++ [(move, xs)]) e

theorem turns_scheduler_iff : b.Turns c .scheduler xs d ↔ SchedulerTurn b c xs d :=
  reaches_schedulerTurn_iff

theorem turns_task_iff {index : Nat} : b.Turns c (.task index) xs d ↔
    ∃ k t after, c.task? index = some k ∧ TaskTurn b c.state k xs t after ∧
      d = { c with state := t, tasks := replaceTask c.tasks index after } := by
  constructor
  · rintro ⟨turn, hturn, h⟩
    obtain ⟨k, hk, rfl⟩ := Option.map_eq_some_iff.mp hturn
    obtain ⟨ys, zs, ⟨t, after⟩, rfl, hs, hdone⟩ := Dialogue.reaches_bind_iff.mp h
    obtain ⟨rfl, rfl⟩ := Dialogue.reaches_done_iff.mp hdone
    rw [List.append_nil]
    exact ⟨k, t, after, hk, reaches_taskTurn_iff.mp hs, rfl⟩
  · rintro ⟨k, t, after, hk, hs, rfl⟩
    refine ⟨_, Option.map_eq_some_iff.mpr ⟨k, hk, rfl⟩, ?_⟩
    exact Dialogue.reaches_bind_iff.mpr
      ⟨xs, [], (t, after), (List.append_nil xs).symm, reaches_taskTurn_iff.mpr hs, .done _⟩

theorem Interleaves.trans {history later : BatchHistory} {e : BatchConfiguration}
    (h : b.Interleaves c history d) (h' : b.Interleaves d later e) :
    b.Interleaves c (history ++ later) e := by
  induction h' with
  | start =>
    rw [List.append_nil]
    exact h
  | turn _ turns ih =>
    rw [← List.append_assoc]
    exact .turn ih turns

theorem Turns.interleaves {move : BatchMove} (h : b.Turns c move xs d) :
    b.Interleaves c [(move, xs)] d := .turn .start h

theorem Interleaves.split {history later : BatchHistory} {e : BatchConfiguration}
    (h : b.Interleaves c (history ++ later) e) :
    ∃ d, b.Interleaves c history d ∧ b.Interleaves d later e := by
  generalize hall : history ++ later = all at h
  induction h generalizing later with
  | start =>
    obtain ⟨rfl, rfl⟩ := List.append_eq_nil_iff.mp hall
    exact ⟨c, .start, .start⟩
  | @turn before d e move xs h turns ih =>
    -- The last turn of all is the last one of `later`, if that has any.
    rcases List.eq_nil_or_concat later with rfl | ⟨front, last, rfl⟩
    · rw [List.append_nil] at hall
      rw [hall]
      exact ⟨e, .turn h turns, .start⟩
    · rw [List.concat_eq_append, ← List.append_assoc] at hall
      obtain ⟨hfront, hlast⟩ := List.append_inj' hall rfl
      obtain ⟨mid, hbefore, hafter⟩ := ih hfront
      obtain rfl := List.singleton_inj.mp hlast
      rw [List.concat_eq_append]
      exact ⟨mid, hbefore, .turn hafter turns⟩

theorem Interleaves.eq_of_nil (h : b.Interleaves c [] d) : d = c := by
  generalize hnil : ([] : BatchHistory) = history at h
  cases h with
  | start => rfl
  | turn => cases (List.append_eq_nil_iff.mp hnil.symm).2

theorem Interleaves.turns_of_single {move : BatchMove} (h : b.Interleaves c [(move, xs)] d) :
    b.Turns c move xs d := by
  generalize hone : [(move, xs)] = history at h
  cases h with
  | start => cases hone
  | @turn before mid _ _ _ h turns =>
    have hone : [] ++ [(move, xs)] = before ++ [(_, _)] := hone
    obtain ⟨rfl, hlast⟩ := List.append_inj' hone rfl
    obtain ⟨rfl, rfl⟩ := Prod.mk.inj (List.singleton_inj.mp hlast)
    rwa [h.eq_of_nil] at turns

/-- The configurations around one of the turns. -/
theorem Interleaves.split_turn {before later : BatchHistory} {move : BatchMove}
    {e : BatchConfiguration} (h : b.Interleaves c (before ++ (move, xs) :: later) e) :
    ∃ d₁ d₂, b.Interleaves c before d₁ ∧ b.Turns d₁ move xs d₂ ∧ b.Interleaves d₂ later e := by
  obtain ⟨d₁, hbefore, hrest⟩ := h.split
  rw [← List.singleton_append] at hrest
  obtain ⟨d₂, hturn, hlater⟩ := hrest.split
  exact ⟨d₁, d₂, hbefore, hturn.turns_of_single, hlater⟩

/-- Playing moves in order against a world is one of the interleavings. -/
theorem interleaves_of_play {σ : Type} (answering : Dialogue.Answering σ) (moves : List BatchMove)
    (c : BatchConfiguration) (w : σ) :
    b.Interleaves c (b.play answering moves c w).1 (b.play answering moves c w).2.1 := by
  induction moves generalizing c w with
  | nil => exact .start
  | cons move rest ih =>
    unfold play
    split
    · exact ih c w
    · next turn hturn =>
      have hone : b.Turns c move (turn.run answering w).2.1 (turn.run answering w).1 :=
        ⟨turn, hturn, Dialogue.reaches_of_run answering turn w⟩
      exact hone.interleaves.trans (ih _ _)

end Batch

end ConversationFlow

import ConversationFlow.Proofs.Batch.Standing
import Mathlib.Logic.Hydra
import Mathlib.Order.WellFounded
import Mathlib.Tactic.Abel

/-!
# A batch comes to its end

As long as a batch is not over, some party has a turn; and no interleaving goes on forever, since
each dialogue is done after finitely many requests. Which turns are taken is left open: whoever
moves, the items that are left and then the phases of the tasks come down. That an agent or a
command answers at all is not established here: a turn is taken when its answer is there.
-/

namespace ConversationFlow

/-- The loop has ended, and no task is left. -/
def BatchConfiguration.IsOver (c : BatchConfiguration) : Prop :=
  c.scheduler = .ended ∧ c.tasks = []

/-- The phase after a turn, unless the task is over. -/
inductive Phase.Follows : Phase → Phase → Prop where
  | begin (d : Dialogue ItemResult) : Follows (.talking d) .waiting
  | talk {request : Request} {next : request.Answer → Dialogue ItemResult}
      (answer : request.Answer) : Follows (.talking (next answer)) (.talking (.ask request next))
  | conclude (r : ItemResult) : Follows (.ended r) (.talking (.done r))
  | post (r : ItemResult) : Follows (.shown r) (.ended r)

theorem Phase.acc_shown (r : ItemResult) : Acc Follows (.shown r) := by
  refine .intro _ fun after h => ?_
  cases h

theorem Phase.acc_ended (r : ItemResult) : Acc Follows (.ended r) := by
  refine .intro _ fun after h => ?_
  cases h
  exact acc_shown r

theorem Phase.acc_talking (d : Dialogue ItemResult) : Acc Follows (.talking d) := by
  induction d with
  | done r =>
    refine .intro _ fun after h => ?_
    cases h
    exact acc_ended r
  | ask request next ih =>
    refine .intro _ fun after h => ?_
    cases h with
    | talk answer => exact ih answer

theorem Phase.follows_wellFounded : WellFounded Follows := by
  refine ⟨fun phase => ?_⟩
  cases phase with
  | waiting =>
    refine .intro _ fun after h => ?_
    cases h
    exact acc_talking _
  | talking d => exact acc_talking d
  | ended r => exact acc_ended r
  | shown r => exact acc_shown r

namespace Batch

variable {b : Batch} {c d : BatchConfiguration} {s t : BatchState} {xs : List Exchange}
  {history : BatchHistory}

/-- While a batch is not over, the scheduler or a task has a turn. -/
theorem Sound.proceeds (h : b.Sound history c) (hover : ¬c.IsOver) :
    ∃ move turn, b.turn c move = some turn := by
  cases htasks : c.tasks with
  | cons k rest =>
    have hk : c.task? k.index = some k := task?_of_mem h.nodup (by rw [htasks]; exact .head rest)
    exact ⟨.task k.index, _, Option.map_eq_some_iff.mpr ⟨k, hk, rfl⟩⟩
  | nil =>
    refine ⟨.scheduler, ?_⟩
    have hroom : ¬b.limit ≤ 0 := Nat.not_le_of_lt b.limit_pos
    change ∃ turn, b.schedulerTurn c = some turn
    unfold Batch.schedulerTurn
    cases hs : c.scheduler with
    | ended => exact absurd ⟨hs, htasks⟩ hover
    | admitted =>
      rw [List.getElem?_eq_getElem (h.admitted hs).2]
      exact ⟨_, rfl⟩
    | idle =>
      cases hnext : b.items[c.started]? with
      | none => exact ⟨_, rfl⟩
      | some item =>
        rw [htasks]
        exact ⟨_, if_neg hroom⟩

/-! ## No interleaving goes on forever -/

/-- What the scheduler still has to do. -/
def schedulerLeft (b : Batch) (c : BatchConfiguration) : Nat :=
  3 * (b.items.length - c.started) +
    match c.scheduler with
    | .idle => 2
    | .admitted => 1
    | .ended => 0

/-- How far the tasks are. -/
def phases (tasks : List Task) : Multiset Phase := (tasks.map (·.phase) : List Phase)

theorem phases_append (front back : List Task) :
    phases (front ++ back) = phases front + phases back := by
  unfold phases
  rw [List.map_append, Multiset.coe_add]

theorem phases_cons (k : Task) (rest : List Task) :
    phases (k :: rest) = {k.phase} + phases rest := phases_append [k] rest

theorem SchedulerTurn.left_lt (turn : SchedulerTurn b c xs d) :
    b.schedulerLeft d < b.schedulerLeft c := by
  cases turn with
  | close idle | refuse idle | accept idle =>
    unfold schedulerLeft
    rw [idle]
    simp
  | halt admitted =>
    unfold schedulerLeft
    rw [admitted]
    simp
  | start admitted next =>
    have hlt := lt_length_of_getElem? next
    unfold schedulerLeft
    rw [admitted]
    dsimp only
    omega

theorem TaskTurn.follows {k a : Task} {after : Option Task} (turn : TaskTurn b s k xs t after)
    (ha : a ∈ after) : a.phase.Follows k.phase := by
  cases turn with
  | begin phase => cases ha; rw [phase]; exact .begin _
  | talk phase answer => cases ha; rw [phase]; exact .talk answer
  | conclude phase => cases ha; rw [phase]; exact .conclude _
  | post phase => cases ha; rw [phase]; exact .post _
  | settle => cases ha

/-- A task makes way for later phases of it, the other tasks stay where they are. -/
theorem TaskTurn.phases_cut {k : Task} {after : Option Task} {index : Nat}
    (turn : TaskTurn b s k xs t after) (hnodup : (c.tasks.map (·.index)).Nodup)
    (hk : c.task? index = some k) :
    Relation.CutExpand Phase.Follows (phases (replaceTask c.tasks index after))
      (phases c.tasks) := by
  obtain ⟨-, rfl⟩ := task?_mem hk
  obtain ⟨front, back, hsplit, -⟩ := (List.find?_eq_some_iff_append.mp hk).2
  rw [hsplit] at hnodup ⊢
  rw [replaceTask_between hnodup]
  refine ⟨phases after.toList, k.phase, ?_, ?_⟩
  · intro phase hphase
    obtain ⟨a, ha, rfl⟩ := List.mem_map.mp (Multiset.mem_coe.mp hphase)
    exact turn.follows (Option.mem_toList.mp ha)
  · simp only [phases_append, phases_cons]
    abel

/-- The items that are left and the phases of the tasks. -/
def left (b : Batch) (c : BatchConfiguration) : Nat × Multiset Phase :=
  (b.schedulerLeft c, phases c.tasks)

theorem left_wellFounded :
    WellFounded (Prod.Lex (· < · : Nat → Nat → Prop) (Relation.CutExpand Phase.Follows)) :=
  WellFounded.prod_lex Nat.lt_wfRel.wf Phase.follows_wellFounded.cutExpand

theorem Sound.left_lt (h : b.Sound history c) {move : BatchMove} (turns : b.Turns c move xs d) :
    Prod.Lex (· < ·) (Relation.CutExpand Phase.Follows) (b.left d) (b.left c) := by
  cases move with
  | scheduler => exact .left _ _ (turns_scheduler_iff.mp turns).left_lt
  | task index =>
    obtain ⟨k, t, after, hk, turn, rfl⟩ := turns_task_iff.mp turns
    exact .right _ (turn.phases_cut h.nodup hk)

/-- No interleaving goes on forever. -/
theorem no_endless_interleaving (run : Nat → BatchConfiguration) (hopening : run 0 = b.opening) :
    ¬∀ n, ∃ move xs, b.Turns (run n) move xs (run (n + 1)) := by
  intro hturns
  have hsound : ∀ n, ∃ history, b.Sound history (run n) := by
    intro n
    induction n with
    | zero =>
      rw [hopening]
      exact ⟨[], sound_opening⟩
    | succ n ih =>
      obtain ⟨history, h⟩ := ih
      obtain ⟨move, xs, turns⟩ := hturns n
      exact ⟨_, h.turn turns⟩
  refine (wellFounded_iff_isEmpty_descending_chain.mp left_wellFounded).false
    ⟨fun n => b.left (run n), fun n => ?_⟩
  obtain ⟨history, h⟩ := hsound n
  obtain ⟨move, xs, turns⟩ := hturns n
  exact h.left_lt turns

end Batch

end ConversationFlow

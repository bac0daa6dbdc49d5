import ConversationFlow.Proofs.Batch.Safety

/-!
# How a batch stops

A failure sets the flag that the loop looks at before each item, unless the options let the batch go
on. By then the loop may have let in one item more; no other is started. Where one instance may run
at a time none has been let in, and so the failure is the last thing that happens. A stop file that
the loop finds ends it at once. How soon the flag is set after the instance has failed is up to its
task: what is said here begins with the turn that sets it.
-/

namespace ConversationFlow

/-- The result of an instance that has ended, as long as its task is there. -/
def Phase.result? : Phase → Option ItemResult
  | .waiting | .talking _ => none
  | .ended r | .shown r => some r

namespace BatchConfiguration

/-- The items that were started, with one that was let in and may be started. -/
def committed (c : BatchConfiguration) : Nat :=
  c.started + if c.scheduler = .admitted then 1 else 0

/-- An instance ended with the result, and its task has taken note of it. -/
def Knows (c : BatchConfiguration) (r : ItemResult) : Prop :=
  (∃ k ∈ c.tasks, k.phase.result? = some r) ∨ r ∈ c.state.results

/-- An instance failed, and its task has taken note of it. -/
def HasFailed (c : BatchConfiguration) : Prop := ∃ r, c.Knows r ∧ r.status = .failed

theorem started_le_committed (c : BatchConfiguration) : c.started ≤ c.committed :=
  Nat.le_add_right _ _

theorem committed_le (c : BatchConfiguration) : c.committed ≤ c.started + 1 := by
  unfold committed
  split <;> omega

theorem committed_eq {c : BatchConfiguration} (h : c.scheduler ≠ .admitted) :
    c.committed = c.started := by
  unfold committed
  rw [if_neg h]
  rfl

end BatchConfiguration

namespace Batch

variable {b : Batch} {c d : BatchConfiguration} {s t : BatchState} {xs : List Exchange}
  {history later : BatchHistory}

/-! ## Behind the flag -/

theorem TaskTurn.stays_halted {k : Task} {after : Option Task} (turn : TaskTurn b s k xs t after)
    (h : s.isHalted = true) : t.isHalted = true := by
  cases turn with
  | begin phase shows => rw [shows.2]; exact h
  | talk => exact h
  | conclude => exact Bool.or_eq_true_iff.mpr (.inl h)
  | post phase shows => rw [shows.2]; exact h
  | settle => exact h

/-- Once the flag is set no item is let in. -/
theorem Turns.halted {move : BatchMove} (turns : b.Turns c move xs d)
    (h : c.state.isHalted = true) : d.state.isHalted = true ∧ d.committed ≤ c.committed := by
  cases move with
  | task index =>
    obtain ⟨k, t, after, -, turn, rfl⟩ := turns_task_iff.mp turns
    exact ⟨turn.stays_halted h, Nat.le_refl _⟩
  | scheduler =>
    cases turns_scheduler_iff.mp turns with
    | close | refuse => exact ⟨h, c.started_le_committed⟩
    | accept idle next room goesOn => exact absurd (goesOn.symm.trans h) Bool.noConfusion
    | halt => exact ⟨rfl, c.started_le_committed⟩
    | start admitted =>
      refine ⟨h, ?_⟩
      unfold BatchConfiguration.committed
      rw [admitted]
      exact Nat.le_refl _

theorem Interleaves.halted (h : b.Interleaves c history d) (hc : c.state.isHalted = true) :
    d.state.isHalted = true ∧ d.committed ≤ c.committed := by
  induction h with
  | start => exact ⟨hc, Nat.le_refl _⟩
  | turn _ turns ih =>
    obtain ⟨hd, hle⟩ := turns.halted ih.1
    exact ⟨hd, Nat.le_trans hle ih.2⟩

/-- At most one item is started once the flag is set. -/
theorem Interleaves.started_le_of_halted (h : b.Interleaves c history d)
    (hc : c.state.isHalted = true) : d.started ≤ c.started + 1 :=
  Nat.le_trans d.started_le_committed (Nat.le_trans (h.halted hc).2 c.committed_le)

/-! ## A loop that has ended -/

theorem Turns.stays_ended {move : BatchMove} (turns : b.Turns c move xs d)
    (h : c.scheduler = .ended) : d.scheduler = .ended ∧ d.started = c.started := by
  cases move with
  | task index =>
    obtain ⟨k, t, after, -, turn, rfl⟩ := turns_task_iff.mp turns
    exact ⟨h, rfl⟩
  | scheduler =>
    cases turns_scheduler_iff.mp turns with
    | close | refuse => exact ⟨rfl, rfl⟩
    | accept idle => exact absurd (idle.symm.trans h) SchedulerPhase.noConfusion
    | halt => exact ⟨rfl, rfl⟩
    | start admitted => exact absurd (admitted.symm.trans h) SchedulerPhase.noConfusion

theorem Interleaves.stays_ended (h : b.Interleaves c history d) (hc : c.scheduler = .ended) :
    d.scheduler = .ended ∧ d.started = c.started := by
  induction h with
  | start => exact ⟨hc, rfl⟩
  | turn _ turns ih =>
    obtain ⟨hd, hstarted⟩ := turns.stays_ended ih.1
    exact ⟨hd, hstarted.trans ih.2⟩

/-- A scheduler that finds a stop file ends the loop. -/
theorem Turns.ended_of_stop {files : FileSystem}
    (turns : b.Turns c .scheduler [⟨.files, files⟩] d)
    (stop : (b.stopRequest files).isSome = true) :
    d.scheduler = .ended ∧ d.started = c.started := by
  generalize hxs : [(⟨.files, files⟩ : Exchange)] = xs at turns
  cases turns_scheduler_iff.mp turns with
  | close | refuse | accept => cases hxs
  | halt => exact ⟨rfl, rfl⟩
  | start admitted next found noStop =>
    obtain ⟨⟩ := hxs
    exact absurd (stop.symm.trans noStop) Bool.noConfusion

/-! ## A failure sets the flag -/

/-- A task gets its result from the turn in which it takes note of it. -/
theorem TaskTurn.result_of_after {k a : Task} {after : Option Task} {r : ItemResult}
    (turn : TaskTurn b s k xs t after) (ha : a ∈ after) (hr : a.phase.result? = some r) :
    k.phase.result? = some r ∨ t = b.conclude s r := by
  cases turn with
  | begin => cases ha; cases hr
  | talk => cases ha; cases hr
  | conclude => cases ha; cases hr; exact .inr rfl
  | post phase => cases ha; rw [phase]; exact .inl hr
  | settle => cases ha

theorem TaskTurn.result_of_mem {k : Task} {after : Option Task} {r : ItemResult}
    (turn : TaskTurn b s k xs t after) (hr : r ∈ t.results) :
    r ∈ s.results ∨ k.phase.result? = some r := by
  cases turn with
  | begin phase shows => rw [shows.2] at hr; exact .inl hr
  | talk => exact .inl hr
  | conclude => exact .inl hr
  | post phase shows => rw [shows.2] at hr; exact .inl hr
  | settle phase =>
    rw [phase]
    rcases List.mem_or_eq_of_mem_set hr with hr | rfl
    · exact .inl hr
    · exact .inr rfl

theorem Turns.knows {move : BatchMove} {r : ItemResult} (turns : b.Turns c move xs d)
    (h : d.Knows r) : c.Knows r ∨ d.state = b.conclude c.state r := by
  cases move with
  | task index =>
    obtain ⟨k, t, after, hk, turn, rfl⟩ := turns_task_iff.mp turns
    have hmem := (task?_mem hk).1
    rcases h with ⟨a, ha, hr⟩ | hr
    · rcases mem_replaceTask ha with ha | ha
      · exact .inl (.inl ⟨a, ha, hr⟩)
      · exact (turn.result_of_after ha hr).imp_left fun hr => .inl ⟨k, hmem, hr⟩
    · rcases turn.result_of_mem hr with hr | hr
      · exact .inl (.inr hr)
      · exact .inl (.inl ⟨k, hmem, hr⟩)
  | scheduler =>
    refine .inl ?_
    cases turns_scheduler_iff.mp turns with
    | close | refuse | accept | halt => exact h
    | start =>
      refine h.imp_left ?_
      rintro ⟨a, ha, hr⟩
      rcases List.mem_append.mp ha with ha | ha
      · exact ⟨a, ha, hr⟩
      · rw [List.mem_singleton.mp ha] at hr
        cases hr

/-- The flag is set once an instance has failed. -/
theorem Interleaves.isHalted_of_hasFailed (h : b.Interleaves b.opening history c)
    (hstops : b.options.continuesOnError = false) (hf : c.HasFailed) : c.state.isHalted = true := by
  induction h with
  | start =>
    obtain ⟨r, ⟨k, hk, -⟩ | hr, hs⟩ := hf
    · cases hk
    · obtain ⟨item, -, rfl⟩ := List.mem_map.mp hr
      cases hs
  | turn _ turns ih =>
    obtain ⟨r, hknows, hs⟩ := hf
    rcases turns.knows hknows with hknows | hconclude
    · exact (turns.halted (ih ⟨r, hknows, hs⟩)).1
    · rw [hconclude]
      unfold conclude
      simp [hs, hstops]

/-! ## One instance at a time -/

/-- An item that was started and has no task has its result. -/
theorem Sound.over_of_no_task (h : b.Sound history c) {index : Nat} (hi : index < c.started)
    (hnone : c.task? index = none) :
    ∃ r, c.state.results[index]? = some r ∧ (r.status = .done ∨ r.status = .failed) := by
  obtain ⟨item, hitem⟩ := h.exists_item_of_started hi
  obtain ⟨row, r, -, hr, stands⟩ := h.stands index item hitem
  rw [hnone, decide_eq_true hi] at stands
  exact ⟨r, hr, stands.of_over.1.result.2⟩

/-- If there is no task and the flag is not set, all items that were started are done. -/
theorem Interleaves.done_of_idle (h : b.Interleaves b.opening history c)
    (hstops : b.options.continuesOnError = false) (htasks : c.tasks = [])
    (hc : c.state.isHalted = false) {index : Nat} (hi : index < c.started) :
    ∃ r, c.state.results[index]? = some r ∧ r.status = .done := by
  obtain ⟨r, hr, hs⟩ := h.sound.over_of_no_task hi (task?_eq_none htasks index)
  refine ⟨r, hr, hs.resolve_right fun hs => ?_⟩
  have hhalted := h.isHalted_of_hasFailed hstops ⟨r, .inr (List.mem_of_getElem? hr), hs⟩
  exact absurd (hc.symm.trans hhalted) Bool.noConfusion

/-- A task has not set the result of its item yet. -/
theorem Sound.pending_of_task (h : b.Sound history c) {index : Nat} {k : Task} {r : ItemResult}
    (hk : c.task? index = some k) (hr : c.state.results[index]? = some r) :
    r.status = .pending := by
  obtain ⟨hmem, rfl⟩ := task?_mem hk
  obtain ⟨row, result, -, hresult, stands⟩ := h.stands k.index k.item (h.own k hmem).2
  obtain rfl := Option.some_inj.mp (hr.symm.trans hresult)
  rw [hk, Option.map_some] at stands
  exact stands.pending_of_task

section alone

variable (hone : b.limit = 1)
include hone

/-- An item is let in when no other is there and nothing has failed. -/
theorem Interleaves.admitted_alone (h : b.Interleaves b.opening history c)
    (hc : c.scheduler = .admitted) : c.tasks = [] ∧ c.state.isHalted = false := by
  have alone {history c} (h : b.Interleaves b.opening history c) (hc : c.scheduler = .admitted) :
      c.tasks = [] := by
    have hroom := (h.sound.admitted hc).1
    rw [hone] at hroom
    exact List.length_eq_zero_iff.mp (Nat.lt_one_iff.mp hroom)
  refine ⟨alone h hc, ?_⟩
  induction h with
  | start => cases hc
  | @turn history d e move xs h turns ih =>
    cases move with
    | task index =>
      obtain ⟨k, t, after, hk, turn, rfl⟩ := turns_task_iff.mp turns
      have hmem := (task?_mem hk).1
      rw [alone h hc] at hmem
      cases hmem
    | scheduler =>
      cases turns_scheduler_iff.mp turns with
      | accept idle next room goesOn => exact goesOn
      | close | refuse | halt | start => cases hc

theorem Interleaves.committed_eq_started (h : b.Interleaves b.opening history c)
    (hc : c.state.isHalted = true) : c.committed = c.started := by
  refine BatchConfiguration.committed_eq fun hs => ?_
  exact absurd ((h.admitted_alone hone hs).2.symm.trans hc) Bool.noConfusion

/-- Nothing is started once the flag is set. -/
theorem Interleaves.started_eq_of_halted (h : b.Interleaves b.opening history c)
    (hc : c.state.isHalted = true) (later : b.Interleaves c later d) : d.started = c.started := by
  refine Nat.le_antisymm ?_ later.started_mono
  rw [← h.committed_eq_started hone hc]
  exact Nat.le_trans d.started_le_committed (later.halted hc).2

/-- All items but the last one that was started are done. -/
theorem Interleaves.done_before (h : b.Interleaves b.opening history c)
    (hstops : b.options.continuesOnError = false) {index : Nat} (hi : index + 1 < c.started) :
    ∃ r, c.state.results[index]? = some r ∧ r.status = .done := by
  induction h with
  | start => exact absurd hi (Nat.not_lt_zero _)
  | @turn history d e move xs h turns ih =>
    have kept (hm : move ≠ .task index) (hi : index + 1 < d.started) :
        ∃ r, e.state.results[index]? = some r ∧ r.status = .done := by
      rw [(turns.frame hm).2]
      exact ih hi
    cases move with
    | task other =>
      obtain ⟨k, t, after, hk, turn, rfl⟩ := turns_task_iff.mp turns
      refine kept (fun hm => ?_) hi
      obtain rfl := BatchMove.task.inj hm
      obtain ⟨r, hr, hs⟩ := ih hi
      exact absurd (hs.symm.trans (h.sound.pending_of_task hk hr)) ItemStatus.noConfusion
    | scheduler =>
      cases turns_scheduler_iff.mp turns with
      | close | refuse | accept | halt => exact kept BatchMove.noConfusion hi
      | start admitted =>
        -- Another item is started only when the last one has been settled and has not failed.
        obtain ⟨htasks, hhalted⟩ := h.admitted_alone hone admitted
        exact h.done_of_idle hstops htasks hhalted (Nat.lt_of_succ_lt_succ hi)

end alone

/-- Statuses in the order of the items: those done, those failed and those pending. -/
def inRows (done failed pending : Nat) : List ItemStatus :=
  List.replicate done .done ++ (List.replicate failed .failed ++ List.replicate pending .pending)

theorem eq_inRows {l : List ItemStatus} {done failed pending : Nat}
    (hlength : l.length = done + failed + pending)
    (hdone : ∀ i < done, l[i]? = some .done)
    (hfailed : ∀ i, done ≤ i → i < done + failed → l[i]? = some .failed)
    (hpending : ∀ i, done + failed ≤ i → i < l.length → l[i]? = some .pending) :
    l = inRows done failed pending := by
  refine List.ext_getElem? fun i => ?_
  unfold inRows
  by_cases h₁ : i < done
  · rw [hdone i h₁, List.getElem?_append_left (by simpa using h₁), List.getElem?_replicate_of_lt h₁]
  · rw [List.getElem?_append_right (by simpa using h₁), List.length_replicate]
    by_cases h₂ : i < done + failed
    · rw [hfailed i (Nat.le_of_not_lt h₁) h₂, List.getElem?_append_left (by simp; omega),
        List.getElem?_replicate_of_lt (by omega)]
    · rw [List.getElem?_append_right (by simp; omega), List.length_replicate]
      by_cases h₃ : i < l.length
      · rw [hpending i (Nat.le_of_not_lt h₂) h₃, List.getElem?_replicate_of_lt (by omega)]
      · rw [List.getElem?_eq_none (Nat.le_of_not_lt h₃), List.getElem?_eq_none (by simp; omega)]

/-- All that was done comes before the item that failed, if there is one; what comes behind it is
pending. -/
theorem Interleaves.statuses_eq (h : b.Interleaves b.opening history c) (hover : c.IsOver)
    (hone : b.limit = 1) (hstops : b.options.continuesOnError = false) :
    ∃ done failed pending, failed ≤ 1 ∧
      c.state.results.map (·.status) = inRows done failed pending := by
  have hle := h.sound.started_le
  have hlength : (c.state.results.map (·.status)).length = b.items.length :=
    (List.length_map _).trans h.sound.results_length
  have statusOf {index : Nat} {r : ItemResult} {status : ItemStatus}
      (hr : c.state.results[index]? = some r) (hs : r.status = status) :
      (c.state.results.map (·.status))[index]? = some status := by
    rw [List.getElem?_map, hr, Option.map_some, hs]
  have hpending : ∀ i, c.started ≤ i → i < (c.state.results.map (·.status)).length →
      (c.state.results.map (·.status))[i]? = some .pending := by
    intro i hi hlt
    rw [hlength] at hlt
    obtain ⟨row, r, -, hr, stands⟩ := h.sound.stands i _ (List.getElem?_eq_getElem hlt)
    rw [decide_eq_false (Nat.not_lt_of_le hi)] at stands
    obtain ⟨-, -, -, rfl⟩ := stands.of_unstarted
    exact statusOf hr rfl
  have hdone : ∀ i, i + 1 < c.started → (c.state.results.map (·.status))[i]? = some .done := by
    intro i hi
    obtain ⟨r, hr, hs⟩ := h.done_before hone hstops hi
    exact statusOf hr hs
  cases hstarted : c.started with
  | zero =>
    refine ⟨0, 0, b.items.length, Nat.zero_le _, eq_inRows (by omega) nofun ?_ ?_⟩
    · omega
    · intro i _ hlt
      exact hpending i (by omega) hlt
  | succ last =>
    obtain ⟨r, hr, hs | hs⟩ := h.sound.over_of_no_task (by omega) (task?_eq_none hover.2 last)
    · refine ⟨last + 1, 0, b.items.length - (last + 1), Nat.zero_le _,
        eq_inRows (by omega) ?_ (by omega) ?_⟩
      · intro i hi
        rcases Nat.lt_succ_iff_lt_or_eq.mp hi with hi | rfl
        · exact hdone i (by omega)
        · exact statusOf hr hs
      · intro i hi hlt
        exact hpending i (by omega) hlt
    · refine ⟨last, 1, b.items.length - (last + 1), Nat.le_refl _,
        eq_inRows (by omega) ?_ ?_ ?_⟩
      · intro i hi
        exact hdone i (by omega)
      · intro i hle hlt
        obtain rfl : i = last := by omega
        exact statusOf hr hs
      · intro i hi hlt
        exact hpending i (by omega) hlt

/-! ## The stopping as a whole -/

/-- What stops a batch in every interleaving. -/
structure StopsScheduling (b : Batch) : Prop where
  /-- A failure sets the flag. -/
  flagged : ∀ {history c}, b.options.continuesOnError = false →
    b.Interleaves b.opening history c → c.HasFailed → c.state.isHalted = true
  /-- At most one item is started after a failure. -/
  afterFailure : ∀ {history c later d}, b.options.continuesOnError = false →
    b.Interleaves b.opening history c → c.HasFailed → b.Interleaves c later d →
    d.started ≤ c.started + 1
  /-- None is, if one instance may run at a time. -/
  afterFailureAlone : ∀ {history c later d}, b.options.concurrency ≤ 1 →
    b.options.continuesOnError = false → b.Interleaves b.opening history c → c.HasFailed →
    b.Interleaves c later d → d.started = c.started
  /-- The items are then done up to the one that failed and pending from there on. -/
  inOrder : ∀ {history c}, b.options.concurrency ≤ 1 → b.options.continuesOnError = false →
    b.Interleaves b.opening history c → c.IsOver →
    ∃ done failed pending, failed ≤ 1 ∧
      c.state.results.map (·.status) = inRows done failed pending ∧
      c.state.board.rows.map (·.status) = inRows done failed pending
  /-- None is started once the loop has found a stop file, whatever the options are. -/
  afterStopFile : ∀ {history c files d later e}, b.Interleaves b.opening history c →
    b.Turns c .scheduler [⟨.files, files⟩] d → (b.stopRequest files).isSome = true →
    b.Interleaves d later e → e.started = c.started

theorem limit_eq_one (h : b.options.concurrency ≤ 1) : b.limit = 1 := Nat.max_eq_left h

/-- Every batch stops so. -/
theorem stops_scheduling (b : Batch) : b.StopsScheduling where
  flagged hstops h hf := h.isHalted_of_hasFailed hstops hf
  afterFailure hstops h hf hlater :=
    hlater.started_le_of_halted (h.isHalted_of_hasFailed hstops hf)
  afterFailureAlone hone hstops h hf hlater :=
    h.started_eq_of_halted (limit_eq_one hone) (h.isHalted_of_hasFailed hstops hf) hlater
  inOrder hone hstops h hover := by
    obtain ⟨done, failed, pending, hle, hstatuses⟩ :=
      h.statuses_eq hover (limit_eq_one hone) hstops
    refine ⟨done, failed, pending, hle, hstatuses, ?_⟩
    rw [h.sound.rows_eq hover, List.map_map]
    exact hstatuses
  afterStopFile _ turns stop hlater := by
    obtain ⟨hended, hstarted⟩ := turns.ended_of_stop stop
    exact (hlater.stays_ended hended).2.trans hstarted

/-- Three items, one at a time. -/
def threePrompts : Batch := ofPrompts 1 ["a".toList, "b".toList, "c".toList]

/-- The second one fails, and the third is never started. -/
theorem failure_leaves_rest_unstarted : ∃ history c,
    threePrompts.Interleaves threePrompts.opening history c ∧ c.HasFailed ∧ c.started = 2 ∧
      ∀ later d, threePrompts.Interleaves c later d → d.started = 2 := by
  obtain ⟨history, c, reached, hstarted, hany⟩ : ∃ history c,
      threePrompts.Interleaves threePrompts.opening history c ∧ c.started = 2 ∧
        c.state.results.any (·.status = .failed) = true :=
    ⟨_, _, interleaves_of_play aroundPrompts.answer (rounds 3 50) _ beforePrompts,
      by decide +kernel, by decide +kernel⟩
  obtain ⟨r, hr, hs⟩ := List.any_eq_true.mp hany
  have hfailed : c.HasFailed := ⟨r, .inr hr, of_decide_eq_true hs⟩
  refine ⟨history, c, reached, hfailed, hstarted, fun later d hlater => ?_⟩
  rw [← hstarted]
  exact (stops_scheduling threePrompts).afterFailureAlone (Nat.le_refl 1) rfl reached hfailed hlater

end Batch

end ConversationFlow

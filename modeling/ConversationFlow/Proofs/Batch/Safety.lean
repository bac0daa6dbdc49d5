import ConversationFlow.Proofs.Batch.Sequential
import ConversationFlow.Proofs.Running.Lifecycle

/-!
# Safety of the scheduling

Whatever the items and the options are, whoever moves and whatever is answered: never more
instances run than may, the items are started in order, each by a task of its own that alone sets
its row and its result, and when the batch is over every row and every result says what became of
the item's own instance. If nothing stops the loop, all items are started and the results do not
depend on the order of the turns, but for what the instances themselves come to. Instances that
share files or an agent may well come to something else in another order; nothing is said of that.
-/

namespace ConversationFlow

/-- An item was started: it has a task, or its result was set. -/
def BatchConfiguration.HasStarted (c : BatchConfiguration) (index : Nat) : Prop :=
  (∃ k ∈ c.tasks, k.index = index) ∨
    ∃ r, c.state.results[index]? = some r ∧ r.status ≠ .pending

/-- How the status of a row may change. -/
inductive ItemStatus.Advances : ItemStatus → ItemStatus → Prop where
  | begin : Advances .pending .running
  | succeed : Advances .running .done
  | fail : Advances .running .failed

namespace Batch

variable {b : Batch} {c d : BatchConfiguration} {s t : BatchState} {xs ys : List Exchange}
  {history later : BatchHistory} {item : BatchItem} {row : ProgressRow} {r r' : ItemResult}

/-! ## One item -/

theorem Stands.of_unstarted {phase : Option Phase} (h : Stands b item false phase xs row r) :
    phase = none ∧ xs = [] ∧ row = r.row ∧ r = { label := item.label } := by
  cases h
  exact ⟨rfl, rfl, rfl, rfl⟩

theorem Stands.pending_of_task {isStarted : Bool} {phase : Phase}
    (h : Stands b item isStarted (some phase) xs row r) : r.status = .pending := by
  cases h with
  | waiting | talking | ended | shown => rfl

theorem Stands.of_over (h : Stands b item true none xs row r) :
    CameTo b item xs r ∧ row = r.row := by
  cases h with
  | settled came => exact ⟨came, rfl⟩

theorem CameTo.ne_pending (h : CameTo b item xs r) : r.status ≠ .pending := by
  rcases h.result.2 with hs | hs
  · rw [hs]
    exact ItemStatus.noConfusion
  · rw [hs]
    exact ItemStatus.noConfusion

/-- Whether a board is written depends on its file, not on its rows. -/
theorem length_of_writeBoard {board : ProgressBoard} (h : (writeBoard board).Reaches xs ()) :
    xs.length = board.path.toList.length := by
  unfold writeBoard at h
  split at h
  · next hpath =>
    rw [(Dialogue.reaches_done_iff.mp h).1, hpath]
    rfl
  · next hpath =>
    rcases h with _ | ⟨answer, h⟩
    rw [(Dialogue.reaches_done_iff.mp h).1, hpath]
    rfl

theorem WritesBoard.length_eq (h : b.WritesBoard xs) :
    xs.length = b.initial.board.path.toList.length := by
  obtain ⟨board, hpath, h⟩ := h
  rw [← hpath]
  exact length_of_writeBoard h

/-- What a task exchanged decides the result. -/
theorem CameTo.unique (h : CameTo b item xs r) (h' : CameTo b item xs r') : r = r' := by
  obtain @⟨opened, ys, closed, _, opens, reaches, closes⟩ := h
  generalize hxs : opened ++ ys ++ closed = xs at h'
  obtain ⟨opens', reaches', closes'⟩ := h'
  obtain ⟨hfront, -⟩ := List.append_inj' hxs (closes.length_eq.trans closes'.length_eq.symm)
  obtain ⟨-, rfl⟩ := List.append_inj hfront (opens.length_eq.trans opens'.length_eq.symm)
  exact reaches.unique reaches'

/-! ## Which items were started -/

theorem Sound.exists_item (h : b.Sound history c) {index : Nat}
    (hr : c.state.results[index]? = some r) : ∃ item, b.items[index]? = some item := by
  have hlt := (List.getElem?_eq_some_iff.mp hr).1
  rw [h.results_length] at hlt
  exact ⟨_, List.getElem?_eq_getElem hlt⟩

theorem Sound.exists_item_of_started (h : b.Sound history c) {index : Nat}
    (hi : index < c.started) : ∃ item, b.items[index]? = some item :=
  ⟨_, List.getElem?_eq_getElem (Nat.lt_of_lt_of_le hi h.started_le)⟩

/-- The items that were started are the first ones. -/
theorem Sound.hasStarted_iff (h : b.Sound history c) {index : Nat} :
    c.HasStarted index ↔ index < c.started := by
  constructor
  · rintro (⟨k, hk, rfl⟩ | ⟨r, hr, hne⟩)
    · exact (h.own k hk).1
    · obtain ⟨item, hitem⟩ := h.exists_item hr
      obtain ⟨row, result, -, hresult, stands⟩ := h.stands index item hitem
      obtain rfl := Option.some_inj.mp (hr.symm.trans hresult)
      by_contra hstarted
      rw [decide_eq_false hstarted] at stands
      obtain ⟨-, -, -, rfl⟩ := stands.of_unstarted
      exact hne rfl
  · intro hstarted
    obtain ⟨item, hitem⟩ := h.exists_item_of_started hstarted
    obtain ⟨row, result, -, hresult, stands⟩ := h.stands index item hitem
    rw [decide_eq_true hstarted] at stands
    cases htask : c.task? index with
    | some k => exact .inl ⟨k, task?_mem htask⟩
    | none =>
      rw [htask] at stands
      exact .inr ⟨result, hresult, stands.of_over.1.ne_pending⟩

/-- An item that was not started is as it was in the beginning. -/
theorem Sound.untouched (h : b.Sound history c) {index : Nat} (hitem : b.items[index]? = some item)
    (hpending : ¬c.HasStarted index) :
    c.state.board.rows[index]? = some { label := item.label } ∧
      c.state.results[index]? = some { label := item.label } ∧
      history.exchangesOf index = [] := by
  obtain ⟨row, r, hrow, hresult, stands⟩ := h.stands index item hitem
  rw [decide_eq_false (mt h.hasStarted_iff.mpr hpending)] at stands
  obtain ⟨-, hxs, rfl, rfl⟩ := stands.of_unstarted
  exact ⟨hrow, hresult, hxs⟩

/-! ## Rows -/

/-- A turn of a task leaves the status of the row or moves it on. -/
theorem TaskTurn.advances {k : Task} {after : Option Task} {row row' : ProgressRow}
    (turn : TaskTurn b s k xs t after) (h : Stands b k.item true (some k.phase) ys row r)
    (hrow : s.board.rows[k.index]? = some row) (hrow' : t.board.rows[k.index]? = some row') :
    row'.status = row.status ∨ row.status.Advances row'.status := by
  have same (ht : t.board = s.board) : row'.status = row.status := by
    rw [ht, hrow] at hrow'
    rw [Option.some_inj.mp hrow']
  cases turn with
  | talk => exact .inl (same rfl)
  | conclude => exact .inl (same rfl)
  | settle => exact .inl (same rfl)
  | begin phase shows =>
    obtain ⟨-, rfl⟩ := shows
    rw [ProgressBoard.update_row_self hrow] at hrow'
    rw [phase] at h
    cases h
    obtain rfl := Option.some_inj.mp hrow'
    exact .inr .begin
  | @post r _ _ phase shows =>
    obtain ⟨-, rfl⟩ := shows
    rw [ProgressBoard.update_row_self hrow] at hrow'
    rw [phase] at h
    cases h with
    | ended opens reaches =>
      obtain rfl := Option.some_inj.mp hrow'
      change _ ∨ ItemStatus.Advances .running r.status
      rcases (reaches_instanceOf reaches).2 with hs | hs
      · rw [hs]
        exact .inr .succeed
      · rw [hs]
        exact .inr .fail

theorem Sound.advances (h : b.Sound history c) {move : BatchMove} (turns : b.Turns c move xs d)
    {index : Nat} {row row' : ProgressRow} (hrow : c.state.board.rows[index]? = some row)
    (hrow' : d.state.board.rows[index]? = some row') :
    row'.status = row.status ∨ row.status.Advances row'.status := by
  by_cases hm : move = .task index
  · subst hm
    obtain ⟨k, t, after, hk, turn, rfl⟩ := turns_task_iff.mp turns
    obtain ⟨hmem, rfl⟩ := task?_mem hk
    obtain ⟨hstarted, hitem⟩ := h.own k hmem
    obtain ⟨found, result, hfound, -, stands⟩ := h.stands k.index k.item hitem
    obtain rfl := Option.some_inj.mp (hrow.symm.trans hfound)
    rw [hk, decide_eq_true hstarted] at stands
    exact turn.advances stands hrow hrow'
  · rw [(turns.frame hm).1, hrow] at hrow'
    rw [Option.some_inj.mp hrow']
    exact .inl rfl

/-! ## A batch that is over -/

/-- What an item holds in the end: what came of its instance, or nothing if it was not started. -/
structure Holds (b : Batch) (history : BatchHistory) (c : BatchConfiguration) (index : Nat)
    (item : BatchItem) (r : ItemResult) : Prop where
  result : c.state.results[index]? = some r
  row : c.state.board.rows[index]? = some r.row
  came : c.HasStarted index → b.CameTo item (history.exchangesOf index) r ∧
    (r.status = .done ∨ r.status = .failed)
  pending : ¬c.HasStarted index → r = { label := item.label }

theorem Sound.holds (h : b.Sound history c) (hover : c.IsOver) {index : Nat}
    (hitem : b.items[index]? = some item) : ∃ r, b.Holds history c index item r := by
  obtain ⟨row, r, hrow, hresult, stands⟩ := h.stands index item hitem
  rw [task?_eq_none hover.2] at stands
  refine ⟨r, hresult, ?_, ?_, ?_⟩
  · rw [hrow]
    by_cases hstarted : index < c.started
    · rw [decide_eq_true hstarted] at stands
      rw [stands.of_over.2]
    · rw [decide_eq_false hstarted] at stands
      rw [stands.of_unstarted.2.2.1]
  · intro hstarted
    rw [decide_eq_true (h.hasStarted_iff.mp hstarted)] at stands
    exact ⟨stands.of_over.1, stands.of_over.1.result.2⟩
  · intro hpending
    exact Option.some_inj.mp (hresult.symm.trans (h.untouched hitem hpending).2.1)

/-- The board and the results agree, row by row. -/
theorem Sound.rows_eq (h : b.Sound history c) (hover : c.IsOver) :
    c.state.board.rows = c.state.results.map (·.row) := by
  refine List.ext_getElem? fun index => ?_
  rw [List.getElem?_map]
  cases hitem : b.items[index]? with
  | none =>
    have hlength := List.getElem?_eq_none_iff.mp hitem
    rw [List.getElem?_eq_none (by rw [h.rows_length]; exact hlength),
      List.getElem?_eq_none (by rw [h.results_length]; exact hlength)]
    rfl
  | some item =>
    obtain ⟨r, holds⟩ := h.holds hover hitem
    rw [holds.row, holds.result]
    rfl

/-! ## Nothing stops the loop -/

/-- The scheduler found no stop file in any of its turns. -/
def SeesNoStopFile (b : Batch) (history : BatchHistory) : Prop :=
  ∀ files, (.scheduler, [⟨.files, files⟩]) ∈ history → b.stopRequest files = none

theorem TaskTurn.isHalted {k : Task} {after : Option Task} (turn : TaskTurn b s k xs t after)
    (hon : b.options.continuesOnError = true) : t.isHalted = s.isHalted := by
  cases turn with
  | begin phase shows => rw [shows.2]
  | talk => rfl
  | conclude =>
    unfold Batch.conclude
    simp [hon]
  | post phase shows => rw [shows.2]
  | settle => rfl

/-- The loop ends behind the last item. -/
theorem Interleaves.goesOn (h : b.Interleaves b.opening history c)
    (hon : b.options.continuesOnError = true) (hno : b.SeesNoStopFile history) :
    c.state.isHalted = false ∧ (c.scheduler = .ended → b.items.length ≤ c.started) := by
  induction h with
  | start => exact ⟨rfl, SchedulerPhase.noConfusion⟩
  | @turn history d e move xs h turns ih =>
    obtain ⟨hhalted, hended⟩ := ih fun files hf => hno files (List.mem_append_left _ hf)
    cases move with
    | task index =>
      obtain ⟨k, t, after, -, turn, rfl⟩ := turns_task_iff.mp turns
      exact ⟨(turn.isHalted hon).trans hhalted, hended⟩
    | scheduler =>
      cases turns_scheduler_iff.mp turns with
      | close idle last => exact ⟨hhalted, fun _ => List.getElem?_eq_none_iff.mp last⟩
      | refuse idle next room halted => exact absurd (hhalted.symm.trans halted) Bool.noConfusion
      | accept => exact ⟨hhalted, SchedulerPhase.noConfusion⟩
      | halt admitted next files stop =>
        rw [hno files (List.mem_append_right _ (.head _))] at stop
        cases stop
      | start => exact ⟨hhalted, SchedulerPhase.noConfusion⟩

theorem Interleaves.startsAll (h : b.Interleaves b.opening history c) (hover : c.IsOver)
    (hon : b.options.continuesOnError = true) (hno : b.SeesNoStopFile history) :
    c.started = b.items.length :=
  Nat.le_antisymm h.sound.started_le ((h.goesOn hon hno).2 hover.1)

/-- The results are those of the items, one by one. -/
theorem results_eq (h : b.Sound history c) (hover : c.IsOver) (h' : b.Sound later d)
    (hover' : d.IsOver) (hall : c.started = b.items.length) (hall' : d.started = b.items.length)
    (same : ∀ index item r r', b.items[index]? = some item →
      b.CameTo item (history.exchangesOf index) r → b.CameTo item (later.exchangesOf index) r' →
      r = r') : c.state.results = d.state.results := by
  refine List.ext_getElem? fun index => ?_
  cases hitem : b.items[index]? with
  | none =>
    have hlength := List.getElem?_eq_none_iff.mp hitem
    rw [List.getElem?_eq_none (by rw [h.results_length]; exact hlength),
      List.getElem?_eq_none (by rw [h'.results_length]; exact hlength)]
  | some item =>
    have hlt := lt_length_of_getElem? hitem
    obtain ⟨r, holds⟩ := h.holds hover hitem
    obtain ⟨r', holds'⟩ := h'.holds hover' hitem
    have hstarted : c.HasStarted index := h.hasStarted_iff.mpr (by rw [hall]; exact hlt)
    have hstarted' : d.HasStarted index := h'.hasStarted_iff.mpr (by rw [hall']; exact hlt)
    rw [holds.result, holds'.result,
      same index item r r' hitem (holds.came hstarted).1 (holds'.came hstarted').1]

/-! ## The scheduling as a whole -/

/-- What a maintainer relies on in every interleaving of a batch. -/
structure SchedulesSafely (b : Batch) : Prop where
  /-- No more instances run at once than may. -/
  bounded : ∀ {history c}, b.Interleaves b.opening history c →
    c.tasks.length ≤ max 1 b.options.concurrency
  /-- The started items are the first `c.started` of the list. -/
  inOrder : ∀ {history c}, b.Interleaves b.opening history c →
    c.started ≤ b.items.length ∧ ∀ index, c.HasStarted index ↔ index < c.started
  /-- An item has one task at most, which runs that item. -/
  ownTask : ∀ {history c}, b.Interleaves b.opening history c →
    (c.tasks.map (·.index)).Nodup ∧ ∀ k ∈ c.tasks, b.items[k.index]? = some k.item
  /-- An item that was not started is pending and has exchanged nothing. -/
  untouched : ∀ {history c}, b.Interleaves b.opening history c →
    ∀ (index : Nat) (item : BatchItem), b.items[index]? = some item → ¬c.HasStarted index →
      c.state.board.rows[index]? = some { label := item.label } ∧
        c.state.results[index]? = some { label := item.label } ∧
        history.exchangesOf index = []
  /-- Only its own task sets the row and the result of an item. -/
  framed : ∀ {history c move xs d}, b.Interleaves b.opening history c → b.Turns c move xs d →
    ∀ index, move ≠ .task index →
      d.state.board.rows[index]? = c.state.board.rows[index]? ∧
        d.state.results[index]? = c.state.results[index]?
  /-- A row is pending, then running, then done or failed. -/
  advances : ∀ {history c move xs d}, b.Interleaves b.opening history c → b.Turns c move xs d →
    ∀ (index : Nat) (row row' : ProgressRow), c.state.board.rows[index]? = some row →
      d.state.board.rows[index]? = some row' →
      row'.status = row.status ∨ row.status.Advances row'.status
  /-- While the batch is not over, some party has a turn. -/
  proceeds : ∀ {history c}, b.Interleaves b.opening history c → ¬c.IsOver →
    ∃ move turn, b.turn c move = some turn
  /-- The turns come to an end. -/
  ends : ∀ run : Nat → BatchConfiguration, run 0 = b.opening →
    ¬∀ n, ∃ move xs, b.Turns (run n) move xs (run (n + 1))
  /-- In the end each item holds what came of its own instance, on the board as in the results. -/
  returns : ∀ {history c}, b.Interleaves b.opening history c → c.IsOver →
    c.state.results.length = b.items.length ∧ c.state.board.rows.length = b.items.length ∧
      ∀ index item, b.items[index]? = some item → ∃ r, b.Holds history c index item r
  /-- All items are started unless a failure or a stop file is in the way. -/
  startsAll : ∀ {history c}, b.Interleaves b.opening history c → c.IsOver →
    b.options.continuesOnError = true → b.SeesNoStopFile history →
    ∀ index < b.items.length, c.HasStarted index
  /-- The results then depend on those of the items only. -/
  agrees : ∀ {history c later d}, b.Interleaves b.opening history c → c.IsOver →
    b.Interleaves b.opening later d → d.IsOver → b.options.continuesOnError = true →
    b.SeesNoStopFile history → b.SeesNoStopFile later →
    (∀ index item r r', b.items[index]? = some item →
      b.CameTo item (history.exchangesOf index) r → b.CameTo item (later.exchangesOf index) r' →
      r = r') → c.state.results = d.state.results
  /-- The summary of a batch is that of an interleaving which is over. -/
  summarizes : ∀ {xs summary}, b.dialogue.Reaches xs (.ok summary) →
    ∃ files opened history c, b.stopRequest files = none ∧ b.WritesBoard opened ∧
      b.Interleaves b.opening history c ∧ c.IsOver ∧ summary = ⟨b.nonce, c.state.results⟩ ∧
      xs = ⟨.files, files⟩ :: (opened ++ history.exchanges)

/-- Every batch is scheduled safely. -/
theorem schedules_safely (b : Batch) : b.SchedulesSafely where
  bounded h := h.sound.room
  inOrder h := ⟨h.sound.started_le, fun _ => h.sound.hasStarted_iff⟩
  ownTask h := ⟨h.sound.nodup, fun k hk => (h.sound.own k hk).2⟩
  untouched h _ _ := h.sound.untouched
  framed _ turns _ hm := turns.frame hm
  advances h turns _ _ _ := h.sound.advances turns
  proceeds h := h.sound.proceeds
  ends := no_endless_interleaving
  returns h hover :=
    ⟨h.sound.results_length, h.sound.rows_length, fun _ _ => h.sound.holds hover⟩
  startsAll h hover hon hno index hlt := by
    refine h.sound.hasStarted_iff.mpr ?_
    rw [h.startsAll hover hon hno]
    exact hlt
  agrees h hover h' hover' hon hno hno' same :=
    results_eq h.sound hover h'.sound hover' (h.startsAll hover hon hno)
      (h'.startsAll hover' hon hno') same
  summarizes := dialogue_interleaves

/-- An item with one prompt. -/
def onePrompt (label : Text) : BatchItem where
  label
  conversation := .ofCompiled ⟨{}, [.prompt "hi".toList], none⟩

/-- Such items, with the number of them that may run at once. -/
def ofPrompts (concurrency : Nat) (labels : List Text) : Batch where
  base := { cwd := "w" }
  options := { concurrency }
  nonce := "n0".toList
  items := labels.map onePrompt

/-- There are no files, and the agent answers in its first session only. -/
def aroundPrompts : Surroundings Nat where
  agent := Conversation.firstSessionOnly
  host := .bare
  stamp w := (⟨[], []⟩, w)
  now := ⟨[], []⟩
  clock _ := .ofSeconds 0

def beforePrompts : World Nat := ⟨⟨[], [], [], []⟩, 0⟩

/-- Rounds in which the scheduler moves first and then each of the first items. -/
def rounds (items n : Nat) : List BatchMove :=
  (List.replicate n (.scheduler :: (List.range items).map .task)).flatten

def twoPrompts : Batch := ofPrompts 2 ["a".toList, "b".toList]

/-- Two items run at once, and both hold their results in the end. -/
theorem two_prompts_are_scheduled : ∃ history c later d,
    twoPrompts.Interleaves twoPrompts.opening history c ∧ c.tasks.length = 2 ∧
      twoPrompts.Interleaves c later d ∧ d.IsOver ∧
      ∀ index item, twoPrompts.items[index]? = some item →
        ∃ r, twoPrompts.Holds (history ++ later) d index item r := by
  have play (n : Nat) := twoPrompts.interleaves_of_play aroundPrompts.answer (rounds 2 n)
  let first := twoPrompts.play aroundPrompts.answer (rounds 2 4) twoPrompts.opening beforePrompts
  have early := play 4 twoPrompts.opening beforePrompts
  have late := play 40 first.2.1 first.2.2
  have hover : (twoPrompts.play aroundPrompts.answer (rounds 2 40) first.2.1 first.2.2).2.1.IsOver :=
    ⟨by decide +kernel, List.isEmpty_iff.mp (by decide +kernel)⟩
  refine ⟨_, _, _, _, early, ?_, late, hover, ?_⟩
  · decide +kernel
  · exact ((schedules_safely twoPrompts).returns (early.trans late) hover).2.2

end Batch

end ConversationFlow

import ConversationFlow.Proofs.Batch.Interleaving
import Mathlib.Data.List.Nodup

/-!
# Where the items of a batch stand

Between two turns an item is not started yet, or run by its one task, or over, and its row, its
result and what its task exchanged until then go with that (`Batch.Stands`). A turn of a task
changes nothing of the other items, and a turn of the scheduler changes no row and no result
(`Batch.Turns.frame`); so what holds of each item is kept by each turn, and with it the bound on
the tasks (`Batch.Sound`). Boards that cannot be written are no matter here: the rows are those
that the batch holds, not those of a file.
-/

namespace ConversationFlow

/-! ## Rows and tasks of one item -/

/-- The row of a result. -/
def ItemResult.row (r : ItemResult) : ProgressRow where
  label := r.label
  status := r.status
  output := r.output
  duration := r.duration

namespace ProgressBoard

variable {board : ProgressBoard} {index other : Nat} {status : ItemStatus} {output : Option Path}
  {duration : Option Duration} {row : ProgressRow}

theorem update_rows_length :
    (board.update index status output duration).rows.length = board.rows.length :=
  List.length_modify _ _ _

theorem update_row_other (h : other ≠ index) :
    (board.update index status output duration).rows[other]? = board.rows[other]? := by
  exact List.getElem?_modify_ne _ _ h.symm

theorem update_row_self (h : board.rows[index]? = some row) :
    (board.update index status output duration).rows[index]? =
      some { row with
        status, output := output <|> row.output, duration := duration <|> row.duration } := by
  refine (List.getElem?_modify_eq _ _ _).trans ?_
  rw [h]
  rfl

end ProgressBoard

namespace Batch

variable {b : Batch} {c d : BatchConfiguration} {s t : BatchState} {xs : List Exchange}

section replaceTask

variable {tasks : List Task} {index other : Nat} {after : Option Task} {k : Task}

theorem replaceTask_cons_self (h : k.index = index) :
    replaceTask (k :: tasks) index after = after.toList ++ replaceTask tasks index after := by
  rw [replaceTask, List.flatMap_cons, if_pos h]
  rfl

theorem replaceTask_cons_other (h : k.index ≠ index) :
    replaceTask (k :: tasks) index after = k :: replaceTask tasks index after := by
  rw [replaceTask, List.flatMap_cons, if_neg h]
  rfl

theorem replaceTask_of_ne (h : ∀ k ∈ tasks, k.index ≠ index) :
    replaceTask tasks index after = tasks := by
  induction tasks with
  | nil => rfl
  | cons k rest ih =>
    obtain ⟨hk, hrest⟩ := List.forall_mem_cons.mp h
    rw [replaceTask_cons_other hk, ih hrest]

/-- Of tasks with indices of their own just one is replaced. -/
theorem replaceTask_between {front back : List Task}
    (h : ((front ++ k :: back).map (·.index)).Nodup) :
    replaceTask (front ++ k :: back) k.index after = front ++ (after.toList ++ back) := by
  rw [List.map_append, List.map_cons, List.nodup_middle, List.nodup_cons, ← List.map_append] at h
  have hne : ∀ a ∈ front ++ back, a.index ≠ k.index := fun a ha he =>
    h.1 (List.mem_map.mpr ⟨a, ha, he⟩)
  obtain ⟨hfront, hback⟩ := List.forall_mem_append.mp hne
  have hcut : replaceTask (front ++ k :: back) k.index after =
      replaceTask front k.index after ++ replaceTask (k :: back) k.index after :=
    List.flatMap_append
  rw [hcut, replaceTask_of_ne hfront, replaceTask_cons_self rfl, replaceTask_of_ne hback]

theorem mem_replaceTask (h : k ∈ replaceTask tasks index after) : k ∈ tasks ∨ after = some k := by
  obtain ⟨t, ht, hk⟩ := List.mem_flatMap.mp h
  split at hk
  · exact .inr (Option.mem_toList.mp hk)
  · obtain rfl := List.mem_singleton.mp hk
    exact .inl ht

/-- No index is added. -/
theorem map_index_replaceTask (h : ∀ k ∈ after, k.index = index) :
    ((replaceTask tasks index after).map (·.index)).Sublist (tasks.map (·.index)) := by
  induction tasks with
  | nil => exact .slnil
  | cons k rest ih =>
    by_cases hk : k.index = index
    · rw [replaceTask_cons_self hk, List.map_append, List.map_cons, hk]
      cases after with
      | none => exact ih.cons index
      | some a =>
        rw [Option.toList_some, List.map_singleton, h a rfl]
        exact ih.cons_cons index
    · rw [replaceTask_cons_other hk, List.map_cons, List.map_cons]
      exact ih.cons_cons k.index

theorem length_replaceTask_le (h : ∀ k ∈ after, k.index = index) :
    (replaceTask tasks index after).length ≤ tasks.length := by
  have hsublist : ((replaceTask tasks index after).map (·.index)).Sublist (tasks.map (·.index)) :=
    map_index_replaceTask h
  have hle := hsublist.length_le
  rwa [List.length_map, List.length_map] at hle

theorem find?_replaceTask_other (h : ∀ k ∈ after, k.index = index) (hne : other ≠ index) :
    (replaceTask tasks index after).find? (fun k => k.index = other) =
      tasks.find? fun k => k.index = other := by
  induction tasks with
  | nil => rfl
  | cons k rest ih =>
    by_cases hk : k.index = index
    · have hother : k.index ≠ other := fun he => hne (he.symm.trans hk)
      rw [replaceTask_cons_self hk, List.find?_append, ih,
        List.find?_cons_of_neg (by simpa using hother)]
      cases after with
      | none => rfl
      | some a =>
        have ha : a.index ≠ other := fun he => hne (he.symm.trans (h a rfl))
        rw [Option.toList_some, List.find?_cons_of_neg (by simpa using ha)]
        rfl
    · rw [replaceTask_cons_other hk, List.find?_cons, List.find?_cons, ih]

theorem find?_replaceTask_self (h : ∀ k ∈ after, k.index = index) :
    (replaceTask tasks index after).find? (fun k => k.index = index) =
      (tasks.find? fun k => k.index = index).bind fun _ => after := by
  induction tasks with
  | nil => rfl
  | cons k rest ih =>
    by_cases hk : k.index = index
    · rw [replaceTask_cons_self hk, List.find?_append, ih,
        List.find?_cons_of_pos (by simpa using hk)]
      cases after with
      | none => simp
      | some a =>
        rw [Option.toList_some, List.find?_cons_of_pos (by simpa using h a rfl)]
        rfl
    · rw [replaceTask_cons_other hk, List.find?_cons_of_neg (by simpa using hk), ih,
        List.find?_cons_of_neg (by simpa using hk)]

end replaceTask

theorem task?_mem {index : Nat} {k : Task} (h : c.task? index = some k) :
    k ∈ c.tasks ∧ k.index = index := by
  unfold BatchConfiguration.task? at h
  have hindex := List.find?_some h
  exact ⟨List.mem_of_find?_eq_some h, of_decide_eq_true hindex⟩

theorem task?_eq_none (h : c.tasks = []) (index : Nat) : c.task? index = none := by
  unfold BatchConfiguration.task?
  rw [h]
  rfl

theorem task?_of_mem {k : Task} (hd : (c.tasks.map (·.index)).Nodup) (h : k ∈ c.tasks) :
    c.task? k.index = some k := by
  cases hfound : c.task? k.index with
  | none =>
    have hne := List.find?_eq_none.mp hfound k h
    simp at hne
  | some found =>
    obtain ⟨hmem, hindex⟩ := task?_mem hfound
    exact congrArg some (List.inj_on_of_nodup_map hd hmem h hindex)

/-- A turn keeps the index and the item of its task. -/
theorem TaskTurn.keeps {k a : Task} {after : Option Task} (h : TaskTurn b s k xs t after)
    (ha : a ∈ after) : a.index = k.index ∧ a.item = k.item := by
  cases h with
  | settle phase => cases ha
  | begin => cases ha; exact ⟨rfl, rfl⟩
  | talk => cases ha; exact ⟨rfl, rfl⟩
  | conclude => cases ha; exact ⟨rfl, rfl⟩
  | post => cases ha; exact ⟨rfl, rfl⟩

/-! ## A turn leaves the others alone -/

/-- The rows and results of all items but one are the same. -/
structure SameBut (index : Nat) (s t : BatchState) : Prop where
  path : t.board.path = s.board.path
  rows_length : t.board.rows.length = s.board.rows.length
  results_length : t.results.length = s.results.length
  rows : ∀ other, other ≠ index → t.board.rows[other]? = s.board.rows[other]?
  results : ∀ other, other ≠ index → t.results[other]? = s.results[other]?

theorem ShowsRow.sameBut {index : Nat} {status : ItemStatus} {output : Option Path}
    {duration : Option Duration} (h : ShowsRow s index status output duration xs t) :
    SameBut index s t := by
  obtain ⟨-, rfl⟩ := h
  exact ⟨rfl, ProgressBoard.update_rows_length, rfl,
    fun _ => ProgressBoard.update_row_other, fun _ _ => rfl⟩

theorem TaskTurn.sameBut {k : Task} {after : Option Task} (h : TaskTurn b s k xs t after) :
    SameBut k.index s t := by
  cases h with
  | begin _ shows => exact shows.sameBut
  | talk => exact ⟨rfl, rfl, rfl, fun _ _ => rfl, fun _ _ => rfl⟩
  | conclude => exact ⟨rfl, rfl, rfl, fun _ _ => rfl, fun _ _ => rfl⟩
  | post _ shows => exact shows.sameBut
  | settle =>
    exact ⟨rfl, rfl, List.length_set, fun _ _ => rfl, fun _ h => List.getElem?_set_ne h.symm⟩

theorem SchedulerTurn.keeps (h : SchedulerTurn b c xs d) :
    d.state.board = c.state.board ∧ d.state.results = c.state.results := by
  cases h with
  | close | refuse | accept | halt | start => exact ⟨rfl, rfl⟩

/-- A turn of another party changes neither the row nor the result of an item. -/
theorem Turns.frame {move : BatchMove} {index : Nat} (h : b.Turns c move xs d)
    (hm : move ≠ .task index) :
    d.state.board.rows[index]? = c.state.board.rows[index]? ∧
      d.state.results[index]? = c.state.results[index]? := by
  cases move with
  | scheduler =>
    obtain ⟨hboard, hresults⟩ := (turns_scheduler_iff.mp h).keeps
    rw [hboard, hresults]
    exact ⟨rfl, rfl⟩
  | task other =>
    obtain ⟨k, t, after, hk, turn, rfl⟩ := turns_task_iff.mp h
    have hne : index ≠ k.index := by
      rw [(task?_mem hk).2]
      exact fun he => hm (congrArg BatchMove.task he.symm)
    exact ⟨turn.sameBut.rows index hne, turn.sameBut.results index hne⟩

theorem Turns.started_mono {move : BatchMove} (turns : b.Turns c move xs d) :
    c.started ≤ d.started := by
  cases move with
  | task index =>
    obtain ⟨k, t, after, -, turn, rfl⟩ := turns_task_iff.mp turns
    exact Nat.le_refl _
  | scheduler =>
    cases turns_scheduler_iff.mp turns with
    | close | refuse | accept | halt => exact Nat.le_refl _
    | start => exact Nat.le_succ _

theorem Interleaves.started_mono {history : BatchHistory} (h : b.Interleaves c history d) :
    c.started ≤ d.started := by
  induction h with
  | start => exact Nat.le_refl _
  | turn _ turns ih => exact Nat.le_trans ih turns.started_mono

/-- A turn of another party does not touch the task of an item that was started. -/
theorem Turns.task?_other {move : BatchMove} {index : Nat} (h : b.Turns c move xs d)
    (hm : move ≠ .task index) (hstarted : index < c.started) : d.task? index = c.task? index := by
  cases move with
  | task other =>
    obtain ⟨k, t, after, hk, turn, rfl⟩ := turns_task_iff.mp h
    refine find?_replaceTask_other (fun a ha => (turn.keeps ha).1.trans (task?_mem hk).2) ?_
    exact fun he => hm (congrArg BatchMove.task he.symm)
  | scheduler =>
    cases turns_scheduler_iff.mp h with
    | close | refuse | accept | halt => rfl
    | start =>
      unfold BatchConfiguration.task?
      rw [List.find?_append, List.find?_cons_of_neg (by simpa using Nat.ne_of_gt hstarted)]
      exact Option.or_none

/-! ## One item -/

/-- The exchanges of writing the board of a batch, whatever its rows are. -/
def WritesBoard (b : Batch) (xs : List Exchange) : Prop :=
  ∃ board : ProgressBoard, board.path = b.initial.board.path ∧ (writeBoard board).Reaches xs ()

theorem ShowsRow.writesBoard {index : Nat} {status : ItemStatus} {output : Option Path}
    {duration : Option Duration} (h : ShowsRow s index status output duration xs t)
    (hpath : s.board.path = b.initial.board.path) : b.WritesBoard xs :=
  ⟨s.board.update index status output duration, hpath, h.1⟩

/-- The exchanges of a task from its beginning to its end, and the result of its instance. -/
inductive CameTo (b : Batch) (item : BatchItem) : List Exchange → ItemResult → Prop where
  | intro {opened ys closed : List Exchange} {r : ItemResult} (opens : b.WritesBoard opened)
      (reaches : (b.instanceOf item).Reaches ys r) (closes : b.WritesBoard closed) :
      CameTo b item (opened ++ ys ++ closed) r

/-- Where an item stands: whether it was started, how far its task is, what the task exchanged,
the row and the result. -/
inductive Stands (b : Batch) (item : BatchItem) :
    Bool → Option Phase → List Exchange → ProgressRow → ItemResult → Prop where
  | unstarted : Stands b item false none [] { label := item.label } { label := item.label }
  | waiting : Stands b item true (some .waiting) [] { label := item.label } { label := item.label }
  | talking {opened ys : List Exchange} {rest : Dialogue ItemResult}
      (opens : b.WritesBoard opened) (leads : (b.instanceOf item).Leads ys rest) :
      Stands b item true (some (.talking rest)) (opened ++ ys)
        { label := item.label, status := .running } { label := item.label }
  | ended {opened ys : List Exchange} {r : ItemResult}
      (opens : b.WritesBoard opened) (reaches : (b.instanceOf item).Reaches ys r) :
      Stands b item true (some (.ended r)) (opened ++ ys)
        { label := item.label, status := .running } { label := item.label }
  | shown {xs : List Exchange} {r : ItemResult} (came : CameTo b item xs r) :
      Stands b item true (some (.shown r)) xs r.row { label := item.label }
  | settled {xs : List Exchange} {r : ItemResult} (came : CameTo b item xs r) :
      Stands b item true none xs r.row r

/-- An instance is done or it has failed. -/
theorem resultOf_status (label : Text) (result : Except RunFailure RunReport) :
    (BatchItem.resultOf label result).label = label ∧
      ((BatchItem.resultOf label result).status = .done ∨
        (BatchItem.resultOf label result).status = .failed) := by
  cases result with
  | ok report => exact ⟨rfl, .inl rfl⟩
  | error failure => exact ⟨rfl, .inr rfl⟩

theorem reaches_instanceOf {item : BatchItem} {r : ItemResult}
    (h : (b.instanceOf item).Reaches xs r) :
    r.label = item.label ∧ (r.status = .done ∨ r.status = .failed) := by
  obtain ⟨_, _, began, -, -, h⟩ := Dialogue.reaches_bind_iff.mp h
  split at h
  · obtain ⟨_, _, ended, -, -, h⟩ := Dialogue.reaches_bind_iff.mp h
    obtain ⟨-, rfl⟩ := Dialogue.reaches_done_iff.mp h
    exact ⟨rfl, .inr rfl⟩
  · obtain ⟨_, _, result, -, -, h⟩ := Dialogue.reaches_bind_iff.mp h
    obtain ⟨_, _, output, -, -, h⟩ := Dialogue.reaches_bind_iff.mp h
    obtain ⟨_, _, ended, -, -, h⟩ := Dialogue.reaches_bind_iff.mp h
    obtain ⟨-, rfl⟩ := Dialogue.reaches_done_iff.mp h
    exact resultOf_status item.label result

theorem CameTo.result {item : BatchItem} {r : ItemResult} (h : CameTo b item xs r) :
    r.label = item.label ∧ (r.status = .done ∨ r.status = .failed) := by
  obtain ⟨-, reaches, -⟩ := h
  exact reaches_instanceOf reaches

/-- A turn of its task moves an item on. -/
theorem TaskTurn.stands {k : Task} {after : Option Task} {ys : List Exchange} {row : ProgressRow}
    {result : ItemResult} (turn : TaskTurn b s k xs t after)
    (hpath : s.board.path = b.initial.board.path)
    (hrow : s.board.rows[k.index]? = some row) (hresult : s.results[k.index]? = some result)
    (h : Stands b k.item true (some k.phase) ys row result) :
    ∃ row' result', t.board.rows[k.index]? = some row' ∧ t.results[k.index]? = some result' ∧
      Stands b k.item true (after.map (·.phase)) (ys ++ xs) row' result' := by
  cases turn with
  | begin phase shows =>
    rw [phase] at h
    cases h
    have leads : (b.instanceOf k.item).Leads [] (b.instanceOf k.item) := .start
    have stands := Stands.talking (shows.writesBoard hpath) leads
    rw [List.append_nil] at stands
    obtain ⟨-, rfl⟩ := shows
    exact ⟨_, _, ProgressBoard.update_row_self hrow, hresult, stands⟩
  | talk phase answer =>
    rw [phase] at h
    cases h with
    | talking opens leads =>
      rw [List.append_assoc]
      exact ⟨_, _, hrow, hresult, .talking opens (leads.ask answer)⟩
  | conclude phase =>
    rw [phase] at h
    cases h with
    | talking opens leads =>
      have reaches := leads.reaches (.done _)
      rw [List.append_nil] at reaches ⊢
      exact ⟨_, _, hrow, hresult, .ended opens reaches⟩
  | @post r _ _ phase shows =>
    rw [phase] at h
    cases h with
    | ended opens reaches =>
      have came : CameTo b k.item _ r := .intro opens reaches (shows.writesBoard hpath)
      obtain ⟨-, rfl⟩ := shows
      refine ⟨r.row, _, ?_, hresult, .shown came⟩
      rw [ProgressBoard.update_row_self hrow, ← came.result.1]
      simp [ItemResult.row]
  | @settle r phase =>
    rw [phase] at h
    cases h with
    | shown came =>
      rw [List.append_nil]
      refine ⟨_, r, hrow, ?_, .settled came⟩
      exact List.getElem?_set_self (List.getElem?_eq_some_iff.mp hresult).1

/-! ## All items -/

theorem limit_pos (b : Batch) : 0 < b.limit := Nat.lt_of_lt_of_le Nat.one_pos (Nat.le_max_left ..)

/-- Where the item of an index stands after what was exchanged. -/
def StandsAt (b : Batch) (history : BatchHistory) (c : BatchConfiguration) (index : Nat)
    (item : BatchItem) : Prop :=
  ∃ row result, c.state.board.rows[index]? = some row ∧ c.state.results[index]? = some result ∧
    Stands b item (decide (index < c.started)) ((c.task? index).map (·.phase))
      (history.exchangesOf index) row result

/-- What holds between any two turns. -/
structure Sound (b : Batch) (history : BatchHistory) (c : BatchConfiguration) : Prop where
  started_le : c.started ≤ b.items.length
  own : ∀ k ∈ c.tasks, k.index < c.started ∧ b.items[k.index]? = some k.item
  nodup : (c.tasks.map (·.index)).Nodup
  room : c.tasks.length ≤ b.limit
  admitted : c.scheduler = .admitted → c.tasks.length < b.limit ∧ c.started < b.items.length
  path : c.state.board.path = b.initial.board.path
  rows_length : c.state.board.rows.length = b.items.length
  results_length : c.state.results.length = b.items.length
  stands : ∀ index item, b.items[index]? = some item → b.StandsAt history c index item

theorem sound_opening : b.Sound [] b.opening where
  started_le := Nat.zero_le _
  own _ h := absurd h List.not_mem_nil
  nodup := .nil
  room := Nat.zero_le _
  admitted h := by cases h
  path := rfl
  rows_length := by
    change ((b.items.map (·.label)).map fun l => ({ label := l } : ProgressRow)).length = _
    rw [List.length_map, List.length_map]
  results_length := List.length_map _
  stands index item h := by
    refine ⟨{ label := item.label }, { label := item.label }, ?_, ?_, .unstarted⟩
    · change ((b.items.map (·.label)).map fun l => ({ label := l } : ProgressRow))[index]? = _
      rw [List.getElem?_map, List.getElem?_map, h]
      rfl
    · change (b.items.map fun i => ({ label := i.label } : ItemResult))[index]? = _
      rw [List.getElem?_map, h]
      rfl

variable {history : BatchHistory}

/-- An item stands where it stood if neither its task nor its row nor its result changed. -/
theorem StandsAt.of_same {index : Nat} {item : BatchItem} {move : BatchMove}
    (h : b.StandsAt history c index item) (hm : move ≠ .task index)
    (hframe : d.state.board.rows[index]? = c.state.board.rows[index]? ∧
      d.state.results[index]? = c.state.results[index]?)
    (hstarted : decide (index < d.started) = decide (index < c.started))
    (htask : d.task? index = c.task? index) :
    b.StandsAt (history ++ [(move, xs)]) d index item := by
  obtain ⟨row, result, hrow, hresult, stands⟩ := h
  refine ⟨row, result, hframe.1.trans hrow, hframe.2.trans hresult, ?_⟩
  rw [hstarted, htask, BatchHistory.exchangesOf_append, BatchHistory.exchangesOf_other hm,
    List.append_nil]
  exact stands

/-- What holds between two turns does not depend on the flag, nor on what the scheduler does next
as long as it has not let in another item. -/
theorem Sound.of_same_tasks (h : b.Sound history c) (hboard : d.state.board = c.state.board)
    (hresults : d.state.results = c.state.results) (hstarted : d.started = c.started)
    (htasks : d.tasks = c.tasks)
    (hadmitted : d.scheduler = .admitted → d.tasks.length < b.limit ∧ d.started < b.items.length) :
    b.Sound (history ++ [(.scheduler, xs)]) d where
  started_le := by rw [hstarted]; exact h.started_le
  own := by rw [htasks, hstarted]; exact h.own
  nodup := by rw [htasks]; exact h.nodup
  room := by rw [htasks]; exact h.room
  admitted := hadmitted
  path := by rw [hboard]; exact h.path
  rows_length := by rw [hboard]; exact h.rows_length
  results_length := by rw [hresults]; exact h.results_length
  stands index item hi := by
    refine (h.stands index item hi).of_same nofun ⟨by rw [hboard], by rw [hresults]⟩ ?_ ?_
    · rw [hstarted]
    · unfold BatchConfiguration.task?
      rw [htasks]

theorem lt_length_of_getElem? {item : BatchItem} {index : Nat} (h : b.items[index]? = some item) :
    index < b.items.length := (List.getElem?_eq_some_iff.mp h).1

/-- The item that is started is the next one, and no task of its index exists. -/
theorem Sound.start (h : b.Sound history c) (admitted : c.scheduler = .admitted) {item : BatchItem}
    (next : b.items[c.started]? = some item) :
    b.Sound (history ++ [(.scheduler, xs)])
      { c with
        scheduler := .idle
        started := c.started + 1
        tasks := c.tasks ++ [{ index := c.started, item }] } where
  started_le := lt_length_of_getElem? next
  own := by
    refine List.forall_mem_append.mpr ⟨fun k hk => ?_, List.forall_mem_singleton.mpr ?_⟩
    · exact ⟨Nat.lt_succ_of_lt (h.own k hk).1, (h.own k hk).2⟩
    · exact ⟨Nat.lt_succ_self _, next⟩
  nodup := by
    rw [List.map_append, List.map_singleton]
    refine List.nodup_append.mpr ⟨h.nodup, List.nodup_singleton _, fun i hi j hj he => ?_⟩
    obtain ⟨k, hk, rfl⟩ := List.mem_map.mp hi
    rw [List.mem_singleton.mp hj] at he
    exact absurd (h.own k hk).1 (by rw [he]; exact Nat.lt_irrefl _)
  room := by
    rw [List.length_append, List.length_singleton]
    exact (h.admitted admitted).1
  admitted hs := by cases hs
  path := h.path
  rows_length := h.rows_length
  results_length := h.results_length
  stands index other hi := by
    have hfind : BatchConfiguration.task? { c with
        scheduler := .idle
        started := c.started + 1
        tasks := c.tasks ++ [{ index := c.started, item }] } index =
        (c.task? index).or
          (if c.started = index then some { index := c.started, item } else none) := by
      unfold BatchConfiguration.task?
      rw [List.find?_append, List.find?_singleton]
      simp only [decide_eq_true_eq]
    by_cases hnew : index = c.started
    · subst hnew
      obtain ⟨row, result, hrow, hresult, stands⟩ := h.stands _ other hi
      obtain rfl := Option.some_inj.mp (next.symm.trans hi)
      refine ⟨row, result, hrow, hresult, ?_⟩
      have hmove : BatchMove.scheduler ≠ .task c.started := nofun
      rw [hfind, if_pos rfl, decide_eq_true (Nat.lt_succ_self _), BatchHistory.exchangesOf_append,
        BatchHistory.exchangesOf_other hmove, List.append_nil]
      rw [decide_eq_false (Nat.lt_irrefl _)] at stands
      generalize hphase : (c.task? c.started).map (·.phase) = phase at stands
      generalize history.exchangesOf c.started = exchanges at stands
      cases stands
      rw [Option.map_eq_none_iff.mp hphase]
      exact .waiting
    · refine (h.stands index other hi).of_same nofun ⟨rfl, rfl⟩ ?_ ?_
      · rw [decide_eq_decide]
        change index < c.started + 1 ↔ _
        omega
      · rw [hfind, if_neg (Ne.symm hnew), Option.or_none]

theorem Sound.schedulerTurn (h : b.Sound history c) (turn : SchedulerTurn b c xs d) :
    b.Sound (history ++ [(.scheduler, xs)]) d := by
  cases turn with
  | close idle last => exact h.of_same_tasks rfl rfl rfl rfl nofun
  | refuse idle next room halted => exact h.of_same_tasks rfl rfl rfl rfl nofun
  | accept idle next room goesOn =>
    exact h.of_same_tasks rfl rfl rfl rfl fun _ => ⟨room, lt_length_of_getElem? next⟩
  | halt admitted next files stop => exact h.of_same_tasks rfl rfl rfl rfl nofun
  | start admitted next files noStop => exact h.start admitted next

theorem Sound.taskTurn (h : b.Sound history c) {k : Task} {after : Option Task} {index : Nat}
    (hk : c.task? index = some k) (turn : TaskTurn b c.state k xs t after) :
    b.Sound (history ++ [(.task index, xs)])
      { c with state := t, tasks := replaceTask c.tasks index after } := by
  obtain ⟨hmem, rfl⟩ := task?_mem hk
  have hkeeps : ∀ a ∈ after, a.index = k.index := fun a ha => (turn.keeps ha).1
  have hlength : (replaceTask c.tasks k.index after).length ≤ c.tasks.length :=
    length_replaceTask_le hkeeps
  obtain ⟨hstarted, hitem⟩ := h.own k hmem
  have hsame := turn.sameBut
  refine ⟨h.started_le, ?_, ?_, ?_, ?_, ?_, ?_, ?_, ?_⟩
  · intro a ha
    rcases mem_replaceTask ha with ha | rfl
    · exact h.own a ha
    · obtain ⟨hindex, hitem'⟩ := turn.keeps rfl
      rw [hindex, hitem']
      exact ⟨hstarted, hitem⟩
  · exact h.nodup.sublist (map_index_replaceTask hkeeps)
  · exact Nat.le_trans hlength h.room
  · intro hs
    obtain ⟨hroom, hmore⟩ := h.admitted hs
    exact ⟨Nat.lt_of_le_of_lt hlength hroom, hmore⟩
  · exact hsame.path.trans h.path
  · exact hsame.rows_length.trans h.rows_length
  · exact hsame.results_length.trans h.results_length
  · -- The item of the task moves on, and the others are framed.
    intro index item hi
    by_cases hown : index = k.index
    · subst hown
      obtain rfl := Option.some_inj.mp (hitem.symm.trans hi)
      obtain ⟨row, result, hrow, hresult, stands⟩ := h.stands k.index k.item hi
      rw [hk, decide_eq_true hstarted] at stands
      obtain ⟨row', result', hrow', hresult', stands'⟩ := turn.stands h.path hrow hresult stands
      refine ⟨row', result', hrow', hresult', ?_⟩
      have hfind : BatchConfiguration.task?
          { c with state := t, tasks := replaceTask c.tasks k.index after } k.index = after := by
        refine (find?_replaceTask_self hkeeps).trans ?_
        rw [← BatchConfiguration.task?, hk]
        rfl
      rw [hfind, decide_eq_true hstarted, BatchHistory.exchangesOf_append,
        BatchHistory.exchangesOf_task]
      exact stands'
    · refine (h.stands index item hi).of_same ?_ ⟨hsame.rows index hown, hsame.results index hown⟩
        rfl (find?_replaceTask_other hkeeps hown)
      exact fun he => hown (BatchMove.task.inj he).symm

/-- A turn keeps what holds between two turns. -/
theorem Sound.turn (h : b.Sound history c) {move : BatchMove} (turns : b.Turns c move xs d) :
    b.Sound (history ++ [(move, xs)]) d := by
  cases move with
  | scheduler => exact h.schedulerTurn (turns_scheduler_iff.mp turns)
  | task index =>
    obtain ⟨k, t, after, hk, turn, rfl⟩ := turns_task_iff.mp turns
    exact h.taskTurn hk turn

theorem Sound.interleaves (h : b.Sound history c) {later : BatchHistory}
    (h' : b.Interleaves c later d) : b.Sound (history ++ later) d := by
  induction h' with
  | start =>
    rw [List.append_nil]
    exact h
  | turn _ turns ih =>
    rw [← List.append_assoc]
    exact ih.turn turns

/-- It holds in each interleaving. -/
theorem Interleaves.sound (h : b.Interleaves b.opening history c) : b.Sound history c :=
  sound_opening.interleaves h

end Batch

end ConversationFlow

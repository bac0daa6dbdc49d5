import ConversationFlow.Proofs.Batch.Ending

/-!
# One instance after the other

`Batch.dialogue` takes one of the orders that are possible: it starts what may be started and then
lets the oldest instance run to its end. Its exchanges are those of an interleaving that is over,
and its results are the results of that interleaving (`Batch.dialogue_interleaves`), so that all
that holds of every interleaving holds of it.
-/

namespace ConversationFlow

namespace Batch

variable {b : Batch} {c d : BatchConfiguration} {s t : BatchState} {xs ys : List Exchange}
  {history : BatchHistory}

/-- Turns that have the exchanges, in order. -/
def InterleavesBy (b : Batch) (c : BatchConfiguration) (xs : List Exchange)
    (d : BatchConfiguration) : Prop :=
  ∃ history, b.Interleaves c history d ∧ history.exchanges = xs

theorem InterleavesBy.none (b : Batch) (c : BatchConfiguration) : b.InterleavesBy c [] c :=
  ⟨[], .start, rfl⟩

theorem InterleavesBy.trans {e : BatchConfiguration} (h : b.InterleavesBy c xs d)
    (h' : b.InterleavesBy d ys e) : b.InterleavesBy c (xs ++ ys) e := by
  obtain ⟨history, h, rfl⟩ := h
  obtain ⟨later, h', rfl⟩ := h'
  exact ⟨history ++ later, h.trans h', BatchHistory.exchanges_append⟩

/-- Turns without exchanges come first. -/
theorem InterleavesBy.trans_silent {e : BatchConfiguration} (h : b.InterleavesBy c [] d)
    (h' : b.InterleavesBy d xs e) : b.InterleavesBy c xs e := h.trans h'

theorem Turns.interleavesBy {move : BatchMove} (h : b.Turns c move xs d) :
    b.InterleavesBy c xs d :=
  ⟨_, h.interleaves, BatchHistory.exchanges_singleton⟩

/-! ## One task -/

section task

variable {k : Task} {front back : List Task} {after : Option Task}

/-- A turn of a task in its place among the others. -/
theorem TaskTurn.interleavesBy (turn : TaskTurn b s k xs t after)
    (h : (front.map (·.index) ++ k.index :: back.map (·.index)).Nodup) :
    b.InterleavesBy { c with state := s, tasks := front ++ k :: back } xs
      { c with state := t, tasks := front ++ (after.toList ++ back) } := by
  rw [← List.map_cons, ← List.map_append] at h
  have hfind : BatchConfiguration.task? { c with state := s, tasks := front ++ k :: back } k.index =
      some k := task?_of_mem h (List.mem_append_right _ (.head _))
  refine Turns.interleavesBy (turns_task_iff.mpr ⟨k, t, after, hfind, turn, ?_⟩)
  rw [replaceTask_between h]

variable {index : Nat} {item : BatchItem}
  (hnodup : (front.map (·.index) ++ index :: back.map (·.index)).Nodup)
include hnodup

/-- The exchanges of an instance, one turn each. -/
theorem interleavesBy_talk {rest : Dialogue ItemResult} {r : ItemResult} (hr : rest.Reaches xs r) :
    b.InterleavesBy
      { c with state := s, tasks := front ++ { index, item, phase := .talking rest } :: back } xs
      { c with state := s, tasks := front ++ { index, item, phase := .talking (.done r) } :: back }
    := by
  induction hr with
  | done r => exact .none b _
  | @ask request next answer _ _ _ ih =>
    have turn : TaskTurn b s { index, item, phase := .talking (.ask request next) }
        [⟨request, answer⟩] s (some { index, item, phase := .talking (next answer) }) :=
      .talk rfl answer
    exact (turn.interleavesBy hnodup).trans ih

/-- A task from its first row to its result, without a turn of another. -/
theorem interleavesBy_finish (hr : (b.finish s index item).Reaches xs t) :
    b.InterleavesBy { c with state := s, tasks := front ++ { index, item } :: back } xs
      { c with state := t, tasks := front ++ back } := by
  obtain ⟨opened, ys, s₁, rfl, hopened, hr⟩ := Dialogue.reaches_bind_iff.mp hr
  obtain ⟨talked, zs, r, rfl, htalked, hr⟩ := Dialogue.reaches_bind_iff.mp hr
  obtain ⟨closed, ws, s₂, rfl, hclosed, hr⟩ := Dialogue.reaches_bind_iff.mp hr
  obtain ⟨rfl, rfl⟩ := Dialogue.reaches_done_iff.mp hr
  have begins : TaskTurn b s { index, item } opened s₁
      (some { index, item, phase := .talking (b.instanceOf item) }) :=
    .begin rfl (reaches_showRow_iff.mp hopened)
  have concludes : TaskTurn b s₁ { index, item, phase := .talking (.done r) } [] (b.conclude s₁ r)
      (some { index, item, phase := .ended r }) := .conclude rfl
  have posts : TaskTurn b (b.conclude s₁ r) { index, item, phase := .ended r } closed s₂
      (some { index, item, phase := .shown r }) := .post rfl (reaches_showRow_iff.mp hclosed)
  have settles : TaskTurn b s₂ { index, item, phase := .shown r } [] (settle s₂ index r) none :=
    .settle rfl
  refine (begins.interleavesBy hnodup).trans ((interleavesBy_talk hnodup htalked).trans ?_)
  refine .trans_silent (concludes.interleavesBy hnodup) ?_
  exact (posts.interleavesBy hnodup).trans (settles.interleavesBy hnodup)

end task

/-- The oldest task from its first row to its result. -/
theorem interleavesBy_finishOldest {index : Nat} {item : BatchItem} {others : List Task}
    (hnodup : (index :: others.map (·.index)).Nodup)
    (hr : (b.finish s index item).Reaches xs t) :
    b.InterleavesBy { c with state := s, tasks := { index, item } :: others } xs
      { c with state := t, tasks := others } := by
  have hfront : (([] : List Task).map (·.index) ++ index :: others.map (·.index)).Nodup := hnodup
  exact interleavesBy_finish hfront hr

/-! ## The whole batch -/

/-- The tasks of items that were started and had no turn yet. -/
def waitingTasks (waiting : List (Nat × BatchItem)) : List Task :=
  waiting.map fun p => { index := p.1, item := p.2 }

theorem Sound.nodup_waiting {waiting : List (Nat × BatchItem)} (h : b.Sound history c)
    (htasks : c.tasks = waitingTasks waiting) : ((waitingTasks waiting).map (·.index)).Nodup := by
  rw [← htasks]
  exact h.nodup

/-- The tasks that are left once the loop has ended. -/
theorem interleavesBy_finishAll {waiting : List (Nat × BatchItem)}
    (hr : (b.finishAll s waiting).Reaches xs t) (hended : c.scheduler = .ended)
    (hnodup : ((waitingTasks waiting).map (·.index)).Nodup) :
    ∃ d, b.InterleavesBy { c with state := s, tasks := waitingTasks waiting } xs d ∧ d.IsOver ∧
      d.state = t := by
  induction waiting generalizing s xs with
  | nil =>
    obtain ⟨rfl, rfl⟩ := Dialogue.reaches_done_iff.mp hr
    exact ⟨_, .none b _, ⟨hended, rfl⟩, rfl⟩
  | cons p rest ih =>
    obtain ⟨finished, ys, s₁, rfl, hfinished, hrest⟩ := Dialogue.reaches_bind_iff.mp hr
    obtain ⟨d, hd, hover, hstate⟩ := ih hrest (List.nodup_cons.mp hnodup).2
    exact ⟨d, (interleavesBy_finishOldest hnodup hfinished).trans hd, hover, hstate⟩

/-- The oldest task makes room for another, if there is none. -/
theorem interleavesBy_makeRoom {waiting left : List (Nat × BatchItem)}
    (hr : (b.makeRoom s waiting).Reaches xs (t, left)) (hroom : waiting.length ≤ b.limit)
    (hnodup : ((waitingTasks waiting).map (·.index)).Nodup) :
    b.InterleavesBy { c with state := s, tasks := waitingTasks waiting } xs
        { c with state := t, tasks := waitingTasks left } ∧ left.length < b.limit := by
  cases waiting with
  | nil =>
    obtain ⟨rfl, heq⟩ := Dialogue.reaches_done_iff.mp hr
    obtain ⟨rfl, rfl⟩ := Prod.mk.inj heq
    exact ⟨.none b _, b.limit_pos⟩
  | cons p others =>
    obtain ⟨index, item⟩ := p
    change Dialogue.Reaches (if others.length + 1 < b.limit then _ else _) _ _ at hr
    split at hr
    · next hfree =>
      obtain ⟨rfl, heq⟩ := Dialogue.reaches_done_iff.mp hr
      obtain ⟨rfl, rfl⟩ := Prod.mk.inj heq
      exact ⟨.none b _, hfree⟩
    · obtain ⟨finished, ys, s₁, rfl, hfinished, hdone⟩ := Dialogue.reaches_bind_iff.mp hr
      obtain ⟨rfl, heq⟩ := Dialogue.reaches_done_iff.mp hdone
      obtain ⟨rfl, rfl⟩ := Prod.mk.inj heq
      rw [List.append_nil]
      exact ⟨interleavesBy_finishOldest hnodup hfinished, hroom⟩

theorem drop_eq_cons {left : List BatchItem} {item : BatchItem} {n : Nat}
    (h : b.items.drop n = item :: left) :
    b.items[n]? = some item ∧ b.items.drop (n + 1) = left := by
  constructor
  · rw [← List.head?_drop, h]
    rfl
  · rw [← List.tail_drop, h]
    rfl

/-- A round of the loop with room for the next item: the loop ends here, or the item is started and
`rest` is what comes after. -/
theorem interleavesBy_round {waiting : List (Nat × BatchItem)} {rest : Dialogue BatchState}
    {item : BatchItem} (hidle : c.scheduler = .idle) (hnext : b.items[c.started]? = some item)
    (htasks : c.tasks = waitingTasks waiting) (hroom : c.tasks.length < b.limit)
    (hnodup : (c.tasks.map (·.index)).Nodup)
    (hr : Dialogue.Reaches (if c.state.isHalted = true then b.finishAll c.state waiting else
      .ask .files fun files =>
        if (b.stopRequest files).isSome = true then
          b.finishAll { c.state with isHalted := true } waiting
        else rest) xs t) :
    (∃ d, b.InterleavesBy c xs d ∧ d.IsOver ∧ d.state = t) ∨
      ∃ files ys, xs = ⟨.files, files⟩ :: ys ∧ rest.Reaches ys t ∧
        b.InterleavesBy c [⟨.files, files⟩]
          { c with
            started := c.started + 1
            tasks := c.tasks ++ [{ index := c.started, item }] } := by
  have ends {u : BatchState} {zs : List Exchange} (hu : (b.finishAll u waiting).Reaches zs t) :
      ∃ d, b.InterleavesBy { c with state := u, scheduler := .ended } zs d ∧ d.IsOver ∧
        d.state = t := by
    have hd := interleavesBy_finishAll (c := { c with scheduler := .ended }) hu rfl
      (by rw [← htasks]; exact hnodup)
    rwa [← htasks] at hd
  split at hr
  · next halted =>
    have refuses := turns_scheduler_iff.mpr (.refuse hidle hnext hroom halted)
    obtain ⟨d, hd, hover, hstate⟩ := ends hr
    exact .inl ⟨d, refuses.interleavesBy.trans_silent hd, hover, hstate⟩
  · next goesOn =>
    have accepts :=
      turns_scheduler_iff.mpr (.accept hidle hnext hroom (eq_false_of_ne_true goesOn))
    rcases hr with _ | ⟨files, hr⟩
    change Dialogue.Reaches (if (b.stopRequest files).isSome = true then _ else _) _ _ at hr
    split at hr
    · next stop =>
      have halts := turns_scheduler_iff.mpr
        (.halt (c := { c with scheduler := .admitted }) rfl hnext files stop)
      obtain ⟨d, hd, hover, hstate⟩ := ends hr
      refine .inl ⟨d, accepts.interleavesBy.trans_silent ?_, hover, hstate⟩
      exact halts.interleavesBy.trans hd
    · next noStop =>
      have starts := turns_scheduler_iff.mpr (.start (c := { c with scheduler := .admitted })
        rfl hnext files (eq_false_of_ne_true noStop))
      have hboth := accepts.interleavesBy.trans_silent starts.interleavesBy
      rw [← hidle] at hboth
      exact .inr ⟨files, _, rfl, hr, hboth⟩

/-- The loop over the items that are left, from any configuration that a batch can get to. -/
theorem interleavesBy_schedule (left : List BatchItem) (waiting : List (Nat × BatchItem))
    (h : b.Sound history c) (hidle : c.scheduler = .idle) (hleft : b.items.drop c.started = left)
    (htasks : c.tasks = waitingTasks waiting)
    (hr : (b.schedule c.state waiting
      ((left.zipIdx c.started).map fun (i, index) => (index, i))).Reaches xs t) :
    ∃ d, b.InterleavesBy c xs d ∧ d.IsOver ∧ d.state = t := by
  induction left generalizing history c waiting xs with
  | nil =>
    have closes : b.Turns c .scheduler [] { c with scheduler := .ended } :=
      turns_scheduler_iff.mpr (.close hidle (List.getElem?_eq_none (List.drop_eq_nil_iff.mp hleft)))
    obtain ⟨d, hd, hover, hstate⟩ :=
      interleavesBy_finishAll (c := { c with scheduler := .ended }) hr rfl (h.nodup_waiting htasks)
    rw [← htasks] at hd
    exact ⟨d, closes.interleavesBy.trans_silent hd, hover, hstate⟩
  | cons item left ih =>
    obtain ⟨hnext, hleft⟩ := drop_eq_cons hleft
    rw [List.zipIdx_cons, List.map_cons] at hr
    obtain ⟨ys, zs, ⟨s, others⟩, rfl, hmade, hr⟩ := Dialogue.reaches_bind_iff.mp hr
    have hroom : waiting.length ≤ b.limit := by
      rw [← List.length_map, ← waitingTasks, ← htasks]
      exact h.room
    obtain ⟨makes, hfree⟩ := interleavesBy_makeRoom (c := c) hmade hroom (h.nodup_waiting htasks)
    rw [← htasks] at makes
    obtain ⟨made, hsound, -⟩ := id makes
    have hmid := h.interleaves hsound
    obtain ⟨d, hd, hover, hstate⟩ | ⟨files, us, rfl, hrest, starts⟩ :=
      interleavesBy_round (c := { c with state := s, tasks := waitingTasks others }) hidle hnext rfl
        ((List.length_map _).trans_lt hfree) hmid.nodup hr
    · exact ⟨d, makes.trans hd, hover, hstate⟩
    · have htasks : waitingTasks others ++ [{ index := c.started, item }] =
          waitingTasks (others ++ [(c.started, item)]) := by
        rw [waitingTasks, waitingTasks, List.map_append]
        rfl
      obtain ⟨started, hstarted, -⟩ := id starts
      obtain ⟨d, hd, hover, hstate⟩ := ih (others ++ [(c.started, item)])
        (hmid.interleaves hstarted) hidle hleft htasks hrest
      exact ⟨d, makes.trans (starts.trans hd), hover, hstate⟩

/-- The batch has the exchanges and the results of an interleaving, behind a look for the stop file
and the first writing of the board. -/
theorem dialogue_interleaves {summary : BatchSummary} (hr : b.dialogue.Reaches xs (.ok summary)) :
    ∃ files opened history c, b.stopRequest files = none ∧ b.WritesBoard opened ∧
      b.Interleaves b.opening history c ∧ c.IsOver ∧ summary = ⟨b.nonce, c.state.results⟩ ∧
      xs = ⟨.files, files⟩ :: (opened ++ history.exchanges) := by
  rcases hr with _ | ⟨files, hr⟩
  dsimp only [bind, Dialogue.bind] at hr
  split at hr
  · cases (Dialogue.reaches_done_iff.mp hr).2
  · next hstop =>
    obtain ⟨opened, ys, ⟨⟩, rfl, hopened, hr⟩ := Dialogue.reaches_bind_iff.mp hr
    obtain ⟨zs, ws, t, rfl, hscheduled, hr⟩ := Dialogue.reaches_bind_iff.mp hr
    obtain ⟨rfl, heq⟩ := Dialogue.reaches_done_iff.mp hr
    obtain ⟨c, ⟨history, hc, rfl⟩, hover, rfl⟩ := interleavesBy_schedule (c := b.opening) b.items []
      sound_opening rfl List.drop_zero rfl hscheduled
    rw [List.append_nil]
    exact ⟨files, opened, history, c, hstop, ⟨_, rfl, hopened⟩, hc, hover, Except.ok.inj heq, rfl⟩

end Batch

end ConversationFlow

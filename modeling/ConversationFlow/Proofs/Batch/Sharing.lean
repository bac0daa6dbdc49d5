import ConversationFlow.Proofs.Batch.Halting
import Mathlib.Tactic.Push

/-!
# Instances that share an agent

The instances of a batch share one agent, and each starts it and stops it as if nobody else used it.
So an instance that is over may stop the agent while another still has its session. It is said here
exactly when that cannot happen: if one instance may run at a time, or if no item may stop the agent
where another may use it. What an agent that was stopped answers is left open, and so is whether a
second start brings it back.
-/

namespace ConversationFlow

/-- No task stops the agent while that of another item uses it: from its own start, which
succeeded, to the last that it asks of a session. -/
def BatchHistory.SparesUsers (history : BatchHistory) : Prop :=
  ∀ (before later : BatchHistory) (index other : Nat) (xs : List Exchange),
    history = before ++ (.task index, xs) :: later → index ≠ other →
    (∃ x ∈ xs, x.request = .stop) → ⟨.start, .ok ()⟩ ∈ before.exchangesOf other →
    ∀ x ∈ later.exchangesOf other, x.request.concernsSession = false

/-- The task of an item is there and had no turn yet. -/
def BatchConfiguration.Waits (c : BatchConfiguration) (index : Nat) (item : BatchItem) : Prop :=
  c.task? index = some { index, item }

namespace Batch

variable {b : Batch} {c d : BatchConfiguration} {s t : BatchState} {xs ys zs : List Exchange}
  {history later : BatchHistory} {item x y : BatchItem} {r : ItemResult} {index other : Nat}

/-- The run of an item may ask for it. -/
def MayAsk (b : Batch) (item : BatchItem) (p : Request → Prop) : Prop :=
  ∃ xs r, (b.instanceOf item).Reaches xs r ∧ ∃ x ∈ xs, p x.request

/-- No two items get in each other's way: they do not run at once, or none may stop the agent where
another may use it. -/
def KeepsApart (b : Batch) : Prop :=
  b.options.concurrency ≤ 1 ∨ ∀ (i j : Nat) (x y : BatchItem), i ≠ j →
    b.items[i]? = some x → b.items[j]? = some y →
    ¬(b.MayAsk x (· = .stop) ∧ b.MayAsk y fun request => request.concernsSession = true)

/-! ## Items that run at once

Where two instances may run at once, any two items may: those before and between them are run
through one by one, and the tasks of the two wait. Only a stop file that is always there, or an
item that is bound to fail and to stop the batch, can keep them from that.
-/

/-- No stop file and no failure is bound to stop the batch. -/
structure MayGoOn (b : Batch) : Prop where
  noStopFile : ∃ files, b.stopRequest files = none
  goesOn : ∀ item ∈ b.items, ∃ xs r, (b.instanceOf item).Reaches xs r ∧
    (r.status = .failed → b.options.continuesOnError = true)

/-- The loop may start the next item. -/
structure Ready (b : Batch) (c : BatchConfiguration) : Prop where
  idle : c.scheduler = .idle
  goesOn : c.state.isHalted = false
  room : c.tasks.length < b.limit

theorem exists_showRow (s : BatchState) (index : Nat) (status : ItemStatus) (output : Option Path)
    (duration : Option Duration) :
    ∃ xs t, ShowsRow s index status output duration xs t ∧ t.isHalted = s.isHalted := by
  obtain ⟨xs, _, hxs⟩ :=
    (writeBoard (s.board.update index status output duration)).exists_reaches
  exact ⟨xs, _, ⟨hxs, rfl⟩, rfl⟩

/-- An item may be run through without stopping the batch. -/
theorem exists_finish (h : b.MayGoOn) (hitem : item ∈ b.items) (hs : s.isHalted = false)
    (index : Nat) : ∃ xs t, (b.finish s index item).Reaches xs t ∧ t.isHalted = false := by
  obtain ⟨ys, r, hr, hgo⟩ := h.goesOn item hitem
  obtain ⟨opened, s₁, hopened, hs₁⟩ := exists_showRow s index .running none none
  obtain ⟨closed, s₂, hclosed, hs₂⟩ :=
    exists_showRow (b.conclude s₁ r) index r.status r.output r.duration
  refine ⟨opened ++ (ys ++ (closed ++ [])), settle s₂ index r, ?_, ?_⟩
  · refine Dialogue.reaches_bind_iff.mpr ⟨_, _, _, rfl, reaches_showRow_iff.mpr hopened, ?_⟩
    refine Dialogue.reaches_bind_iff.mpr ⟨_, _, _, rfl, hr, ?_⟩
    exact Dialogue.reaches_bind_iff.mpr ⟨_, _, _, rfl, reaches_showRow_iff.mpr hclosed, .done _⟩
  · change s₂.isHalted = false
    rw [hs₂]
    unfold conclude
    dsimp only
    rw [hs₁, hs, Bool.false_or, Bool.and_eq_false_iff]
    by_cases hf : r.status = .failed
    · exact .inr (by rw [hgo hf]; rfl)
    · exact .inl (by simpa using hf)

/-- The next item is started. -/
theorem Ready.exists_start (h : b.Ready c) (hgo : b.MayGoOn)
    (next : b.items[c.started]? = some item) :
    ∃ xs, b.InterleavesBy c xs
      { c with started := c.started + 1, tasks := c.tasks ++ [{ index := c.started, item }] } := by
  obtain ⟨files, noStop⟩ := hgo.noStopFile
  have accepts := turns_scheduler_iff.mpr (.accept h.idle next h.room h.goesOn)
  have starts := turns_scheduler_iff.mpr (.start (c := { c with scheduler := .admitted }) rfl next
    files (by rw [noStop]; rfl))
  have hboth := accepts.interleavesBy.trans_silent starts.interleavesBy
  rw [← h.idle] at hboth
  exact ⟨_, hboth⟩

/-- The next item is started and run through; the other tasks wait. -/
theorem Ready.exists_pass (h : b.Ready c) (hsound : b.Sound history c) (hgo : b.MayGoOn)
    (next : b.items[c.started]? = some item) :
    ∃ xs d, b.InterleavesBy c xs d ∧ b.Ready d ∧ d.tasks = c.tasks ∧ d.started = c.started + 1 := by
  obtain ⟨xs, starts⟩ := h.exists_start hgo next
  obtain ⟨ys, t, hfinish, ht⟩ :=
    exists_finish hgo (List.mem_of_getElem? next) h.goesOn c.started
  obtain ⟨started, hstarted, -⟩ := id starts
  have hnodup := (hsound.interleaves hstarted).nodup
  rw [List.map_append] at hnodup
  have finishes := interleavesBy_finish (b := b)
    (c := { c with started := c.started + 1 }) (s := c.state) hnodup hfinish
  rw [List.append_nil] at finishes
  exact ⟨_, _, starts.trans finishes, ⟨h.idle, ht, h.room⟩, rfl, rfl⟩

/-- Any number of items are run through. -/
theorem Ready.exists_passAll (h : b.Ready c) (hsound : b.Sound history c) (hgo : b.MayGoOn)
    (n : Nat) (hn : c.started + n ≤ b.items.length) :
    ∃ xs d, b.InterleavesBy c xs d ∧ b.Ready d ∧ d.tasks = c.tasks ∧ d.started = c.started + n := by
  induction n with
  | zero => exact ⟨[], c, .none b c, h, rfl, rfl⟩
  | succ n ih =>
    obtain ⟨xs, d, hd, hready, htasks, hstarted⟩ := ih (by omega)
    have hlt : d.started < b.items.length := by omega
    obtain ⟨later, hlater, -⟩ := id hd
    obtain ⟨ys, e, he, hready', htasks', hstarted'⟩ :=
      hready.exists_pass (hsound.interleaves hlater) hgo (List.getElem?_eq_getElem hlt)
    exact ⟨_, e, hd.trans he, hready', htasks'.trans htasks, by omega⟩

theorem ready_opening (b : Batch) : b.Ready b.opening := ⟨rfl, rfl, b.limit_pos⟩

/-- Two items wait at once. -/
theorem exists_meeting (hgo : b.MayGoOn) (hlimit : 2 ≤ b.limit) {p q : Nat} {x y : BatchItem}
    (hpq : p < q) (hx : b.items[p]? = some x) (hy : b.items[q]? = some y) :
    ∃ history c, b.Interleaves b.opening history c ∧ c.Waits p x ∧ c.Waits q y := by
  have hq := lt_length_of_getElem? hy
  obtain ⟨_, c₁, ⟨h₁, by₁, -⟩, ready₁, tasks₁, started₁⟩ :=
    (ready_opening b).exists_passAll sound_opening hgo p (by change 0 + p ≤ _; omega)
  have hp : c₁.started = p := started₁.trans (Nat.zero_add p)
  have notasks : c₁.tasks = [] := tasks₁
  obtain ⟨_, h₂, by₂, -⟩ := ready₁.exists_start hgo (by rw [hp]; exact hx)
  have sound₂ := (sound_opening.interleaves by₁).interleaves by₂
  have ready₂ : b.Ready
      { c₁ with
        started := c₁.started + 1
        tasks := c₁.tasks ++ [{ index := c₁.started, item := x }] } :=
    ⟨ready₁.idle, ready₁.goesOn, by rw [notasks]; exact hlimit⟩
  obtain ⟨_, c₃, ⟨h₃, by₃, -⟩, ready₃, tasks₃, started₃⟩ :=
    ready₂.exists_passAll sound₂ hgo (q - (p + 1)) (by dsimp only; omega)
  have hq₃ : c₃.started = q := by rw [started₃]; dsimp only; omega
  have task₃ : c₃.tasks = [{ index := p, item := x }] := by rw [tasks₃, notasks, hp]; rfl
  obtain ⟨_, h₄, by₄, -⟩ := ready₃.exists_start hgo (by rw [hq₃]; exact hy)
  rw [hq₃, task₃] at by₄
  refine ⟨_, _, ((by₁.trans by₂).trans by₃).trans by₄, ?_, ?_⟩
  · unfold BatchConfiguration.Waits BatchConfiguration.task?
    simp
  · unfold BatchConfiguration.Waits BatchConfiguration.task?
    simp [Nat.ne_of_lt hpq]

/-! ## What an instance asks of the agent -/

theorem reaches_request {request : Request} {answer : request.Answer}
    (h : (Dialogue.ask request .done).Reaches xs answer) (hq : request.isOfAgent = false) :
    ∀ x ∈ xs, x.request.isOfAgent = false := by
  rcases h with _ | ⟨_, h⟩
  rw [(Dialogue.reaches_done_iff.mp h).1]
  exact List.forall_mem_singleton.mpr hq

theorem reaches_writeOutput {o : RunOptions} {report : RunReport} {output : Option Path}
    (h : (item.writeOutput o report).Reaches xs output) :
    ∀ x ∈ xs, x.request.isOfAgent = false := by
  unfold BatchItem.writeOutput at h
  split at h
  · rw [(Dialogue.reaches_done_iff.mp h).1]
    exact fun _ hx => absurd hx List.not_mem_nil
  · rcases h with _ | ⟨answer, h⟩
    refine List.forall_mem_cons.mpr ⟨rfl, ?_⟩
    cases answer with
    | ok _ =>
      rw [(Dialogue.reaches_done_iff.mp h).1]
      exact fun _ hx => absurd hx List.not_mem_nil
    | error e =>
      rw [(Dialogue.reaches_done_iff.mp h).1]
      exact fun _ hx => absurd hx List.not_mem_nil

/-- An instance asks the agent for what its run asks for. -/
theorem dealsWithAgent_instanceOf (h : (b.instanceOf item).Reaches xs r) :
    ∃ ys, DealsWithAgent ys ∧ agentExchanges xs = agentExchanges ys := by
  obtain ⟨us, vs, began, rfl, hus, h⟩ := Dialogue.reaches_bind_iff.mp h
  have hus := agentExchanges_of_others (reaches_request hus rfl)
  unfold agentExchanges at hus ⊢
  split at h
  · obtain ⟨ws, _, ended, rfl, hws, h⟩ := Dialogue.reaches_bind_iff.mp h
    have hws := agentExchanges_of_others (reaches_request hws rfl)
    unfold agentExchanges at hws
    rw [(Dialogue.reaches_done_iff.mp h).1, List.append_nil, List.filter_append, hus, hws]
    exact ⟨[], .not fun _ hx => absurd hx List.not_mem_nil, rfl⟩
  · next run state hprepare =>
    obtain ⟨ys, _, result, rfl, hys, h⟩ := Dialogue.reaches_bind_iff.mp h
    obtain ⟨ws, _, output, rfl, hws, h⟩ := Dialogue.reaches_bind_iff.mp h
    obtain ⟨zs, _, ended, rfl, hzs, h⟩ := Dialogue.reaches_bind_iff.mp h
    have hws := agentExchanges_of_others (reaches_writeOutput hws)
    have hzs := agentExchanges_of_others (reaches_request hzs rfl)
    obtain ⟨hsession, hstarted⟩ := Conversation.prepare_session hprepare
    unfold agentExchanges at hws hzs
    refine ⟨ys, run.dealsWithAgent hsession hstarted hys, ?_⟩
    rw [(Dialogue.reaches_done_iff.mp h).1, List.append_nil]
    simp only [List.filter_append, hus, hws, hzs, List.nil_append, List.append_nil]

/-- An instance uses sessions when it has started the agent. -/
theorem started_before_use {e : Exchange} (h : (b.instanceOf item).Reaches (xs ++ e :: ys) r)
    (hc : e.request.concernsSession = true) : ⟨.start, .ok ()⟩ ∈ xs := by
  obtain ⟨zs, deals, heq⟩ := dealsWithAgent_instanceOf h
  obtain ⟨hagent, hstart, -⟩ := Exchange.isOfAgent_of_concerns hc
  have hsplit : agentExchanges (xs ++ e :: ys) = agentExchanges xs ++ e :: agentExchanges ys := by
    unfold agentExchanges
    rw [List.filter_append, List.filter_cons, if_pos hagent]
  rw [hsplit] at heq
  rcases deals.startFirst with hnone | ⟨answer, rest, hfirst, -⟩
  · rw [hnone] at heq
    cases (List.append_eq_nil_iff.mp heq).2
  · rw [hfirst] at heq
    rcases List.append_eq_cons_iff.mp heq with ⟨-, hhead⟩ | ⟨front, hfront, hrest⟩
    · rw [(List.cons.inj hhead).1] at hstart
      exact absurd rfl hstart
    · have hmem : ⟨.start, answer⟩ ∈ agentExchanges xs := by
        rw [hfront]
        exact .head front
      cases answer with
      | ok _ => exact List.mem_of_mem_filter hmem
      | error failure =>
        have hin : ⟨.start, .error failure⟩ ∈ agentExchanges zs := by
          rw [hfirst]
          exact .head rest
        have halone := deals.failedStart (List.mem_of_mem_filter hin)
        rw [hfirst, hrest] at halone
        cases (List.append_eq_nil_iff.mp (List.cons.inj halone).2).2

/-- An item that may use the agent may stop it, since what is started is stopped. -/
theorem MayAsk.stop_of_use (h : b.MayAsk item fun request => request.concernsSession = true) :
    b.MayAsk item (· = .stop) := by
  obtain ⟨xs, r, hr, e, he, hc⟩ := h
  obtain ⟨us, vs, rfl⟩ := List.append_of_mem he
  obtain ⟨ys, deals, heq⟩ := dealsWithAgent_instanceOf hr
  have hstart : ⟨.start, .ok ()⟩ ∈ agentExchanges ys := by
    rw [← heq]
    exact List.mem_filter.mpr ⟨List.mem_append_left _ (started_before_use hr hc), rfl⟩
  obtain ⟨before, answer, hstop, -⟩ := deals.stopLast (List.mem_of_mem_filter hstart)
  have hin : ⟨.stop, answer⟩ ∈ agentExchanges (us ++ e :: vs) := by
    rw [heq, hstop]
    exact List.mem_append_right before (.head _)
  exact ⟨_, r, hr, _, List.mem_of_mem_filter hin, rfl⟩

theorem WritesBoard.others (h : b.WritesBoard xs) : ∀ x ∈ xs, x.request.isOfAgent = false := by
  obtain ⟨board, -, h⟩ := h
  unfold writeBoard at h
  split at h
  · rw [(Dialogue.reaches_done_iff.mp h).1]
    exact fun _ hx => absurd hx List.not_mem_nil
  · rcases h with _ | ⟨answer, h⟩
    rw [(Dialogue.reaches_done_iff.mp h).1]
    exact List.forall_mem_singleton.mpr rfl

/-- What a task asks of the agent is what a run of its item may ask for. -/
theorem Stands.mayAsk {isStarted : Bool} {phase : Option Phase} {row : ProgressRow}
    (h : Stands b item isStarted phase xs row r) {e : Exchange} (he : e ∈ xs)
    (hagent : e.request.isOfAgent = true) {p : Request → Prop} (hp : p e.request) :
    b.MayAsk item p := by
  have others {us : List Exchange} (hw : b.WritesBoard us) : e ∉ us := fun hin =>
    Bool.noConfusion (hagent.symm.trans (hw.others e hin))
  have cameTo {us : List Exchange} {r : ItemResult} (came : b.CameTo item us r) (hin : e ∈ us) :
      b.MayAsk item p := by
    obtain ⟨opens, reaches, closes⟩ := came
    rcases List.mem_append.mp hin with hin | hin
    · exact ⟨_, _, reaches, e, (List.mem_append.mp hin).resolve_left (others opens), hp⟩
    · exact absurd hin (others closes)
  cases h with
  | unstarted => cases he
  | waiting => cases he
  | @talking _ _ rest opens leads =>
    obtain ⟨us, r, hrest⟩ := rest.exists_reaches
    have hin := (List.mem_append.mp he).resolve_left (others opens)
    exact ⟨_, r, leads.reaches hrest, e, List.mem_append_left us hin, hp⟩
  | ended opens reaches =>
    exact ⟨_, _, reaches, e, (List.mem_append.mp he).resolve_left (others opens), hp⟩
  | shown came => exact cameTo came he
  | settled came => exact cameTo came he

/-! ## Instances that keep apart -/

/-- An item of which something was exchanged was started. -/
theorem Interleaves.started_of_exchanges (h : b.Interleaves b.opening history c) {e : Exchange}
    (he : e ∈ history.exchangesOf index) : index < c.started := by
  induction h with
  | start => cases he
  | @turn history d _ move xs h turns ih =>
    rw [BatchHistory.exchangesOf_append] at he
    rcases List.mem_append.mp he with he | he
    · exact Nat.lt_of_lt_of_le (ih he) turns.started_mono
    · by_cases hm : move = .task index
      · subst hm
        obtain ⟨k, t, after, hk, -, rfl⟩ := turns_task_iff.mp turns
        obtain ⟨hmem, rfl⟩ := task?_mem hk
        exact (h.sound.own k hmem).1
      · rw [BatchHistory.exchangesOf_other hm] at he
        cases he

/-- An item that is over exchanges nothing any more. -/
theorem Interleaves.quiet_of_over (h : b.Interleaves c later d) (hstarted : index < c.started)
    (hover : c.task? index = Option.none) :
    d.task? index = Option.none ∧ later.exchangesOf index = [] := by
  induction h with
  | start => exact ⟨hover, rfl⟩
  | @turn later d _ move xs h turns ih =>
    have hm : move ≠ .task index := by
      rintro rfl
      obtain ⟨k, t, after, hk, -, -⟩ := turns_task_iff.mp turns
      cases ih.1.symm.trans hk
    have hlt := Nat.lt_of_lt_of_le hstarted h.started_mono
    rw [turns.task?_other hm hlt, BatchHistory.exchangesOf_append, ih.2,
      BatchHistory.exchangesOf_other hm]
    exact ⟨ih.1, rfl⟩

/-- Where one instance runs at a time, no other item has a task. -/
theorem Sound.task?_alone (h : b.Sound history c) (hone : b.limit = 1) {k : Task}
    (hk : c.task? index = some k) (hne : index ≠ other) : c.task? other = none := by
  obtain ⟨hmem, rfl⟩ := task?_mem hk
  cases hother : c.task? other with
  | none => rfl
  | some k' =>
    obtain ⟨hmem', rfl⟩ := task?_mem hother
    have hroom := h.room
    rw [hone] at hroom
    obtain ⟨only, htasks⟩ := List.length_eq_one_iff.mp
      (Nat.le_antisymm hroom (List.length_pos_of_mem hmem))
    rw [htasks] at hmem hmem'
    rw [List.mem_singleton.mp hmem, List.mem_singleton.mp hmem'] at hne
    exact absurd rfl hne

/-- What a task asked of the agent is what a run of its item may ask for. -/
theorem Interleaves.mayAsk (h : b.Interleaves b.opening history c) {e : Exchange}
    (he : e ∈ history.exchangesOf index) (hagent : e.request.isOfAgent = true)
    {p : Request → Prop} (hp : p e.request) :
    ∃ item, b.items[index]? = some item ∧ b.MayAsk item p := by
  obtain ⟨item, hitem⟩ := h.sound.exists_item_of_started (h.started_of_exchanges he)
  obtain ⟨row, r, -, -, stands⟩ := h.sound.stands index item hitem
  exact ⟨item, hitem, stands.mayAsk he hagent hp⟩

theorem Interleaves.sparesUsers (h : b.Interleaves b.opening history c) (hb : b.KeepsApart) :
    history.SparesUsers := by
  rintro before later index other xs rfl hne ⟨e, he, hstop⟩ hstart f hf
  by_contra hc
  replace hc : f.request.concernsSession = true := Bool.eq_true_of_not_eq_false hc
  obtain ⟨c₁, c₂, hbefore, hturn, hlater⟩ := h.split_turn
  rcases hb with hone | hb
  · -- The other item was started and has no task, so it is over.
    have hlt := hbefore.started_of_exchanges hstart
    obtain ⟨k, t, after, hk, -, -⟩ := turns_task_iff.mp hturn
    have hnone := hbefore.sound.task?_alone (limit_eq_one hone) hk hne
    have hmove : BatchMove.task index ≠ .task other := fun he => hne (BatchMove.task.inj he)
    rw [← hturn.task?_other hmove hlt] at hnone
    have hquiet := (hlater.quiet_of_over (Nat.lt_of_lt_of_le hlt hturn.started_mono) hnone).2
    rw [hquiet] at hf
    cases hf
  · have hstops : e ∈ BatchHistory.exchangesOf (before ++ [(.task index, xs)]) index := by
      rw [BatchHistory.exchangesOf_append, BatchHistory.exchangesOf_task]
      exact List.mem_append_right _ he
    have huses : f ∈ BatchHistory.exchangesOf (before ++ (.task index, xs) :: later) other := by
      rw [← List.singleton_append, BatchHistory.exchangesOf_append, BatchHistory.exchangesOf_append]
      exact List.mem_append_right _ (List.mem_append_right _ hf)
    obtain ⟨x, hx, hxstop⟩ :=
      (hbefore.turn hturn).mayAsk hstops (by rw [hstop]; rfl) (p := (· = .stop)) hstop
    obtain ⟨y, hy, hyuse⟩ := h.mayAsk huses (Exchange.isOfAgent_of_concerns hc).1
      (p := fun request => request.concernsSession = true) hc
    exact hb index other x y hne hx hy ⟨hxstop, hyuse⟩

/-! ## Instances that collide -/

/-- A turn of a task leaves the other tasks where they are. -/
theorem TaskTurn.exists_turn {k a : Task} (hk : c.task? index = some k)
    (turn : TaskTurn b c.state k xs t (some a)) :
    ∃ d, b.Turns c (.task index) xs d ∧ d.task? index = some a ∧
      ∀ other, other ≠ index → d.task? other = c.task? other := by
  have hkeeps : ∀ k' ∈ some a, k'.index = index := fun k' hk' =>
    (turn.keeps hk').1.trans (task?_mem hk).2
  refine ⟨_, turns_task_iff.mpr ⟨k, t, some a, hk, turn, rfl⟩, ?_, fun other hne => ?_⟩
  · refine (find?_replaceTask_self hkeeps).trans ?_
    rw [← BatchConfiguration.task?, hk]
    rfl
  · exact find?_replaceTask_other hkeeps hne

/-- A task may go on with its dialogue while all others stand still. -/
theorem exists_talk {k : Task} {rest left : Dialogue ItemResult} (hk : c.task? index = some k)
    (hphase : k.phase = .talking rest) (hl : rest.Leads xs left) :
    ∃ history d, b.Interleaves c history d ∧ history.exchangesOf index = xs ∧
      d.task? index = some { k with phase := .talking left } ∧
      ∀ other, other ≠ index → d.task? other = c.task? other := by
  induction hl with
  | start =>
    refine ⟨[], c, .start, rfl, ?_, fun _ _ => rfl⟩
    rw [hk, ← hphase]
  | @ask xs request next _ answer ih =>
    obtain ⟨history, d, hd, hxs, htask, hothers⟩ := ih
    have turn : TaskTurn b d.state { k with phase := .talking (.ask request next) }
        [⟨request, answer⟩] d.state (some { k with phase := .talking (next answer) }) :=
      .talk rfl answer
    obtain ⟨e, he, htask', hothers'⟩ := turn.exists_turn htask
    refine ⟨_, e, hd.turn he, ?_, htask',
      fun other hne => (hothers' other hne).trans (hothers other hne)⟩
    rw [BatchHistory.exchangesOf_append, BatchHistory.exchangesOf_task, hxs]

/-- A task that waits may begin and go on with its dialogue. -/
theorem exists_begin (h : c.Waits index item) {left : Dialogue ItemResult}
    (hl : (b.instanceOf item).Leads xs left) :
    ∃ history d, b.Interleaves c history d ∧ (∀ e ∈ xs, e ∈ history.exchangesOf index) ∧
      d.task? index = some { index, item, phase := .talking left } ∧
      ∀ other, other ≠ index → d.task? other = c.task? other := by
  obtain ⟨opened, t, shows, -⟩ := exists_showRow c.state index .running none none
  have turn : TaskTurn b c.state { index, item } opened t
      (some { index, item, phase := .talking (b.instanceOf item) }) := .begin rfl shows
  obtain ⟨d, hd, htask, hothers⟩ := turn.exists_turn h
  obtain ⟨history, e, he, hxs, htask', hothers'⟩ := exists_talk htask rfl hl
  refine ⟨_, e, hd.interleaves.trans he, fun f hf => ?_, htask',
    fun other hne => (hothers' other hne).trans (hothers other hne)⟩
  rw [BatchHistory.exchangesOf_append, hxs]
  exact List.mem_append_right _ hf

/-- What is asked next of a task is a turn of it. -/
theorem turns_of_talking {k : Task} {e : Exchange} {next : e.request.Answer → Dialogue ItemResult}
    (hk : c.task? index = some k) (hphase : k.phase = .talking (.ask e.request next)) :
    ∃ d, b.Turns c (.task index) [e] d ∧
      ∀ other, other ≠ index → d.task? other = c.task? other := by
  have turn : TaskTurn b c.state k [e] c.state
      (some { k with phase := .talking (next e.answer) }) := .talk hphase e.answer
  obtain ⟨d, hd, -, hothers⟩ := turn.exists_turn hk
  exact ⟨d, hd, hothers⟩

/-- Of two items that wait, one may stop the agent while the other uses it. -/
theorem exists_collision (hc : b.Interleaves b.opening history c) (hne : index ≠ other)
    (hx : c.Waits index x) (hy : c.Waits other y) (hstop : b.MayAsk x (· = .stop))
    (huse : b.MayAsk y fun request => request.concernsSession = true) :
    ∃ history d, b.Interleaves b.opening history d ∧ ¬history.SparesUsers := by
  obtain ⟨xs, r, hxs, e, he, hestop⟩ := hstop
  obtain ⟨ys, r', hys, f, hf, hfuse⟩ := huse
  obtain ⟨us, _, rfl⟩ := List.append_of_mem he
  obtain ⟨vs, _, rfl⟩ := List.append_of_mem hf
  obtain ⟨stop, hleads⟩ := hxs.ask_next
  obtain ⟨use, hleads'⟩ := hys.ask_next
  -- The user goes up to what it asks of a session, then the other one up to its stop.
  obtain ⟨h₁, c₁, by₁, hin, htask₁, hothers₁⟩ := exists_begin hy hleads'
  have hx₁ : c₁.Waits index x := (hothers₁ index hne).trans hx
  obtain ⟨h₂, c₂, by₂, -, htask₂, hothers₂⟩ := exists_begin hx₁ hleads
  obtain ⟨c₃, by₃, hothers₃⟩ := turns_of_talking htask₂ rfl
  have htask₃ := (hothers₃ other hne.symm).trans ((hothers₂ other hne.symm).trans htask₁)
  obtain ⟨c₄, by₄, -⟩ := turns_of_talking htask₃ rfl
  refine ⟨_, c₄, (((hc.trans by₁).trans by₂).turn by₃).turn by₄, fun spares => ?_⟩
  have hstart : ⟨.start, .ok ()⟩ ∈ BatchHistory.exchangesOf (history ++ h₁ ++ h₂) other := by
    rw [BatchHistory.exchangesOf_append, BatchHistory.exchangesOf_append]
    exact List.mem_append_left _
      (List.mem_append_right _ (hin _ (started_before_use hys hfuse)))
  have hquiet := spares (history ++ h₁ ++ h₂) [(.task other, [f])] index other [e]
    (List.append_assoc _ _ _) hne ⟨e, .head _, hestop⟩ hstart f
    (by rw [BatchHistory.exchangesOf_task]; exact .head _)
  exact Bool.noConfusion (hquiet.symm.trans hfuse)

/-! ## Sharing as a whole -/

/-- When the agent that the instances share is stopped while one of them uses it. -/
structure SharesAgent (b : Batch) : Prop where
  /-- Items that keep apart never stop it in each other's use. -/
  spares : b.KeepsApart → ∀ {history c}, b.Interleaves b.opening history c → history.SparesUsers
  /-- Others do so in some interleaving, unless the batch is bound to stop before. -/
  collides : b.MayGoOn → ¬b.KeepsApart →
    ∃ history c, b.Interleaves b.opening history c ∧ ¬history.SparesUsers

/-- The agent outlives its users if and only if the items keep apart. -/
theorem shares_agent (b : Batch) : b.SharesAgent where
  spares hb _ _ h := h.sparesUsers hb
  collides hgo hb := by
    obtain ⟨hmany, hb⟩ := not_or.mp hb
    push Not at hb
    obtain ⟨i, j, x, y, hne, hx, hy, hstop, huse⟩ := hb
    have hlimit : 2 ≤ b.limit := Nat.le_trans (Nat.lt_of_not_le hmany) (Nat.le_max_right ..)
    rcases Nat.lt_or_gt_of_ne hne with hlt | hlt
    · obtain ⟨history, c, hc, hwx, hwy⟩ := exists_meeting hgo hlimit hlt hx hy
      exact exists_collision hc hne hwx hwy hstop huse
    · obtain ⟨history, c, hc, hwy, hwx⟩ := exists_meeting hgo hlimit hlt hy hx
      exact exists_collision hc hne hwx hwy hstop huse

/-- Of two items with one prompt each, one stops the agent while the other has a session. -/
theorem two_prompts_collide : ∃ history c,
    twoPrompts.Interleaves twoPrompts.opening history c ∧ ¬history.SparesUsers := by
  have runs (label : Text) := Dialogue.reaches_of_run aroundPrompts.answer
    (twoPrompts.instanceOf (onePrompt label)) beforePrompts
  have uses : twoPrompts.MayAsk (onePrompt "b".toList) fun request =>
      request.concernsSession = true := by
    refine ⟨_, _, runs _, List.any_eq_true.mp ?_⟩
    decide +kernel
  have stops : twoPrompts.MayAsk (onePrompt "a".toList) (· = .stop) := by
    refine MayAsk.stop_of_use ⟨_, _, runs _, List.any_eq_true.mp ?_⟩
    decide +kernel
  refine (shares_agent twoPrompts).collides ⟨⟨⟨[], [], [], []⟩, ?_⟩, ?_⟩ ?_
  · decide +kernel
  · refine List.forall_mem_cons.mpr ⟨⟨_, _, runs _, ?_⟩, List.forall_mem_singleton.mpr
      ⟨_, _, runs _, ?_⟩⟩
    · decide +kernel
    · decide +kernel
  · rintro (hone | hapart)
    · exact absurd hone (by decide)
    · exact hapart 0 1 _ _ Nat.zero_ne_one rfl rfl ⟨stops, uses⟩

end Batch

end ConversationFlow

import ConversationFlow.Batch.Instance

/-!
# Running a batch

The items of a batch are started in order, no more at once than the options allow.
After a failure no further item is started, unless the options let the batch go on; nor
is one started once the stop file exists. The board is written whenever a row changes.

`dialogue` lets the oldest instance run to its end whenever no other can be started.
-/

namespace ConversationFlow

/-- A batch that is ready to begin. -/
structure Batch where
  base : RunOptions
  options : BatchOptions
  nonce : Text
  items : List BatchItem

/-- Where a batch stands. -/
structure BatchState where
  board : ProgressBoard
  results : List ItemResult
  isHalted : Bool := false

namespace Batch

/-- The number of instances that may run at once. -/
def limit (b : Batch) : Nat := max 1 b.options.concurrency

/-- The request to stop the whole batch. -/
def stopRequest (b : Batch) (fs : FileSystem) : Option StopRequest :=
  StopFile.read fs b.base.cwd b.nonce

/-- The state before the first item. -/
def initial (b : Batch) : BatchState where
  board := .ofLabels (b.items.map (·.label)) (b.options.progressFile.map b.base.cwd.join)
  results := b.items.map fun i => { label := i.label }

/-- The run of an item within the batch. -/
def instanceOf (b : Batch) (i : BatchItem) : Dialogue ItemResult :=
  i.dialogue (i.optionsWithin b.base b.nonce)

/-- Writes a board to its file, if it has one. Whether that succeeds does not matter. -/
def writeBoard (board : ProgressBoard) : Dialogue Unit :=
  match board.path with
  | none => return
  | some path => .ask (.write path board.render) fun _ => return

/-- Changes the row of an item and writes the board. -/
def showRow (s : BatchState) (index : Nat) (status : ItemStatus) (output : Option Path)
    (duration : Option Duration) : Dialogue BatchState := do
  let board := s.board.update index status output duration
  writeBoard board
  return { s with board }

/-- Takes note of a failure. -/
def conclude (b : Batch) (s : BatchState) (r : ItemResult) : BatchState :=
  { s with isHalted := s.isHalted || (r.status == .failed && !b.options.continuesOnError) }

/-- Keeps the result of an item. -/
def settle (s : BatchState) (index : Nat) (r : ItemResult) : BatchState :=
  { s with results := s.results.set index r }

/-- An item that was started, from its first row to its result. -/
def finish (b : Batch) (s : BatchState) (index : Nat) (i : BatchItem) : Dialogue BatchState := do
  let s ← showRow s index .running none none
  let r ← b.instanceOf i
  let s ← showRow (b.conclude s r) index r.status r.output r.duration
  return settle s index r

/-- Finishes the items that were started. -/
def finishAll (b : Batch) (s : BatchState) : List (Nat × BatchItem) → Dialogue BatchState
  | [] => return s
  | (index, i) :: rest => do
    let s ← b.finish s index i
    finishAll b s rest

/-- Finishes the oldest item that was started, if no other can be started before that. -/
def makeRoom (b : Batch) (s : BatchState) :
    List (Nat × BatchItem) → Dialogue (BatchState × List (Nat × BatchItem))
  | [] => return (s, [])
  | (index, i) :: others =>
    if others.length + 1 < b.limit then return (s, (index, i) :: others)
    else do
      let s ← b.finish s index i
      return (s, others)

/-- Starts items in order. Those that were started and are not finished are `waiting`. -/
def schedule (b : Batch) (s : BatchState) (waiting : List (Nat × BatchItem)) :
    List (Nat × BatchItem) → Dialogue BatchState
  | [] => b.finishAll s waiting
  | item :: rest => do
    let (s, waiting) ← b.makeRoom s waiting
    if s.isHalted then b.finishAll s waiting
    else
      let fs ← Dialogue.ask .files .done
      if (b.stopRequest fs).isSome then b.finishAll { s with isHalted := true } waiting
      else schedule b s (waiting ++ [item]) rest

/-- The whole batch. Only a stop file that exists before it begins is an error. -/
def dialogue (b : Batch) : Dialogue (Except Failure BatchSummary) := do
  match b.stopRequest (← Dialogue.ask .files .done) with
  | some request =>
    return .error (.stopFilePresent (StopFile.path b.base.cwd b.nonce) request.reason)
  | none =>
    writeBoard b.initial.board
    let s ← b.schedule b.initial [] (b.items.zipIdx.map fun (i, index) => (index, i))
    return .ok ⟨b.nonce, s.results⟩

end Batch

/-! ## Taking turns

Instances that run at once take turns, and so does the scheduler that starts them. A
turn makes one request at most. Any order of turns may occur: `Batch.turn` is one turn
of a party, and `Batch.play` a batch in which the parties move in a given order.
-/

/-- What a started item does next. -/
inductive Phase where
  | waiting
  | talking (rest : Dialogue ItemResult)
  | ended (result : ItemResult)
  | shown (result : ItemResult)

/-- An item that was started and has no result yet. -/
structure Task where
  index : Nat
  item : BatchItem
  phase : Phase := .waiting

/-- What the scheduler does next: see whether another item may be started, start it if there is
no stop file, or nothing. -/
inductive SchedulerPhase where
  | idle
  | admitted
  | ended
deriving DecidableEq

/-- A batch between two turns. -/
structure BatchConfiguration where
  state : BatchState
  scheduler : SchedulerPhase := .idle
  started : Nat := 0
  tasks : List Task := []

/-- Who moves: the scheduler, or the task of an item. -/
inductive BatchMove where
  | scheduler
  | task (index : Nat)
deriving DecidableEq

namespace Batch

/-- A turn of a task: the state after it, and the task unless it is over. -/
def taskTurn (b : Batch) (s : BatchState) (t : Task) : Dialogue (BatchState × Option Task) :=
  match t.phase with
  | .waiting => do
    let s ← showRow s t.index .running none none
    return (s, some { t with phase := .talking (b.instanceOf t.item) })
  | .talking (.ask request next) =>
    .ask request fun answer => return (s, some { t with phase := .talking (next answer) })
  | .talking (.done r) => return (b.conclude s r, some { t with phase := .ended r })
  | .ended r => do
    let s ← showRow s t.index r.status r.output r.duration
    return (s, some { t with phase := .shown r })
  | .shown r => return (settle s t.index r, none)

/-- A turn of the scheduler. It has none while as many items run as may. -/
def schedulerTurn (b : Batch) (c : BatchConfiguration) : Option (Dialogue BatchConfiguration) :=
  match c.scheduler, b.items[c.started]? with
  | .ended, _ => none
  | .idle, none => some (return { c with scheduler := .ended })
  | .idle, some _ =>
    if b.limit ≤ c.tasks.length then none
    else some (return { c with scheduler := if c.state.isHalted then .ended else .admitted })
  | .admitted, none => none
  | .admitted, some item => some do
    let fs ← Dialogue.ask .files .done
    if (b.stopRequest fs).isSome then
      return { c with state := { c.state with isHalted := true }, scheduler := .ended }
    else
      let task : Task := { index := c.started, item }
      return { c with
        scheduler := .idle
        started := c.started + 1
        tasks := c.tasks ++ [task] }

/-- The tasks after a turn of one of them. -/
def replaceTask (tasks : List Task) (index : Nat) (after : Option Task) : List Task :=
  tasks.flatMap fun t => if t.index = index then after.toList else [t]

/-- A turn, if the party has one. -/
def turn (b : Batch) (c : BatchConfiguration) : BatchMove → Option (Dialogue BatchConfiguration)
  | .scheduler => b.schedulerTurn c
  | .task index =>
    (c.tasks.find? fun t => t.index = index).map fun t => do
      let (state, after) ← b.taskTurn c.state t
      return { c with state, tasks := replaceTask c.tasks index after }

/-- The configuration before the first turn. -/
def opening (b : Batch) : BatchConfiguration where
  state := b.initial

/-- The batch after moves in order, with the exchanges of each; a party without a turn waits. -/
def play {σ : Type} (b : Batch) (answering : Dialogue.Answering σ) :
    List BatchMove → BatchConfiguration → σ → List (BatchMove × List Exchange) × BatchConfiguration × σ
  | [], c, w => ([], c, w)
  | move :: rest, c, w =>
    match b.turn c move with
    | none => b.play answering rest c w
    | some d =>
      let (c, exchanges, w) := d.run answering w
      let (later, c, w) := b.play answering rest c w
      ((move, exchanges) :: later, c, w)

end Batch

end ConversationFlow

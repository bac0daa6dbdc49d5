import ConversationFlow.Failure
import ConversationFlow.Files.FileSystem
import ConversationFlow.Files.Glob
import ConversationFlow.Report
import ConversationFlow.Run.Cycle
import ConversationFlow.Template
import ConversationFlow.Value.Duration

/-!
# Items and instances of a batch

A batch runs one conversation for every component that a pattern finds, or every
workflow file that a pattern finds. An instance is the run of one such item. Its report is
written to the output file of the conversation, whether the run failed or not.
-/

namespace ConversationFlow

/-! ## The board

A board has a row for every item of a batch. It is written as a table whenever a row changes.
-/

/-- How far an item is. -/
inductive ItemStatus where
  | pending
  | running
  | done
  | failed
deriving DecidableEq

def ItemStatus.text : ItemStatus → Text
  | .pending => "pending"
  | .running => "running"
  | .done => "done"
  | .failed => "failed"

/-- One row. -/
structure ProgressRow where
  label : Text
  status : ItemStatus := .pending
  output : Option Path := none
  duration : Option Duration := none
deriving DecidableEq

/-- The rows, and the file that they are written to. -/
structure ProgressBoard where
  rows : List ProgressRow
  path : Option Path

namespace ProgressBoard

/-- A board on which every item is pending. -/
def ofLabels (labels : List Text) (path : Option Path) : ProgressBoard where
  rows := labels.map fun l => { label := l }
  path

def count (b : ProgressBoard) (status : ItemStatus) : Nat :=
  b.rows.countP fun r => r.status == status

/-- Changes a row. An output or a duration that it has stays unless there is a new one. -/
def update (b : ProgressBoard) (index : Nat) (status : ItemStatus) (output : Option Path)
    (duration : Option Duration) : ProgressBoard :=
  { b with rows := b.rows.modify index fun r =>
      { r with status, output := output <|> r.output, duration := duration <|> r.duration } }

private def rowText (r : ProgressRow) : Text :=
  "| " ++ r.label ++ " | " ++ r.status.text
    ++ " | " ++ (r.output.map (·.text)).getD ['-']
    ++ " | " ++ (r.duration.map Duration.text).getD ['-'] ++ " |\n"

/-- The board as a table with a line of counts. -/
def render (b : ProgressBoard) : Text :=
  "# Batch Progress\n\n| Component | Status | Output | Duration |\n|---|---|---|---|\n"
    ++ b.rows.flatMap rowText
    ++ "\n**Summary:** " ++ Text.ofNat b.rows.length ++ " total, "
    ++ Text.ofNat (b.count .done) ++ " done, "
    ++ Text.ofNat (b.count .failed) ++ " failed, "
    ++ Text.ofNat (b.count .running) ++ " running, "
    ++ Text.ofNat (b.count .pending) ++ " pending\n"

/-- Writes the board to its file, whose directory is created. A board that cannot be written
is not. -/
def flush (b : ProgressBoard) (fs : FileSystem) : FileSystem :=
  match b.path with
  | none => fs
  | some path => (fs.writeNested path b.render).2

end ProgressBoard

/-! ## Results -/

/-- What became of one item. -/
structure ItemResult where
  label : Text
  status : ItemStatus := .pending
  outcome : Option RunOutcome := none
  error : Option Text := none
  remedy : Option Text := none
  exitCode : Int := 0
  output : Option Path := none
  duration : Option Duration := none

/-- What became of every item, in the order of the items. -/
structure BatchSummary where
  nonce : Text
  results : List ItemResult

namespace BatchSummary

def total (s : BatchSummary) : Nat := s.results.length

def count (s : BatchSummary) (status : ItemStatus) : Nat :=
  s.results.countP fun r => r.status == status

def allDone (s : BatchSummary) : Bool := s.results.all fun r => r.status == .done

/-- The code of the first item that failed, else the first that signals something. -/
def exitCode (s : BatchSummary) : Int :=
  match s.results.find? fun r => r.status == .failed with
  | some r => r.exitCode
  | none => ((s.results.map (·.exitCode)).find? (· != 0)).getD 0

def line (s : BatchSummary) : Text :=
  Text.ofNat s.total ++ " total, " ++ Text.ofNat (s.count .done) ++ " done, "
    ++ Text.ofNat (s.count .failed) ++ " failed, "
    ++ Text.ofNat (s.count .pending) ++ " pending"

end BatchSummary

/-! ## Items -/

/-- One run of a batch. -/
structure BatchItem where
  label : Text
  conversation : Conversation
  vars : Variables := .empty
  cwd : Option Path := none

namespace BatchItem

/-- The paths that a pattern finds from a directory, in increasing order. -/
def found (fs : FileSystem) (pattern : Text) (cwd : Path) : Except ContextError (List Path) :=
  match fs.expand (cwd.join ⟨pattern⟩).text with
  | .ok paths => .ok (Path.sort paths)
  | .error e => .error (.invalidPattern pattern (.glob e))

/-- The variables that describe a component. -/
def componentVariables (fs : FileSystem) (path cwd : Path) : Variables :=
  let shown := path.shownFrom cwd
  let dir : Text := match shown.parent? with
    | some p => if p.isEmpty then "." else p.text
    | none => "."
  .ofList [
    ("COMPONENT_PATH".toList, shown.text),
    ("COMPONENT_NAME".toList, path.stem?.getD []),
    ("COMPONENT_DIR".toList, dir),
    ("COMPONENT_TYPE".toList, if fs.isDirectory path then "dir".toList else "file".toList)]

/-- One run of a conversation for every component. -/
def ofComponents (fs : FileSystem) (c : Conversation) (pattern : Text) (cwd : Path) :
    Except Failure (List BatchItem) :=
  match found fs pattern cwd with
  | .error e => .error (.ofContext e)
  | .ok paths => .ok (paths.map fun p => {
      label := (p.shownFrom cwd).text
      conversation := c
      vars := componentVariables fs p cwd })

/-- One run for every workflow file. -/
def ofWorkflows (fs : FileSystem) (registry : Registry) (pattern : Text) (cwd : Path) :
    Except Failure (List BatchItem) :=
  match found fs pattern cwd with
  | .error e => .error (.ofContext e)
  | .ok paths => (paths.filter fs.isFile).mapM fun p =>
    match Conversation.ofFile fs registry p with
    | .error e => .error (.compile e)
    | .ok c => .ok { label := (p.shownFrom cwd).text, conversation := c }

/-! ## Instances -/

/-- The options of an instance: those of the batch, with the item's own. -/
def optionsWithin (i : BatchItem) (base : RunOptions) (nonce : Text) : RunOptions :=
  { base with
    nonce
    cwd := i.cwd.getD base.cwd
    vars := base.vars.insertAll i.vars.entries }

/-- The variables in the name of an output file. -/
def outputVars (i : BatchItem) (o : RunOptions) : Variables :=
  let own : Variables :=
    .ofList [("WORKFLOW_NAME".toList, i.conversation.name), ("NONCE".toList, o.nonce)]
  own.insertAll o.vars.entries

/-- The output file. Whether its directory is absolute is seen before it has its values. -/
def outputPath? (i : BatchItem) (o : RunOptions) : Option Path := do
  let s := i.conversation.settings
  let vars := i.outputVars o
  let file : Path := ⟨vars.substitute (← s.outputFile)⟩
  let dir : Path := match s.outputDir with
    | some d =>
      let shown : Path := ⟨vars.substitute d⟩
      if Path.isAbsolute ⟨d⟩ then shown else o.cwd.join shown
    | none => o.cwd
  return dir.join file

/-- A report as an output file holds it. -/
def outputText (i : BatchItem) (r : RunReport) : Text :=
  if i.conversation.settings.outputFormat = some "json".toList then r.json.pretty
  else r.markdown

/-- What became of an item, the output and the time aside. -/
def resultOf (label : Text) : Except RunFailure RunReport → ItemResult
  | .ok r =>
    { label, status := .done, outcome := some r.outcome, exitCode := r.outcome.exitCode.value }
  | .error f =>
    { label
      status := .failed
      error := some f.failure.message
      remedy := some f.failure.remedy
      exitCode := f.failure.exitCode.value }

/-- Writes the report to the output file, if there is one and it can be written. -/
def writeOutput (i : BatchItem) (o : RunOptions) (r : RunReport) : Dialogue (Option Path) :=
  match i.outputPath? o with
  | none => return none
  | some path => .ask (.write path (i.outputText r)) fun
    | .ok () => return some path
    | .error _ => return none

/-- The run of an item. One that cannot begin leaves no output. -/
def dialogue (i : BatchItem) (o : RunOptions) : Dialogue ItemResult := do
  let began ← Dialogue.ask .clock .done
  match Run.prepare i.conversation o with
  | .error e =>
    let ended ← Dialogue.ask .clock .done
    let failed := resultOf i.label (.error ⟨e, { workflow := i.conversation.name }⟩)
    return { failed with duration := some ⟨ended.nanos - began.nanos⟩ }
  | .ok (run, state) =>
    let result ← run.dialogue state
    let report := match result with
      | .ok r => r
      | .error f => f.report
    let output ← i.writeOutput o report
    let ended ← Dialogue.ask .clock .done
    return { resultOf i.label result with
      output, duration := some ⟨ended.nanos - began.nanos⟩ }

end BatchItem

end ConversationFlow

import ConversationFlow.Batch.Instance
import ConversationFlow.Proofs.Running.Reports

/-!
# What instances write

An instance hands the report of its run to its output file, whether the run failed or not. A report
begins with the outcome of a run that completed, and a run that fails leaves it there: what it hands
out says that the run completed, though it did not go through its cycles. No other run says so.
-/

namespace ConversationFlow

/-- The report says that the run completed, but it counts other than all cycles. -/
def RunReport.Overstates (report : RunReport) (c : Conversation) : Prop :=
  report.outcome.isCompleted = true ∧ report.cyclesCompleted ≠ c.settings.cycles

namespace Conversation

/-- The runs that overstate what they did are those that fail. -/
theorem overstates_iff {c : Conversation} {o : RunOptions} {r : Run} {s : RunState}
    (hp : Run.prepare c o = .ok (r, s)) {xs : List Exchange}
    {result : Except RunFailure RunReport} (hr : (r.dialogue s).Reaches xs result) :
    (Run.handedOut result).Overstates c ↔ ∃ failed, result = .error failed := by
  rcases (handedOut_of_dialogue hp hr).2 with
    ⟨report, rfl, ⟨-, hcount⟩ | ⟨hout, -⟩⟩ | ⟨failed, rfl, hout, hcount⟩
  · exact ⟨fun h => absurd hcount h.2, fun ⟨_, h⟩ => by cases h⟩
  · refine ⟨fun ⟨hyes, _⟩ => ?_, fun ⟨_, h⟩ => by cases h⟩
    cases hout.symm.trans hyes
  · exact ⟨fun _ => ⟨failed, rfl⟩, fun _ => ⟨hout, Nat.ne_of_lt hcount⟩⟩

end Conversation

namespace BatchItem

variable {i : BatchItem} {o : RunOptions} {xs : List Exchange}

theorem reaches_clock {began : Duration} (h : (Dialogue.ask .clock .done).Reaches xs began) :
    xs = [⟨.clock, began⟩] := by
  obtain _ | ⟨answer, h⟩ := h
  obtain ⟨rfl, rfl⟩ := Dialogue.reaches_done_iff.mp h
  rfl

/-- The output is written in one request, if it is written. -/
def IsWritten (i : BatchItem) (o : RunOptions) (report : RunReport) (xs : List Exchange) : Prop :=
  match i.outputPath? o with
  | none => xs = []
  | some path => ∃ answer, xs = [⟨.write path (i.outputText report), answer⟩]

theorem isWritten_of_reaches {report : RunReport} {output : Option Path}
    (h : (i.writeOutput o report).Reaches xs output) : i.IsWritten o report xs := by
  unfold writeOutput at h
  unfold IsWritten
  cases hpath : i.outputPath? o with
  | none =>
    rw [hpath] at h
    exact (Dialogue.reaches_done_iff.mp h).1
  | some path =>
    rw [hpath] at h
    obtain _ | ⟨answer, h⟩ := h
    refine ⟨answer, ?_⟩
    cases answer with
    | ok _ => rw [(Dialogue.reaches_done_iff.mp h).1]
    | error _ => rw [(Dialogue.reaches_done_iff.mp h).1]

theorem resultOf_status (label : Text) (result : Except RunFailure RunReport) :
    (resultOf label result).status = .failed ↔ ∃ failed, result = .error failed := by
  cases result with
  | ok report => exact ⟨fun h => (by cases h), fun ⟨_, h⟩ => by cases h⟩
  | error failed => exact ⟨fun _ => ⟨failed, rfl⟩, fun _ => rfl⟩

/-- An instance whose conversation can be made ready runs it, and writes what the run hands out. -/
theorem reaches_dialogue {r : Run} {s : RunState} (hp : Run.prepare i.conversation o = .ok (r, s))
    {res : ItemResult} (h : (i.dialogue o).Reaches xs res) :
    ∃ began ys result ws ended,
      xs = ⟨.clock, began⟩ :: ys ++ ws ++ [⟨.clock, ended⟩] ∧
      (r.dialogue s).Reaches ys result ∧ i.IsWritten o (Run.handedOut result) ws ∧
      (res.status = .failed ↔ ∃ failed, result = .error failed) := by
  obtain ⟨us, vs, began, rfl, hus, hrun⟩ := Dialogue.reaches_bind_iff.mp h
  obtain rfl := reaches_clock hus
  rw [hp] at hrun
  obtain ⟨ys, _, result, rfl, hys, hwrite⟩ := Dialogue.reaches_bind_iff.mp hrun
  obtain ⟨ws, _, output, rfl, hws, hend⟩ := Dialogue.reaches_bind_iff.mp hwrite
  obtain ⟨zs, _, ended, rfl, hzs, hdone⟩ := Dialogue.reaches_bind_iff.mp hend
  obtain rfl := reaches_clock hzs
  obtain ⟨rfl, rfl⟩ := Dialogue.reaches_done_iff.mp hdone
  refine ⟨began, ys, result, ws, ended, by simp, hys, ?_, resultOf_status _ _⟩
  cases result with
  | ok report => exact isWritten_of_reaches hws
  | error failed => exact isWritten_of_reaches hws

/-- A run hands out a report that overstates what it did if and only if it fails. So the report that
an instance writes to its output file does that exactly where its status is that it failed. -/
theorem failed_reports_overstate {r : Run} {s : RunState}
    (hp : Run.prepare i.conversation o = .ok (r, s)) :
    (∀ xs result, (r.dialogue s).Reaches xs result →
      ((Run.handedOut result).Overstates i.conversation ↔ ∃ failed, result = .error failed)) ∧
    ∀ xs res, (i.dialogue o).Reaches xs res → ∃ began ys result ws ended,
      xs = ⟨.clock, began⟩ :: ys ++ ws ++ [⟨.clock, ended⟩] ∧
      (r.dialogue s).Reaches ys result ∧ i.IsWritten o (Run.handedOut result) ws ∧
      ((Run.handedOut result).Overstates i.conversation ↔ res.status = .failed) := by
  refine ⟨fun xs result hr => Conversation.overstates_iff hp hr, fun xs res h => ?_⟩
  obtain ⟨began, ys, result, ws, ended, hxs, hys, hws, hstatus⟩ := reaches_dialogue hp h
  exact ⟨began, ys, result, ws, ended, hxs, hys, hws,
    (Conversation.overstates_iff hp hys).trans hstatus.symm⟩

/-- One prompt, the report of which is written to a file. -/
def promptWithOutput : BatchItem :=
  { label := "a".toList
    conversation := .ofCompiled
      ⟨{ outputFile := some "out.md".toList }, [.prompt "hi".toList], none⟩ }

/-- The agent does not start: the report that is written says that the run completed. -/
theorem unstarted_run_is_written_as_completed :
    ∃ xs res report answer, (promptWithOutput.dialogue { cwd := "w" }).Reaches xs res ∧
      res.status = .failed ∧ report.Overstates promptWithOutput.conversation ∧
      ⟨.write ⟨"w/out.md".toList⟩ (promptWithOutput.outputText report), answer⟩ ∈ xs := by
  let silent : Agent Nat :=
    { Conversation.firstSessionOnly with start := fun w => (.error .notStarted, w) }
  let around : Surroundings Nat :=
    { agent := silent, host := .bare, stamp := fun w => (⟨[], []⟩, w), now := ⟨[], []⟩,
      clock := fun _ => .ofSeconds 0 }
  have hp : Run.prepare promptWithOutput.conversation { cwd := "w" } = .ok (_, _) := rfl
  have h := Dialogue.reaches_of_run around.answer (promptWithOutput.dialogue { cwd := "w" })
    ⟨⟨[], [], [], []⟩, 0⟩
  obtain ⟨began, ys, result, ws, ended, hxs, -, hws, hover⟩ :=
    (failed_reports_overstate hp).2 _ _ h
  have hfailed : (Dialogue.run around.answer (promptWithOutput.dialogue { cwd := "w" })
      ⟨⟨[], [], [], []⟩, 0⟩).1.status = .failed := by decide +kernel
  have hpath : promptWithOutput.outputPath? { cwd := "w" } = some ⟨"w/out.md".toList⟩ := by
    decide +kernel
  unfold IsWritten at hws
  rw [hpath] at hws
  obtain ⟨answer, rfl⟩ := hws
  refine ⟨_, _, Run.handedOut result, answer, h, hfailed, hover.mpr hfailed, ?_⟩
  rw [hxs]
  simp

end BatchItem

end ConversationFlow

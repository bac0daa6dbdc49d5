import ConversationFlow.Proofs.Running.Lifecycle

/-!
# The report of a run

A report is kept up while a run goes on: each prompt that the agent answers leaves one record, in
the cycle and at the step where it was sent, and each cycle that comes to its end is counted. What
the report of a whole run says is then read off its exchanges, however the run ends. A run that
fails hands out the report that it has until then, with the outcome that every report begins with.
A turn and its record are entered at once; one after the other they would give the same run.
-/

namespace ConversationFlow

/-- The prompt and the response, where the agent answered. -/
def Exchange.answered? : Exchange → Option (Text × Text)
  | ⟨.send _ prompt _, .ok response⟩ => some (prompt, response.text)
  | _ => none

/-- The prompts that the agent answered, in order, each with its response. -/
def answeredTurns (xs : List Exchange) : List (Text × Text) := xs.filterMap (·.answered?)

theorem answeredTurns_append (xs ys : List Exchange) :
    answeredTurns (xs ++ ys) = answeredTurns xs ++ answeredTurns ys := List.filterMap_append

namespace RunReport

/-- A report goes on from another one: there is a record for each turn that was answered. -/
structure Continues (before : RunReport) (xs : List Exchange) (after : RunReport)
    (records : List TurnRecord) : Prop where
  responses : after.responses = before.responses ++ records
  turns : after.turns = before.turns + records.length
  answered : records.map (fun t => (t.prompt, t.response)) = answeredTurns xs
  outcome : after.outcome = before.outcome

namespace Continues

variable {a b c : RunReport} {xs ys : List Exchange} {m n : List TurnRecord}

/-- Nothing was answered. -/
theorem none (h : answeredTurns xs = []) (hr : b.responses = a.responses) (ht : b.turns = a.turns)
    (ho : b.outcome = a.outcome) : a.Continues xs b [] where
  responses := hr.trans (List.append_nil _).symm
  turns := ht
  answered := h.symm
  outcome := ho

theorem append (h : a.Continues xs b m) (h' : b.Continues ys c n) :
    a.Continues (xs ++ ys) c (m ++ n) where
  responses := by rw [h'.responses, h.responses, List.append_assoc]
  turns := by rw [h'.turns, h.turns, List.length_append, Nat.add_assoc]
  answered := by rw [List.map_append, h.answered, h'.answered, answeredTurns_append]
  outcome := h'.outcome.trans h.outcome

end Continues

/-- A report goes on from another one through so many cycles of so many steps, from a cycle on: to
the end of the last of them, or not. -/
structure ContinuesThrough (before : RunReport) (xs : List Exchange) (after : RunReport)
    (steps cycle cycles : Nat) (isDone : Bool) : Prop where
  records : ∃ records, before.Continues xs after records ∧
    (∀ n ∈ records, cycle < n.cycle ∧ n.cycle ≤ cycle + cycles ∧ n.step < steps) ∧
    records.Pairwise fun m n => m.cycle ≤ n.cycle
  counted : isDone = true → after.cyclesCompleted = before.cyclesCompleted + cycles
  ended : isDone = false → after.cyclesCompleted < before.cyclesCompleted + cycles

namespace ContinuesThrough

variable {a b c d : RunReport} {xs ys zs : List Exchange} {steps cycle cycles : Nat}
  {isDone : Bool}

theorem append (h : a.ContinuesThrough xs b steps cycle 1 true)
    (h' : b.ContinuesThrough ys c steps (cycle + 1) cycles isDone) :
    a.ContinuesThrough (xs ++ ys) c steps cycle (cycles + 1) isDone := by
  obtain ⟨⟨m, hm, hplaces, hsorted⟩, hcounted, -⟩ := h
  obtain ⟨⟨n, hn, hplaces', hsorted'⟩, hcounted', hended'⟩ := h'
  have hone := hcounted rfl
  refine ⟨⟨m ++ n, hm.append hn, List.forall_mem_append.mpr ⟨?_, ?_⟩, ?_⟩, ?_, ?_⟩
  · intro t ht
    have := hplaces t ht
    exact ⟨this.1, by omega, this.2.2⟩
  · intro t ht
    have := hplaces' t ht
    exact ⟨by omega, by omega, this.2.2⟩
  · refine List.pairwise_append.mpr ⟨hsorted, hsorted', fun t ht u hu => ?_⟩
    have := (hplaces t ht).2.1
    have := (hplaces' u hu).1
    omega
  · intro hd
    have := hcounted' hd
    omega
  · intro hd
    have := hended' hd
    omega

/-- A cycle that does not come to its end is the last one. -/
theorem early (h : a.ContinuesThrough xs b steps cycle 1 false) :
    a.ContinuesThrough xs b steps cycle (cycles + 1) false := by
  obtain ⟨⟨m, hm, hplaces, hsorted⟩, -, hended⟩ := h
  refine ⟨⟨m, hm, fun t ht => ?_, hsorted⟩, fun hd => (by cases hd), fun _ => ?_⟩
  · have := hplaces t ht
    exact ⟨this.1, by omega, this.2.2⟩
  · have := hended rfl
    omega

/-- Nothing is answered before, and nothing after. -/
theorem within (h : b.ContinuesThrough ys c steps cycle cycles isDone)
    (before : a.Continues xs b []) (same : b.cyclesCompleted = a.cyclesCompleted)
    (after : c.Continues zs d []) (same' : d.cyclesCompleted = c.cyclesCompleted) :
    a.ContinuesThrough (xs ++ ys ++ zs) d steps cycle cycles isDone where
  records := by
    obtain ⟨m, hm, hplaces⟩ := h.records
    have hall := (before.append hm).append after
    rw [List.nil_append, List.append_nil] at hall
    exact ⟨m, hall, hplaces⟩
  counted hd := by rw [same', h.counted hd, same]
  ended hd := by
    have := h.ended hd
    omega

end ContinuesThrough

end RunReport

/-- The record is of a step of a cycle, of so many steps. -/
def TurnRecord.IsOf (cycle steps : Nat) (n : TurnRecord) : Prop :=
  n.cycle = cycle + 1 ∧ n.step < steps

/-! ## Steps -/

/-- The report goes on with records as said, in the same cycle. -/
def Course.recording (within : TurnRecord → Prop) : Course := fun s xs t =>
  (∃ records, s.report.Continues xs t.report records ∧ ∀ n ∈ records, within n) ∧
    t.report.cyclesCompleted = s.report.cyclesCompleted ∧ t.cycle = s.cycle

namespace Run

open ConversationFlow.Action

variable (r : Run) {within : TurnRecord → Prop} {s t : RunState} {xs : List Exchange}

theorem recording_isPath : (Course.recording within).IsPath where
  rest s := ⟨⟨[], .none rfl rfl rfl rfl, fun _ hn => absurd hn List.not_mem_nil⟩, rfl, rfl⟩
  join := by
    rintro s xs t ys u ⟨⟨m, hm, hmin⟩, hcount, hcycle⟩ ⟨⟨n, hn, hnin⟩, hcount', hcycle'⟩
    exact ⟨⟨m ++ n, hm.append hn, List.forall_mem_append.mpr ⟨hmin, hnin⟩⟩,
      hcount'.trans hcount, hcycle'.trans hcycle⟩

/-- Exchanges without an answered prompt leave no record. -/
theorem recording_of_report (hx : answeredTurns xs = [])
    (h : t.report = { s.report with
      warnings := t.report.warnings, checkpoints := t.report.checkpoints })
    (hc : t.cycle = s.cycle) : Course.recording within s xs t := by
  refine ⟨⟨[], .none hx ?_ ?_ ?_, fun _ hn => absurd hn List.not_mem_nil⟩, ?_, hc⟩
  all_goals rw [h]

theorem recording_ask {request : Request}
    (h : ∀ answer, Exchange.answered? ⟨request, answer⟩ = none) :
    Takes (.recording within) (ask request) :=
  takes_ask fun answer _ => recording_of_report (List.filterMap_cons_none (h answer)) rfl rfl

theorem recording_modify {f : RunState → RunState}
    (h : ∀ s, (f s).report = s.report ∧ (f s).cycle = s.cycle) :
    Takes (.recording within) (modify f : Action Unit) := by
  refine takes_modify fun s => recording_of_report rfl ?_ (h s).2
  rw [(h s).1]

theorem recording_tends : TendsSessions fun _ a => Takes (.recording within) a where
  toIsTrait := recording_isPath.isTrait
  asks {request} hr := by
    cases request with
    | create | destroy | stats => exact recording_ask fun _ => rfl
    | _ => cases hr
  changes h := recording_modify fun s => ⟨(h s).1, (h s).2.cycle⟩

theorem compactNow_records (session : Text) (place : StepPlace) :
    Takes (.recording within) (compactNow session place) :=
  recording_tends.compactNow (recording_ask fun _ => rfl) place

theorem recording_set {u : RunState} (h : u.report = s.report ∧ u.cycle = s.cycle) :
    Gives (.recording within) s (set u) fun _ _ => True :=
  gives_set (recording_of_report rfl (by rw [h.1]) h.2) trivial

theorem recording_same (s : RunState) (owesInstruction : Bool) (detector : LoopDetector) :
    Course.recording within s [] { s with owesInstruction, detector } :=
  recording_of_report rfl rfl rfl

/-- The verdict on a response, before anything follows from it. -/
def verdictOn (response : Response) (toolCalls : Nat) : Action (Option Verdict) := do
  let files ← ask .files
  let s ← get
  let (detector, verdict) :=
    s.detector.check files response.reasoning response.text s.cycle toolCalls
  set { s with detector }
  return verdict

/-- A verdict ends the run. -/
def heed : Option Verdict → Action Unit
  | none => return
  | some v => stop (if v.reason = .stopFile then .stopRequested v else .loopDetected v)

/-- An exchange that counts its turn when the response is there and records it when the verdict is. -/
def exchangeApart (prompt : Text) (place : StepPlace) : Action Unit := do
  let session ← r.liveSession
  let sent ← instructed prompt
  note (.sending place prompt)
  let response ← orAgentFailure (some place)
    (← ask (.send session sent r.options.isStreaming))
  modify fun s => { s with
    tracker := s.tracker.addTurn sent response.text
    report := { s.report with turns := s.report.turns + 1 } }
  let stats := match ← ask (.stats session) with
    | .ok stats => stats
    | .error _ => {}
  countTokens stats.contextTokens
  let verdict ← verdictOn response stats.toolCalls
  modify fun s => { s with
    report := { s.report with
      responses := s.report.responses ++ [⟨place.cycle, place.step, sent, response.text⟩] } }
  heed verdict

/-- Between the turn and its record nothing looks at the report and nothing ends the run, so that
both may be entered at once. -/
theorem exchange_eq_apart (prompt : Text) (place : StepPlace) :
    r.exchange prompt place = r.exchangeApart prompt place := by
  unfold exchange exchangeApart
  refine bind_congr fun session => bind_congr fun sent => bind_congr fun _ =>
    bind_congr fun answer => bind_congr fun response => ?_
  funext s
  change Dialogue.ask _ _ = Dialogue.ask _ _
  congr 1
  funext answer
  cases answer with
  | error e => rfl
  | ok stats =>
    obtain ⟨toolCalls, contextTokens⟩ := stats
    cases contextTokens <;> rfl

/-- A prompt that is answered leaves its record, and one that is not leaves none. -/
theorem exchange_records {place : StepPlace}
    (hin : ∀ prompt response, within ⟨place.cycle, place.step, prompt, response⟩) (prompt : Text) :
    Takes (.recording within) (r.exchange prompt place) := by
  refine takes_bind recording_isPath (recording_tends.liveSession r) fun session => ?_
  refine takes_bind recording_isPath
    (recording_isPath.instructed recording_same prompt) fun sent => ?_
  refine takes_bind recording_isPath (recording_ask fun _ => rfl) fun _ => ?_
  intro s xs result t h
  obtain ⟨answer, ys, rfl, hanswer⟩ := reaches_ask_bind_iff.mp h
  cases answer with
  | error e =>
    obtain ⟨rfl, rfl, rfl⟩ := reaches_throw_iff.mp hanswer
    exact ⟨recording_of_report rfl rfl rfl, trivial⟩
  | ok response =>
    -- The send and the record of it belong together; what follows leaves no record.
    let record : TurnRecord := ⟨place.cycle, place.step, sent, response.text⟩
    have first : s.report.Continues [⟨.send session sent r.options.isStreaming, .ok response⟩]
        { s.report with
          turns := s.report.turns + 1, responses := s.report.responses ++ [record] } [record] :=
      ⟨rfl, rfl, rfl, rfl⟩
    have hrecorded := reaches_orAgentFailure_ok_iff.mp hanswer
    have hrest := reaches_modify_bind_iff.mp hrecorded
    obtain ⟨⟨⟨records, hrecords, hwithin⟩, hcount, hcycle⟩, hmeets⟩ :=
      hrest.takes (R := Course.recording within) (by
        refine takes_bind recording_isPath (recording_ask fun _ => rfl) fun stats => ?_
        exact takes_bind recording_isPath (recording_tends.countTokens _) fun _ =>
          recording_isPath.judge recording_same (recording_ask fun _ => rfl) response _)
    have all : ∀ n ∈ record :: records, within n :=
      List.forall_mem_cons.mpr ⟨hin sent response.text, hwithin⟩
    exact ⟨⟨⟨record :: records, first.append hrecords, all⟩, hcount, hcycle⟩, hmeets⟩

theorem compose_records (body : Text) (turn : TurnPlace) (fillings : List (Text × Text)) :
    Takes (.recording within) (r.compose body turn fillings) := by
  intro s
  refine gives_get_bind (gives_bind recording_isPath _ (recording_set ⟨rfl, rfl⟩) fun _ t _ => ?_)
  exact takes_bind recording_isPath (recording_ask fun _ => rfl) (fun _ =>
    takes_pure recording_isPath _) t

/-- The steps at a place leave records of that place. -/
theorem recording_allows {place : StepPlace}
    (hin : ∀ prompt response, within ⟨place.cycle, place.step, prompt, response⟩) :
    (Course.recording within).Allows r place where
  toIsPath := recording_isPath
  quiet {request} hq answer s := by
    cases request with
    | host | command | files | save | write | stamp | now | clock =>
      exact recording_of_report rfl rfl rfl
    | _ => cases hq
  begun _ _ _ := recording_of_report rfl rfl rfl
  reported _ _ _ := recording_of_report rfl rfl rfl
  helpWaits _ _ := recording_of_report rfl rfl rfl
  renews := takes_bind recording_isPath recording_tends.endSession fun _ =>
    takes_discard recording_isPath (recording_tends.openSession r)
  exchanges := r.exchange_records hin
  compacts := takes_bind recording_isPath (recording_tends.liveSession r) fun _ =>
    compactNow_records _ _
  composes := r.compose_records

/-! ## Cycles -/

theorem loadContext_records : Takes (.recording within) r.loadContext := by
  refine takes_bind recording_isPath (recording_ask fun _ => rfl) fun files => ?_
  intro s
  refine gives_get_bind (gives_bind recording_isPath _ (recording_set ⟨rfl, rfl⟩) fun _ t _ => ?_)
  exact takes_orContextFailure recording_isPath _ t

theorem beginCycle_records : Takes (.recording within) r.beginCycle :=
  recording_tends.beginCycle r (fun _ => recording_ask fun _ => rfl)
    (recording_modify fun _ => ⟨rfl, rfl⟩) r.loadContext_records

/-- Steps in a row leave records of the cycle and of one of them each. -/
theorem executeFrom_records {cycle count : Nat} (index turns : Nat) {steps : List Step}
    (hin : index + steps.length ≤ count) (hs : s.cycle = cycle) :
    Gives (.recording (TurnRecord.IsOf cycle count)) s (r.executeFrom index turns steps)
      fun _ _ => True := by
  have path : (Course.recording (TurnRecord.IsOf cycle count)).IsPath := recording_isPath
  induction steps generalizing index turns s with
  | nil =>
    have drops : Takes (.recording (TurnRecord.IsOf cycle count))
        (modify fun s => { s with pendingHelp := [] }) := recording_modify fun _ => ⟨rfl, rfl⟩
    exact drops s
  | cons step rest ih =>
    rw [List.length_cons] at hin
    have here : (Course.recording (TurnRecord.IsOf cycle count)).Allows r ⟨s.cycle + 1, index⟩ :=
      r.recording_allows fun _ _ => ⟨congrArg (· + 1) hs, show index < count by omega⟩
    refine gives_get_bind ?_
    refine gives_bind path _ (here.executeStep _ step s).along fun _ t ht => ?_
    obtain ⟨-, xs, -, -, hcycle⟩ := ht
    refine gives_bind path _ (path.isTrait.stopAfter r index t).along fun _ u hu => ?_
    obtain ⟨-, ys, -, -, hcycle'⟩ := hu
    exact ih (index + 1) _ (by omega) (hcycle'.trans (hcycle.trans hs))

/-- A cycle leaves records of its steps. It is counted where it comes to its end, and only there. -/
theorem executeCycle_records {cycle : Nat} {result : Except Ending Unit}
    (h : (r.executeCycle cycle).Reaches s xs result t) :
    s.report.ContinuesThrough xs t.report r.conversation.steps.length cycle 1 result.isOk := by
  let began : RunState :=
    { s with cycle, vars := s.vars.setCycle (cycle + 1) r.settings.cycles }
  have steps : Gives (.recording (TurnRecord.IsOf cycle r.conversation.steps.length)) began
      (do
        (do note (.cycleBegan cycle); r.beginCycle)
        r.executeFrom 0 0 r.conversation.steps) fun _ _ => True := by
    have begins : Takes (.recording (TurnRecord.IsOf cycle r.conversation.steps.length))
        (do note (.cycleBegan cycle); r.beginCycle) :=
      takes_bind recording_isPath (recording_ask fun _ => rfl) fun _ => r.beginCycle_records
    refine gives_bind recording_isPath _ (begins began).along fun _ u hu => ?_
    obtain ⟨-, ys, -, -, hcycle⟩ := hu
    exact r.executeFrom_records 0 0 (Nat.le_of_eq (Nat.zero_add _)) hcycle
  have places {records : List TurnRecord}
      (hall : ∀ n ∈ records, n.IsOf cycle r.conversation.steps.length) :
      (∀ n ∈ records, cycle < n.cycle ∧ n.cycle ≤ cycle + 1 ∧
        n.step < r.conversation.steps.length) ∧
      records.Pairwise fun m n => m.cycle ≤ n.cycle := by
    refine ⟨fun n hn => ?_, List.pairwise_of_forall_mem_list fun m hm n hn => ?_⟩
    · rw [(hall n hn).1]
      exact ⟨Nat.lt_succ_self cycle, Nat.le_refl _, (hall n hn).2⟩
    · rw [(hall m hm).1, (hall n hn).1]
  rw [executeCycle_eq, ← bind_assoc] at h
  rcases reaches_bind_iff.mp h with ⟨ys, zs, _, u, rfl, hu, hcount⟩ | ⟨ending, rfl, he⟩
  · obtain ⟨⟨⟨records, hrecords, hall⟩, hsame, -⟩, -⟩ := steps ys _ u hu
    obtain ⟨rfl, rfl, rfl⟩ := reaches_modify_iff.mp hcount
    rw [List.append_nil]
    refine ⟨⟨records, ?_, places hall⟩, fun _ => congrArg (· + 1) hsame, fun hd => by cases hd⟩
    exact ⟨hrecords.responses, hrecords.turns, hrecords.answered, hrecords.outcome⟩
  · obtain ⟨⟨⟨records, hrecords, hall⟩, hsame, -⟩, -⟩ := steps xs _ t he
    refine ⟨⟨records, hrecords, places hall⟩, fun hd => (by cases hd), fun _ => ?_⟩
    rw [hsame]
    exact Nat.lt_succ_self _

/-- Cycles in a row leave records in their order, and are counted up to one that ends the run. -/
theorem executeCycles_records {left cycle : Nat} {result : Except Ending Unit}
    (h : (r.executeCycles left cycle).Reaches s xs result t) :
    s.report.ContinuesThrough xs t.report r.conversation.steps.length cycle left result.isOk := by
  induction left generalizing cycle s xs with
  | zero =>
    obtain ⟨rfl, rfl, rfl⟩ := reaches_pure_iff.mp h
    refine ⟨⟨[], .none rfl rfl rfl rfl, ?_, .nil⟩, fun _ => rfl, fun hd => by cases hd⟩
    exact fun _ hn => absurd hn List.not_mem_nil
  | succ left ih =>
    rcases reaches_bind_iff.mp h with ⟨ys, zs, _, u, rfl, hy, hz⟩ | ⟨ending, rfl, he⟩
    · exact (r.executeCycle_records hy).append (ih hz)
    · exact (r.executeCycle_records he).early

/-! ## Whole runs -/

theorem opening_records : Takes (.recording within) r.opening :=
  r.opening_isTrait recording_isPath.isTrait (recording_ask fun _ => rfl)
    (recording_ask fun _ => rfl) (recording_ask fun _ => rfl)
    (fun _ => takes_modify fun _ => recording_of_report rfl rfl rfl)
    r.loadContext_records (fun _ => recording_modify fun _ => ⟨rfl, rfl⟩)
    (recording_modify fun _ => ⟨rfl, rfl⟩)

theorem shutDown_records : Takes (.recording within) shutDown :=
  recording_isPath.isTrait.shutDown (fun _ => recording_ask fun _ => rfl)
    (recording_ask fun _ => rfl) (recording_modify fun _ => ⟨rfl, rfl⟩)

/-- Where there is no place for a record, none is left. -/
theorem continues_of_recording (h : Course.recording (fun _ => False) s xs t) :
    s.report.Continues xs t.report [] := by
  obtain ⟨⟨records, hrecords, hall⟩, -, -⟩ := h
  obtain rfl := List.eq_nil_iff_forall_not_mem.mpr hall
  exact hrecords

/-- A whole run goes through its cycles, or ends early on the way. -/
theorem dialogue_records {result : Except RunFailure RunReport}
    (h : (r.dialogue s).Reaches xs result) :
    ∃ ended report, result = answer .completed ended report ∧
      (∀ ending, ended = .error ending → ending.IsEarly) ∧
      s.report.ContinuesThrough xs report r.conversation.steps.length 0 r.settings.cycles
        ended.isOk := by
  obtain ⟨ys, zs, ended, t, closed, last, rfl, hexecute, hshut, rfl⟩ := reaches_dialogue_iff.mp h
  have hearly (ending : Ending) (he : ended = .error ending) : ending.IsEarly :=
    r.endsEarly_execute s ys ending t (by rw [← he]; exact hexecute)
  have hclosing : Course.recording (fun _ => False) t zs last :=
    (hshut.takes shutDown_records).1
  refine ⟨ended, last.report, rfl, hearly, ?_⟩
  rw [execute_eq_stopAt, ← bind_assoc] at hexecute
  have begins : Takes (.recording fun _ => False) (do r.opening; r.stopAt 0) :=
    takes_bind recording_isPath r.opening_records fun _ =>
      r.stopAt_isTrait recording_isPath.isTrait 0
  rcases reaches_bind_iff.mp hexecute with ⟨us, vs, _, u, rfl, hu, hcycles⟩ | ⟨ending, rfl, he⟩
  · obtain ⟨hopening, -⟩ := hu.takes begins
    exact (r.executeCycles_records hcycles).within (continues_of_recording hopening) hopening.2.1
      (continues_of_recording hclosing) hclosing.2.1
  · -- The run ended before its first cycle.
    obtain ⟨hopening, -⟩ := he.takes begins
    have hnone := (continues_of_recording hopening).append (continues_of_recording hclosing)
    have hcount := hclosing.2.1.trans hopening.2.1
    refine ⟨⟨[], hnone, fun _ hn => absurd hn List.not_mem_nil, .nil⟩, fun hd => (by cases hd), ?_⟩
    intro _
    rw [hcount]
    unfold Settings.cycles
    omega

/-- The report that a run hands out, whether it failed or not. -/
def handedOut : Except RunFailure RunReport → RunReport
  | .ok report => report
  | .error failed => failed.report

end Run

/-- What a report accounts for: the prompts that were answered in the exchanges of a run of a
conversation, each in its place, and the cycles that came to their end. -/
structure RunReport.Accounts (report : RunReport) (c : Conversation) (xs : List Exchange) :
    Prop where
  /-- There is a record for each prompt that was answered, in order. -/
  answered : report.responses.map (fun t => (t.prompt, t.response)) = answeredTurns xs
  turns : report.turns = report.responses.length
  /-- The cycles of the records are in order. -/
  inOrder : report.responses.Pairwise fun t u => t.cycle ≤ u.cycle
  /-- A record is of one of the cycles, which count from 1, and of a step of the conversation. -/
  places : ∀ t ∈ report.responses,
    1 ≤ t.cycle ∧ t.cycle ≤ c.settings.cycles ∧ t.step < c.steps.length
  counted : report.cyclesCompleted ≤ c.settings.cycles

theorem RunReport.Accounts.turns_eq {report : RunReport} {c : Conversation} {xs : List Exchange}
    (h : report.Accounts c xs) : report.turns = (answeredTurns xs).length := by
  rw [h.turns, ← h.answered, List.length_map]

namespace Conversation

/-- A run that is made ready has a report of the conversation with nothing in it. -/
theorem prepare_report {c : Conversation} {o : RunOptions} {r : Run} {s : RunState}
    (h : Run.prepare c o = .ok (r, s)) : s.report = { workflow := c.name } := by
  obtain ⟨tracker, -, rfl, rfl⟩ := Run.exists_of_prepare h
  rfl

/-- What a run through cycles leaves in an empty report. -/
theorem accounts_of_continues {c : Conversation} {report : RunReport} {xs : List Exchange}
    {isDone : Bool} (h : RunReport.ContinuesThrough { workflow := c.name } xs report
      c.steps.length 0 c.settings.cycles isDone) : report.Accounts c xs := by
  obtain ⟨⟨records, hrecords, hplaces, hsorted⟩, hdone, hended⟩ := h
  have hresponses : report.responses = records := hrecords.responses.trans (List.nil_append _)
  have hturns : report.turns = records.length := hrecords.turns.trans (Nat.zero_add _)
  refine ⟨?_, ?_, ?_, ?_, ?_⟩
  · rw [hresponses, hrecords.answered]
  · rw [hturns, hresponses]
  · rwa [hresponses]
  · intro t ht
    have := hplaces t (hresponses ▸ ht)
    exact ⟨this.1, by omega, this.2.2⟩
  · cases isDone with
    | true => exact Nat.le_of_eq ((hdone rfl).trans (Nat.zero_add _))
    | false => exact Nat.le_of_lt (by simpa using hended rfl)

/-- What a run hands out: the report on what it did, with an outcome that says whether it went
through its cycles if it did not fail, and with the one that reports begin with if it failed. -/
theorem handedOut_of_dialogue {c : Conversation} {o : RunOptions} {r : Run} {s : RunState}
    (hp : Run.prepare c o = .ok (r, s)) {xs : List Exchange}
    {result : Except RunFailure RunReport} (hr : (r.dialogue s).Reaches xs result) :
    (Run.handedOut result).Accounts c xs ∧
      ((∃ report, result = .ok report ∧
          (report.outcome.isCompleted = true ∧ report.cyclesCompleted = c.settings.cycles ∨
            report.outcome.isCompleted = false ∧ report.cyclesCompleted < c.settings.cycles)) ∨
        ∃ failed, result = .error failed ∧ failed.report.outcome.isCompleted = true ∧
          failed.report.cyclesCompleted < c.settings.cycles) := by
  obtain ⟨ended, report, rfl, hearly, hall⟩ := r.dialogue_records hr
  rw [Run.settings, prepare_conversation hp, prepare_report hp] at hall
  have haccounts := accounts_of_continues hall
  -- The outcome is no part of the accounts.
  have same (outcome : RunOutcome) : ({ report with outcome } : RunReport).Accounts c xs :=
    ⟨haccounts.answered, haccounts.turns, haccounts.inOrder, haccounts.places, haccounts.counted⟩
  cases ended with
  | ok _ =>
    have hcount := (hall.counted rfl).trans (Nat.zero_add _)
    exact ⟨same _, .inl ⟨_, rfl, .inl ⟨rfl, hcount⟩⟩⟩
  | error ending =>
    have hcount := Nat.lt_of_lt_of_eq (hall.ended rfl) (Nat.zero_add _)
    cases ending with
    | stopped outcome => exact ⟨same _, .inl ⟨_, rfl, .inr ⟨hearly _ rfl, hcount⟩⟩⟩
    | failed failure =>
      obtain ⟨records, hrecords, -⟩ := hall.records
      refine ⟨haccounts, .inr ⟨_, rfl, ?_, hcount⟩⟩
      exact congrArg RunOutcome.isCompleted hrecords.outcome

/-- Every run, whatever the agent, the host and the commands answer, hands out a report that
accounts for what was answered, and whose count is that of all cycles if and only if the run came to
its end as completed. -/
theorem reports_account {c : Conversation} {o : RunOptions} {r : Run} {s : RunState}
    (hp : Run.prepare c o = .ok (r, s)) {xs : List Exchange}
    {result : Except RunFailure RunReport} (hr : (r.dialogue s).Reaches xs result) :
    (Run.handedOut result).Accounts c xs ∧
      (Run.handedOut result).turns = (answeredTurns xs).length ∧
      ((Run.handedOut result).cyclesCompleted = c.settings.cycles ↔
        ∃ report, result = .ok report ∧ report.outcome.isCompleted = true) := by
  obtain ⟨haccounts, hends⟩ := handedOut_of_dialogue hp hr
  refine ⟨haccounts, haccounts.turns_eq, ?_⟩
  rcases hends with ⟨report, rfl, ⟨hout, hcount⟩ | ⟨hout, hcount⟩⟩ | ⟨failed, rfl, -, hcount⟩
  · exact ⟨fun _ => ⟨report, rfl, hout⟩, fun _ => hcount⟩
  · refine ⟨fun h => absurd h (Nat.ne_of_lt hcount), ?_⟩
    rintro ⟨_, heq, hyes⟩
    cases heq
    rw [hout] at hyes
    cases hyes
  · exact ⟨fun h => absurd h (Nat.ne_of_lt hcount), fun ⟨_, h, _⟩ => by cases h⟩

/-- The prompt of the second cycle is not answered: the report is of the first cycle. -/
theorem failed_turn_is_not_reported :
    ∃ r s xs result,
      Run.prepare (ofCompiled promptTwice) { cwd := "w" } = .ok (r, s) ∧
      (r.dialogue s).Reaches xs result ∧ result.isOk = false ∧
      (Run.handedOut result).Accounts (ofCompiled promptTwice) xs ∧
      (Run.handedOut result).turns = 1 ∧ (Run.handedOut result).cyclesCompleted = 1 := by
  let around : Surroundings Nat :=
    { agent := firstSessionOnly, host := .bare, stamp := fun w => (⟨[], []⟩, w), now := ⟨[], []⟩,
      clock := fun _ => .ofSeconds 0 }
  have hp : Run.prepare (ofCompiled promptTwice) { cwd := "w" } = .ok (_, _) := rfl
  have hr := fun r s => Dialogue.reaches_of_run around.answer (Run.dialogue r s)
    ⟨⟨[], [], [], []⟩, 0⟩
  refine ⟨_, _, _, _, hp, hr _ _, ?_, (reports_account hp (hr _ _)).1, ?_, ?_⟩
  · decide +kernel
  · decide +kernel
  · decide +kernel

end Conversation

end ConversationFlow

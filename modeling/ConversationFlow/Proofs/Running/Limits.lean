import ConversationFlow.Proofs.Running.Composing
import ConversationFlow.Proofs.Running.Instructions

/-!
# The limit of the context

Where a session goes on from cycle to cycle, its context fills up. Before each turn the tracker is
looked at: if the context is nearly full, and not of files alone, the run ends, or the session is
compacted once and the turn follows in it. What the tracker holds is counted from the exchanges
alone, so that the exchanges of a run tell of every turn whether there was room for it.
-/

namespace ConversationFlow

/-! ## Counting -/

namespace ContextTracker

/-- The context is nearly full, and not of files alone. -/
def IsCrowded (t : ContextTracker) : Prop := t.nearLimit = true ∧ t.conversationTokens ≠ 0

/-- What an exchange changes: a session that is opened or compacted holds no conversation, a turn
adds to it, and the agent may report how much it holds. -/
def count (t : ContextTracker) : Exchange → ContextTracker
  | ⟨.create _, .ok _⟩ | ⟨.compact _, .ok _⟩ => t.resetConversation
  | ⟨.send _ prompt _, .ok response⟩ => t.addTurn prompt response.text
  | ⟨.stats _, .ok ⟨_, some tokens⟩⟩ => t.setConversationTokens (tokens - t.fileTokens)
  | _ => t

/-- The tracker after exchanges. -/
def counted (t : ContextTracker) (xs : List Exchange) : ContextTracker := xs.foldl count t

theorem counted_append (t : ContextTracker) (xs ys : List Exchange) :
    t.counted (xs ++ ys) = (t.counted xs).counted ys := List.foldl_append

end ContextTracker

/-- The exchange neither sends a prompt nor compacts a session. -/
def Exchange.isSilent : Exchange → Bool
  | ⟨.send .., _⟩ | ⟨.compact _, _⟩ => false
  | _ => true

/-- No prompt is sent and no session is compacted. -/
def Silent (xs : List Exchange) : Prop := ∀ x ∈ xs, x.isSilent = true

namespace Silent

variable {x : Exchange} {xs ys : List Exchange}

theorem nil : Silent [] := List.forall_mem_nil _

theorem single (h : x.isSilent = true) : Silent [x] := List.forall_mem_singleton.mpr h

theorem cons (h : x.isSilent = true) (hxs : Silent xs) : Silent (x :: xs) :=
  List.forall_mem_cons.mpr ⟨h, hxs⟩

theorem append (h : Silent xs) (h' : Silent ys) : Silent (xs ++ ys) :=
  List.forall_mem_append.mpr ⟨h, h'⟩

theorem of_unmarked {s t : RunState} (h : Course.unmarked s xs t) : Silent xs := by
  intro x hx
  obtain ⟨request, answer⟩ := x
  cases request with
  | send => cases (h _ hx).1
  | compact => cases (h _ hx).2
  | _ => rfl

end Silent

/-! ## Turns and compactions -/

/-- A prompt is sent in the session, and nothing else. -/
def Sends (place : StepPlace) (prompt session : Text) (xs : List Exchange) : Prop :=
  ∃ before sent streams answer since,
    xs = before ++ ⟨.note (.sending place prompt), ()⟩ ::
      ⟨.send session sent streams, answer⟩ :: since ∧
    prompt <+: sent ∧ Silent before ∧ Silent since

/-- The session is compacted, and nothing else. -/
def Compacts (session : Text) (answer : Except AgentError Unit) (xs : List Exchange) : Prop :=
  ∃ before since, xs = before ++ ⟨.compact session, answer⟩ :: since ∧ Silent before ∧ Silent since

section

variable {place : StepPlace} {session prompt : Text} {xs ys : List Exchange}

theorem Sends.after_silent (h : Sends place prompt session ys) (hxs : Silent xs) :
    Sends place prompt session (xs ++ ys) := by
  obtain ⟨before, sent, streams, answer, since, rfl, hsent, hbefore, hsince⟩ := h
  exact ⟨xs ++ before, sent, streams, answer, since, (List.append_assoc ..).symm, hsent,
    hxs.append hbefore, hsince⟩

theorem Compacts.after_silent {answer : Except AgentError Unit} (h : Compacts session answer ys)
    (hxs : Silent xs) : Compacts session answer (xs ++ ys) := by
  obtain ⟨before, since, rfl, hbefore, hsince⟩ := h
  exact ⟨xs ++ before, since, (List.append_assoc ..).symm, hxs.append hbefore, hsince⟩

end

/-- A prompt is sent, unless the run ends because no session could be opened for it. -/
inductive SendsPrompt (place : StepPlace) (prompt : Text) :
    List Exchange → Except Ending Unit → Prop
  | sent {session : Text} {xs : List Exchange} (h : Sends place prompt session xs)
      (result : Except Ending Unit) : SendsPrompt place prompt xs result
  | unopened (options : SessionOptions) (e : AgentError) :
    SendsPrompt place prompt [⟨.create options, .error e⟩] (.error (.failed (.ofAgent none e)))

/-- The session that was compacted; an error of the agent ends the run. -/
def compactedSession (place : StepPlace) (session : Text) :
    Except AgentError Unit → Except Ending Text
  | .ok () => .ok session
  | .error e => .error (.failed (.ofAgent (some place) e))

/-- Room is made: the preamble is sent if there is one, and then its session is compacted. The
result is the session, unless the run ends before. -/
inductive MakesRoom (place : StepPlace) : Option Text → List Exchange → Except Ending Text → Prop
  | compacted {session : Text} {answer : Except AgentError Unit} {xs : List Exchange}
      (h : Compacts session answer xs) :
    MakesRoom place none xs (compactedSession place session answer)
  | unopened (options : SessionOptions) (e : AgentError) :
    MakesRoom place none [⟨.create options, .error e⟩] (.error (.failed (.ofAgent none e)))
  | preceded {text session : Text} {answer : Except AgentError Unit} {xs ys : List Exchange}
      (first : Sends place text session xs) (h : Compacts session answer ys) :
    MakesRoom place (some text) (xs ++ ys) (compactedSession place session answer)
  | ended {text : Text} {xs : List Exchange} {ending : Ending}
      (h : SendsPrompt place text xs (.error ending)) :
    MakesRoom place (some text) xs (.error ending)

/-- How a turn is handled, by what the tracker says before it. -/
inductive HandlesPrompt (r : Run) (vars : Variables) (t : ContextTracker) (place : StepPlace)
    (prompt : Text) : List Exchange → Except Ending Unit → Prop
  /-- Where there is room, the prompt is sent. -/
  | sent {xs : List Exchange} {result : Except Ending Unit} (room : ¬t.IsCrowded)
      (h : SendsPrompt place prompt xs result) : HandlesPrompt r vars t place prompt xs result
  /-- Where there is none, nothing is sent if the run is to stop then. -/
  | refused (crowded : t.IsCrowded) (policy : r.settings.onContextLimit = .stop) :
    HandlesPrompt r vars t place prompt [] (.error (.stopped (.contextLimit t.usage)))
  /-- Otherwise the prompt is sent right after the compaction of the session, in that session. -/
  | compacted {session : Text} {xs ys : List Exchange} (crowded : t.IsCrowded)
      (policy : r.settings.onContextLimit = .compact)
      (made : MakesRoom place (r.settings.onContextLimitPrompt.map vars.substitute) xs
        (.ok session))
      (h : Sends place prompt session ys) (result : Except Ending Unit) :
    HandlesPrompt r vars t place prompt (xs ++ ys) result
  | ended {xs : List Exchange} {ending : Ending} (crowded : t.IsCrowded)
      (policy : r.settings.onContextLimit = .compact)
      (made : MakesRoom place (r.settings.onContextLimitPrompt.map vars.substitute) xs
        (.error ending)) : HandlesPrompt r vars t place prompt xs (.error ending)

/-- At most so many prompts are sent, and a session is compacted at most so often. -/
structure StaysWithin (prompts compacted : Nat) (xs : List Exchange) : Prop where
  sent : (sentPrompts xs).length ≤ prompts
  compacts : compactions xs ≤ compacted

section

variable {place : StepPlace} {session prompt : Text} {xs ys : List Exchange}

theorem StaysWithin.append {m n m' n' : Nat} (h : StaysWithin m n xs) (h' : StaysWithin m' n' ys) :
    StaysWithin (m + m') (n + n') (xs ++ ys) where
  sent := by
    unfold sentPrompts
    rw [List.filterMap_append, List.length_append]
    exact Nat.add_le_add h.sent h'.sent
  compacts := by
    unfold compactions
    rw [List.countP_append]
    exact Nat.add_le_add h.compacts h'.compacts

theorem StaysWithin.mono {m n m' n' : Nat} (h : StaysWithin m n xs) (hm : m ≤ m') (hn : n ≤ n') :
    StaysWithin m' n' xs := ⟨h.sent.trans hm, h.compacts.trans hn⟩

theorem Silent.sentPrompts_eq (h : Silent xs) : sentPrompts xs = [] := by
  refine List.filterMap_eq_nil_iff.mpr fun x hx => ?_
  obtain ⟨request, answer⟩ := x
  cases request with
  | send => cases h _ hx
  | _ => rfl

theorem Silent.staysWithin (h : Silent xs) : StaysWithin 0 0 xs := by
  have hcompacts : compactions xs = 0 := by
    refine List.countP_eq_zero.mpr fun x hx hcompacts => ?_
    obtain ⟨request, answer⟩ := x
    cases request with
    | compact => cases h _ hx
    | _ => cases hcompacts
  exact ⟨Nat.le_of_eq (congrArg List.length h.sentPrompts_eq), Nat.le_of_eq hcompacts⟩

theorem Sends.staysWithin (h : Sends place prompt session xs) : StaysWithin 1 0 xs := by
  obtain ⟨before, sent, streams, answer, since, rfl, -, hbefore, hsince⟩ := h
  have one : StaysWithin 1 0
      [⟨.note (.sending place prompt), ()⟩, ⟨.send session sent streams, answer⟩] :=
    ⟨Nat.le_refl 1, Nat.le_refl 0⟩
  exact hbefore.staysWithin.append (one.append hsince.staysWithin)

theorem SendsPrompt.staysWithin {result : Except Ending Unit}
    (h : SendsPrompt place prompt xs result) : StaysWithin 1 0 xs := by
  cases h with
  | sent h => exact h.staysWithin
  | unopened => exact ⟨Nat.zero_le 1, Nat.le_refl 0⟩

theorem Compacts.staysWithin {answer : Except AgentError Unit} (h : Compacts session answer xs) :
    StaysWithin 0 1 xs := by
  obtain ⟨before, since, rfl, hbefore, hsince⟩ := h
  have one : StaysWithin 0 1 [⟨.compact session, answer⟩] := ⟨Nat.le_refl 0, Nat.le_refl 1⟩
  exact hbefore.staysWithin.append (one.append hsince.staysWithin)

/-- A preamble is the only prompt that is sent to make room. -/
theorem MakesRoom.staysWithin {preamble : Option Text} {made : Except Ending Text}
    (h : MakesRoom place preamble xs made) : StaysWithin preamble.toList.length 1 xs := by
  cases h with
  | compacted h => exact h.staysWithin
  | unopened => exact ⟨Nat.le_refl 0, Nat.zero_le 1⟩
  | preceded first h => exact first.staysWithin.append h.staysWithin
  | ended h => exact h.staysWithin.mono (Nat.le_refl 1) (Nat.zero_le 1)

/-- For one turn at most one preamble is sent, and the session is compacted at most once. -/
theorem HandlesPrompt.staysWithin {r : Run} {vars : Variables} {t : ContextTracker}
    {result : Except Ending Unit} (h : HandlesPrompt r vars t place prompt xs result) :
    StaysWithin (r.settings.onContextLimitPrompt.toList.length + 1) 1 xs := by
  have preamble : (r.settings.onContextLimitPrompt.map vars.substitute).toList.length =
      r.settings.onContextLimitPrompt.toList.length := by
    cases r.settings.onContextLimitPrompt with
    | none => rfl
    | some text => rfl
  cases h with
  | sent room h => exact h.staysWithin.mono (Nat.le_add_left 1 _) (Nat.zero_le 1)
  | refused => exact ⟨Nat.zero_le _, Nat.zero_le 1⟩
  | compacted crowded policy made h =>
    rw [← preamble]
    exact made.staysWithin.append h.staysWithin
  | ended crowded policy made =>
    rw [← preamble]
    exact made.staysWithin.mono (Nat.le_add_right _ 1) (Nat.le_refl 1)

/-- Nothing is sent where the run is to stop when there is no room. -/
theorem HandlesPrompt.eq_of_stop {r : Run} {vars : Variables} {t : ContextTracker}
    {result : Except Ending Unit} (h : HandlesPrompt r vars t place prompt xs result)
    (crowded : t.IsCrowded) (hstop : r.settings.onContextLimit = .stop) :
    xs = [] ∧ result = .error (.stopped (.contextLimit t.usage)) := by
  cases h with
  | sent room => exact absurd crowded room
  | refused => exact ⟨rfl, rfl⟩
  | compacted _ policy | ended _ policy =>
    rw [hstop] at policy
    cases policy

end

/-! ## What comes of a turn -/

/-- What is exchanged is counted, and neither sends a prompt nor compacts a session. -/
def Course.counting : Course := fun s xs t => Silent xs ∧ t.tracker = s.tracker.counted xs

namespace Run

open ConversationFlow.Action

variable {r : Run} {place : StepPlace} {session prompt : Text} {s t : RunState}
  {xs : List Exchange}

theorem counting_isPath : Course.counting.IsPath where
  rest _ := ⟨.nil, rfl⟩
  join {s xs t ys u} h h' := by
    refine ⟨h.1.append h'.1, ?_⟩
    rw [h'.2, h.2, ContextTracker.counted_append]

theorem counting_ask {request : Request}
    (h : ∀ answer, Exchange.isSilent ⟨request, answer⟩ = true)
    (hcount : ∀ (t : ContextTracker) answer, t.count ⟨request, answer⟩ = t) :
    Takes .counting (ask request) :=
  takes_ask fun answer s => ⟨.single (h answer), (hcount s.tracker answer).symm⟩

theorem counting_note (n : Note) : Takes .counting (note n) :=
  counting_ask (fun _ => rfl) fun _ _ => rfl

theorem counting_quiet {request : Request} (h : request.IsQuiet) :
    Takes .counting (ask request) := by
  cases request with
  | host | command | files | save | write | stamp | now | clock =>
    exact counting_ask (fun _ => rfl) fun _ _ => rfl
  | _ => cases h

theorem counting_modify {f : RunState → RunState} (h : ∀ s, (f s).tracker = s.tracker) :
    Takes .counting (modify f : Action Unit) :=
  takes_modify fun s => ⟨.nil, h s⟩

/-- A session that is opened is live then. -/
theorem openSession_counts :
    Gives .counting s r.openSession fun session t => t.session = some session := by
  intro xs result t h
  obtain ⟨answer, ys, rfl, hanswer⟩ := reaches_ask_bind_iff.mp h
  rcases reaches_orAgentFailure_bind_iff.mp hanswer with
    ⟨session, rfl, hok⟩ | ⟨e, rfl, rfl, rfl, rfl⟩
  · obtain ⟨rfl, rfl, rfl⟩ := reaches_pure_iff (b := session).mp (reaches_modify_bind_iff.mp hok)
    exact ⟨⟨.single rfl, rfl⟩, rfl⟩
  · exact ⟨⟨.single rfl, rfl⟩, trivial⟩

theorem liveSession_counts :
    Gives .counting s r.liveSession fun session t => t.session = some session := by
  refine gives_get_bind ?_
  cases hs : s.session with
  | some session => exact gives_pure counting_isPath hs
  | none => exact openSession_counts

/-- The run ends there only if the agent opens no session. -/
theorem liveSession_fails {ending : Ending} (h : r.liveSession.Reaches s xs (.error ending) t) :
    ∃ options e, xs = [⟨.create options, .error e⟩] ∧ ending = .failed (.ofAgent none e) ∧
      t = s := by
  have hfound := reaches_get_bind_iff.mp h
  cases hs : s.session with
  | some session =>
    rw [hs] at hfound
    obtain ⟨-, hok, -⟩ := reaches_pure_iff.mp hfound
    cases hok
  | none =>
    rw [hs] at hfound
    obtain ⟨answer, ys, rfl, hanswer⟩ := reaches_ask_bind_iff.mp hfound
    rcases reaches_orAgentFailure_bind_iff.mp hanswer with
      ⟨session, rfl, hok⟩ | ⟨e, rfl, rfl, hended, rfl⟩
    · obtain ⟨-, hok, -⟩ := reaches_pure_iff (b := session).mp (reaches_modify_bind_iff.mp hok)
      cases hok
    · cases hended
      exact ⟨_, e, rfl, rfl, rfl⟩

theorem endSession_counts : Takes .counting endSession := by
  refine takes_get_bind fun s => ?_
  split
  · exact takes_pure counting_isPath ()
  · refine takes_bind counting_isPath (counting_modify fun _ => rfl) fun _ => ?_
    refine takes_bind counting_isPath (counting_ask (fun _ => rfl) fun _ _ => rfl) fun _ => ?_
    exact takes_orAgentFailure counting_isPath _ _

section

variable {γ : Type} {result : Except Ending γ}

/-- Where a session is live, it is gone on with. -/
theorem reaches_liveSession_bind_iff {f : Text → Action γ} (hs : s.session = some session) :
    (r.liveSession >>= f).Reaches s xs result t ↔ (f session).Reaches s xs result t := by
  unfold liveSession
  rw [bind_assoc, reaches_get_bind_iff, hs, pure_bind]

theorem reaches_instructed_bind_iff {f : Text → Action γ} :
    (instructed prompt >>= f).Reaches s xs result t ↔
      (f (s.promptSent prompt)).Reaches { s with owesInstruction := false } xs result t := by
  have heq : (instructed prompt >>= f) s =
      f (s.promptSent prompt) { s with owesInstruction := false } := by
    obtain ⟨tracker, detector, report, vars, session, isStarted, owes, help, cycle⟩ := s
    cases owes with
    | true => rfl
    | false => rfl
  unfold Reaches
  rw [heq]

end

section

variable {result : Except Ending Unit}

theorem judge_reaches {response : Response} {toolCalls : Nat}
    (h : (judge response toolCalls).Reaches s xs result t) :
    ∃ files detector, xs = [⟨.files, files⟩] ∧ t = { s with detector } := by
  obtain ⟨files, ys, rfl, hfiles⟩ := reaches_ask_bind_iff.mp h
  have hjudged := reaches_get_bind_iff.mp hfiles
  have hset := reaches_set_bind_iff.mp hjudged
  split at hset
  · obtain ⟨rfl, -, rfl⟩ := reaches_pure_iff.mp hset
    exact ⟨files, _, rfl, rfl⟩
  · obtain ⟨rfl, -, rfl⟩ := reaches_throw_iff.mp hset
    exact ⟨files, _, rfl, rfl⟩

theorem promptSent_prefix (s : RunState) (prompt : Text) : prompt <+: s.promptSent prompt := by
  unfold RunState.promptSent
  split
  · rw [List.append_assoc]
    exact List.prefix_append _ _
  · exact List.prefix_rfl

/-- In the session that is live a prompt is sent, and nothing else. -/
theorem exchange_reaches_of_live (hs : s.session = some session)
    (h : (r.exchange prompt place).Reaches s xs result t) :
    Sends place prompt session xs ∧ t.tracker = s.tracker.counted xs ∧
      t.session = some session := by
  have hsend := (reaches_liveSession_bind_iff hs).mp h
  obtain ⟨⟨⟩, ys, rfl, hnoted⟩ := reaches_ask_bind_iff.mp (reaches_instructed_bind_iff.mp hsend)
  obtain ⟨answer, zs, rfl, hanswer⟩ := reaches_ask_bind_iff.mp hnoted
  have sends {since : List Exchange} (hsince : Silent since) : Sends place prompt session
      (⟨.note (.sending place prompt), ()⟩ ::
        ⟨.send session (s.promptSent prompt) r.options.isStreaming, answer⟩ :: since) :=
    ⟨[], _, _, answer, since, rfl, promptSent_prefix s prompt, .nil, hsince⟩
  rcases reaches_orAgentFailure_bind_iff.mp hanswer with
    ⟨response, rfl, hok⟩ | ⟨e, rfl, rfl, -, rfl⟩
  · obtain ⟨stats, ws, rfl, hstats⟩ := reaches_ask_bind_iff.mp (reaches_modify_bind_iff.mp hok)
    obtain ⟨files, detector, rfl, rfl⟩ := judge_reaches (reaches_modify_bind_iff.mp hstats)
    refine ⟨sends (.cons rfl (.single rfl)), ?_⟩
    cases stats with
    | error => exact ⟨rfl, hs⟩
    | ok stats =>
      obtain ⟨toolCalls, tokens⟩ := stats
      cases tokens with
      | some tokens => exact ⟨rfl, hs⟩
      | none => exact ⟨rfl, hs⟩
  · exact ⟨sends .nil, rfl, hs⟩

/-- A prompt is sent, in a session that is live then. -/
theorem exchange_reaches (h : (r.exchange prompt place).Reaches s xs result t) :
    SendsPrompt place prompt xs result ∧ t.tracker = s.tracker.counted xs ∧
      (result = .ok () → ∃ session, Sends place prompt session xs ∧ t.session = some session) := by
  rcases reaches_bind_iff.mp h with ⟨ys, zs, session, u, rfl, hy, hz⟩ | ⟨ending, rfl, he⟩
  · obtain ⟨⟨hsilent, htracker⟩, hlive⟩ := liveSession_counts _ _ _ hy
    obtain ⟨hsends, hcounted, hkept⟩ :=
      exchange_reaches_of_live hlive ((reaches_liveSession_bind_iff hlive).mpr hz)
    have hall := hsends.after_silent hsilent
    refine ⟨.sent hall result, ?_, fun _ => ⟨session, hall, hkept⟩⟩
    rw [hcounted, htracker, ContextTracker.counted_append]
  · obtain ⟨options, e, rfl, rfl, rfl⟩ := liveSession_fails he
    exact ⟨.unopened options e, rfl, fun hok => by cases hok⟩

theorem eq_of_compactedSession {answer : Except AgentError Unit} {live : Text}
    (h : compactedSession place session answer = .ok live) : live = session := by
  cases answer with
  | ok => exact (Except.ok.inj h).symm
  | error e => cases h

theorem compactNow_reaches (h : (compactNow session place).Reaches s xs result t) :
    ∃ answer, Compacts session answer xs ∧
      result = (compactedSession place session answer).map (fun _ => ()) ∧
      t.tracker = s.tracker.counted xs ∧ t.session = s.session := by
  obtain ⟨answer, ys, rfl, hanswer⟩ := reaches_ask_bind_iff.mp h
  refine ⟨answer, ?_⟩
  have compacts {since : List Exchange} (hsince : Silent since) :
      Compacts session answer (⟨.compact session, answer⟩ :: since) :=
    ⟨[], since, rfl, .nil, hsince⟩
  rcases reaches_orAgentFailure_bind_iff.mp hanswer with ⟨⟨⟩, rfl, hok⟩ | ⟨e, rfl, rfl, rfl, rfl⟩
  · obtain ⟨stats, zs, rfl, hstats⟩ := reaches_ask_bind_iff.mp hok
    match stats with
    | .ok ⟨_, some tokens⟩ =>
      obtain ⟨rfl, rfl, rfl⟩ := reaches_modify_iff.mp hstats
      exact ⟨compacts (.single rfl), rfl, rfl, rfl⟩
    | .ok ⟨_, none⟩ | .error _ =>
      obtain ⟨rfl, rfl, rfl⟩ := reaches_modify_iff.mp hstats
      exact ⟨compacts (.single rfl), rfl, rfl, rfl⟩
  · exact ⟨compacts .nil, rfl, rfl, rfl⟩

/-- The live session is compacted, after a last prompt in it if there is a preamble. -/
theorem compactAfter_reaches {preamble : Option Text}
    (h : (r.compactAfter preamble place).Reaches s xs result t) :
    ∃ made, MakesRoom place (preamble.map s.vars.substitute) xs made ∧
      result = made.map (fun _ => ()) ∧ t.tracker = s.tracker.counted xs ∧
      ∀ session, made = .ok session → t.session = some session := by
  cases preamble with
  | none =>
    rcases reaches_bind_iff.mp h with ⟨ys, zs, session, u, rfl, hy, hz⟩ | ⟨ending, rfl, he⟩
    · obtain ⟨⟨hsilent, htracker⟩, hlive⟩ := liveSession_counts _ _ _ hy
      obtain ⟨answer, hcompacts, rfl, hcounted, hsession⟩ := compactNow_reaches hz
      refine ⟨_, .compacted (hcompacts.after_silent hsilent), rfl, ?_, fun live hmade => ?_⟩
      · rw [hcounted, htracker, ContextTracker.counted_append]
      · rw [hsession, eq_of_compactedSession hmade]
        exact hlive
    · obtain ⟨options, e, rfl, rfl, rfl⟩ := liveSession_fails he
      exact ⟨_, .unopened options e, rfl, rfl, fun _ hmade => by cases hmade⟩
  | some text =>
    have hall := reaches_get_bind_iff.mp h
    rcases reaches_bind_iff.mp hall with ⟨ys, zs, ⟨⟩, u, rfl, hy, hz⟩ | ⟨ending, rfl, he⟩
    · obtain ⟨-, hcounted, hsent⟩ := exchange_reaches hy
      obtain ⟨session, hsends, hlive⟩ := hsent rfl
      obtain ⟨answer, hcompacts, rfl, hcounted', hsession⟩ :=
        compactNow_reaches ((reaches_liveSession_bind_iff hlive).mp hz)
      refine ⟨_, .preceded hsends hcompacts, rfl, ?_, fun live hmade => ?_⟩
      · rw [hcounted', hcounted, ContextTracker.counted_append]
      · rw [hsession, eq_of_compactedSession hmade]
        exact hlive
    · obtain ⟨hsends, hcounted, -⟩ := exchange_reaches he
      exact ⟨.error ending, .ended hsends, rfl, hcounted, fun _ hmade => by cases hmade⟩

/-- Where there is room, or each cycle has a session of its own, nothing comes before the prompt. -/
theorem reaches_sendTurn_iff_of_room
    (hroom : ¬(r.settings.sessionMode = .accumulate ∧ s.tracker.IsCrowded)) :
    (r.sendTurn prompt place).Reaches s xs result t ↔
      (r.exchange prompt place).Reaches s xs result t := by
  have hlimit : ¬(decide (r.settings.sessionMode = .accumulate) && s.tracker.nearLimit &&
      decide (s.tracker.conversationTokens ≠ 0)) = true := by
    rw [Bool.and_eq_true, Bool.and_eq_true, decide_eq_true_iff, decide_eq_true_iff]
    exact fun h => hroom ⟨h.1.1, h.1.2, h.2⟩
  unfold sendTurn respectLimit
  rw [bind_assoc, reaches_get_bind_iff]
  dsimp only
  rw [if_neg hlimit, pure_bind]

/-- What a turn begins with where there is no room. -/
def respondToLimit (r : Run) (place : StepPlace) (usage : Float) : Action Unit :=
  match r.settings.onContextLimit with
  | .stop => Action.stop (.contextLimit usage)
  | .compact => r.compactAfter r.settings.onContextLimitPrompt place

theorem reaches_sendTurn_iff_of_crowded (hmode : r.settings.sessionMode = .accumulate)
    (hcrowded : s.tracker.IsCrowded) :
    (r.sendTurn prompt place).Reaches s xs result t ↔
      Reaches (do
        r.respondToLimit place s.tracker.usage
        r.exchange prompt place) s xs result t := by
  have hlimit : (decide (r.settings.sessionMode = .accumulate) && s.tracker.nearLimit &&
      decide (s.tracker.conversationTokens ≠ 0)) = true := by
    rw [Bool.and_eq_true, Bool.and_eq_true, decide_eq_true_iff, decide_eq_true_iff]
    exact ⟨⟨hmode, hcrowded.1⟩, hcrowded.2⟩
  unfold sendTurn respectLimit
  rw [bind_assoc, reaches_get_bind_iff]
  dsimp only
  rw [if_pos hlimit]
  exact Iff.rfl

/-- Every turn is handled as the limit of the context wants it. -/
theorem sendTurn_reaches (hmode : r.settings.sessionMode = .accumulate)
    (h : (r.sendTurn prompt place).Reaches s xs result t) :
    HandlesPrompt r s.vars s.tracker place prompt xs result ∧
      t.tracker = s.tracker.counted xs := by
  by_cases hcrowded : s.tracker.IsCrowded
  · have hturn := (reaches_sendTurn_iff_of_crowded hmode hcrowded).mp h
    unfold respondToLimit at hturn
    cases hpolicy : r.settings.onContextLimit with
    | stop =>
      rw [hpolicy] at hturn
      obtain ⟨rfl, rfl, rfl⟩ := reaches_throw_iff.mp hturn
      exact ⟨.refused hcrowded hpolicy, rfl⟩
    | compact =>
      rw [hpolicy] at hturn
      rcases reaches_bind_iff.mp hturn with ⟨ys, zs, ⟨⟩, u, rfl, hy, hz⟩ | ⟨ending, rfl, he⟩
      · obtain ⟨made, hmade, hok, hcounted, hlive⟩ := compactAfter_reaches hy
        cases made with
        | error ending => cases hok
        | ok session =>
          obtain ⟨hsends, hcounted', -⟩ := exchange_reaches_of_live (hlive session rfl) hz
          refine ⟨.compacted hcrowded hpolicy hmade hsends result, ?_⟩
          rw [hcounted', hcounted, ContextTracker.counted_append]
      · obtain ⟨made, hmade, hended, hcounted, -⟩ := compactAfter_reaches he
        cases made with
        | ok session => cases hended
        | error ending =>
          cases hended
          exact ⟨.ended hcrowded hpolicy hmade, hcounted⟩
  · have hexchange := (reaches_sendTurn_iff_of_room fun hfull => hcrowded hfull.2).mp h
    obtain ⟨hsends, hcounted, -⟩ := exchange_reaches hexchange
    exact ⟨.sent hcrowded hsends, hcounted⟩

end

/-! ## Whole runs -/

/-- How a run goes on from what the tracker holds: turns come one after another, and steps that
compact the session; between them no prompt is sent and no session is compacted. -/
inductive Proceeds (r : Run) : ContextTracker → List Exchange → Except Ending Unit → Prop
  | done (tracker : ContextTracker) : Proceeds r tracker [] (.ok ())
  | ends (tracker : ContextTracker) (ending : Ending) : Proceeds r tracker [] (.error ending)
  | aside {tracker : ContextTracker} {x : Exchange} {xs : List Exchange}
      {ended : Except Ending Unit} (h : x.isSilent = true)
      (rest : Proceeds r (tracker.count x) xs ended) : Proceeds r tracker (x :: xs) ended
  | turn {tracker : ContextTracker} {vars : Variables} {place : StepPlace} {prompt : Text}
      {xs ys : List Exchange} {ended : Except Ending Unit}
      (h : HandlesPrompt r vars tracker place prompt xs (.ok ()))
      (rest : Proceeds r (tracker.counted xs) ys ended) : Proceeds r tracker (xs ++ ys) ended
  | lastTurn {tracker : ContextTracker} {vars : Variables} {place : StepPlace} {prompt : Text}
      {xs : List Exchange} {ending : Ending}
      (h : HandlesPrompt r vars tracker place prompt xs (.error ending)) :
    Proceeds r tracker xs (.error ending)
  | compaction {tracker : ContextTracker} {vars : Variables} {place : StepPlace} {session : Text}
      {xs ys : List Exchange} {ended : Except Ending Unit} (preserve : List Text)
      (h : MakesRoom place (r.settings.compactSummary.map vars.substitute) xs (.ok session))
      (rest : Proceeds r (tracker.counted xs) ys ended) :
    Proceeds r tracker (⟨.note (.stepBegan place (.compact preserve)), ()⟩ :: (xs ++ ys)) ended
  | lastCompaction {tracker : ContextTracker} {vars : Variables} {place : StepPlace}
      {xs : List Exchange} {ending : Ending} (preserve : List Text)
      (h : MakesRoom place (r.settings.compactSummary.map vars.substitute) xs (.error ending)) :
    Proceeds r tracker (⟨.note (.stepBegan place (.compact preserve)), ()⟩ :: xs) (.error ending)

namespace Proceeds

variable {tracker : ContextTracker} {ys : List Exchange} {ended : Except Ending Unit}

theorem of_silent (h : Silent xs) : r.Proceeds tracker xs ended := by
  induction xs generalizing tracker with
  | nil =>
    cases ended with
    | ok => exact .done tracker
    | error ending => exact .ends tracker ending
  | cons x xs ih =>
    obtain ⟨hx, hrest⟩ := List.forall_mem_cons.mp h
    exact .aside hx (ih hrest)

theorem append (h : r.Proceeds tracker xs (.ok ()))
    (h' : r.Proceeds (tracker.counted xs) ys ended) : r.Proceeds tracker (xs ++ ys) ended := by
  -- By induction on how the first part goes on; where it ends the run, nothing is left to append.
  generalize hfirst : (Except.ok () : Except Ending Unit) = first at h
  induction h with
  | done => exact h'
  | aside hx _ ih => exact .aside hx (ih h' hfirst)
  | @turn _ _ _ _ us vs _ hturn _ ih =>
    rw [List.append_assoc]
    rw [ContextTracker.counted_append] at h'
    exact .turn hturn (ih h' hfirst)
  | @compaction _ _ _ _ us vs _ preserve hroom _ ih =>
    rw [List.cons_append, List.append_assoc]
    have hrest : r.Proceeds (ContextTracker.counted _ (us ++ vs)) ys ended := h'
    rw [ContextTracker.counted_append] at hrest
    exact .compaction preserve hroom (ih hrest hfirst)
  | ends | lastTurn | lastCompaction => cases hfirst

end Proceeds

/-- What comes of the action is counted, and goes on as a run does. -/
def Progresses (r : Run) {β : Type} (a : Action β) : Prop := ∀ s xs result t,
  a.Reaches s xs result t →
    t.tracker = s.tracker.counted xs ∧ r.Proceeds s.tracker xs (result.map fun _ => ())

theorem progresses_isTrait (r : Run) : IsTrait fun _ a => r.Progresses a where
  pure b s xs result t h := by
    obtain ⟨rfl, rfl, rfl⟩ := reaches_pure_iff.mp h
    exact ⟨rfl, .done _⟩
  bind ha hf s xs result t h := by
    rcases reaches_bind_iff.mp h with ⟨ys, zs, b, u, rfl, hy, hz⟩ | ⟨ending, rfl, he⟩
    · obtain ⟨hcounted, hfirst⟩ := ha s ys _ u hy
      obtain ⟨hcounted', hrest⟩ := hf b u zs result t hz
      rw [hcounted] at hcounted' hrest
      exact ⟨hcounted'.trans (ContextTracker.counted_append _ ys zs).symm, hfirst.append hrest⟩
    · exact ha s xs _ t he
  getBind hf s xs result t h := hf s s xs result t (reaches_get_bind_iff.mp h)
  fail failure s xs result t h := by
    obtain ⟨rfl, rfl, rfl⟩ := reaches_throw_iff.mp h
    exact ⟨rfl, .ends _ _⟩
  stop _ s xs result t h := by
    obtain ⟨rfl, rfl, rfl⟩ := reaches_throw_iff.mp h
    exact ⟨rfl, .ends _ _⟩

theorem progresses_of_counting {β : Type} {a : Action β} (h : Takes .counting a) :
    r.Progresses a := by
  intro s xs result t hr
  obtain ⟨⟨hsilent, hcounted⟩, -⟩ := h s xs result t hr
  exact ⟨hcounted, .of_silent hsilent⟩

theorem sendTurn_progresses (hmode : r.settings.sessionMode = .accumulate) (prompt : Text)
    (place : StepPlace) : r.Progresses (r.sendTurn prompt place) := by
  intro s xs result t h
  obtain ⟨hhandles, hcounted⟩ := sendTurn_reaches hmode h
  refine ⟨hcounted, ?_⟩
  cases result with
  | ok =>
    have hturn := Proceeds.turn hhandles (.done _)
    rwa [List.append_nil] at hturn
  | error ending => exact .lastTurn hhandles

/-- A step that compacts the session does so at most once. -/
theorem compactStep_progresses (preserve : List Text) (place : StepPlace) :
    r.Progresses (do
      Action.note (.stepBegan place (.compact preserve))
      r.compactStep place) := by
  intro s xs result t h
  obtain ⟨⟨⟩, ys, rfl, hstep⟩ := reaches_ask_bind_iff.mp h
  have hstep := reaches_get_bind_iff.mp hstep
  split at hstep
  · obtain ⟨rfl, rfl, rfl⟩ := reaches_pure_iff.mp hstep
    exact ⟨rfl, .of_silent (.single rfl)⟩
  · obtain ⟨made, hmade, rfl, hcounted, -⟩ := compactAfter_reaches hstep
    refine ⟨hcounted, ?_⟩
    cases made with
    | ok session =>
      have hcompaction := Proceeds.compaction preserve hmade (.done (s.tracker.counted ys))
      rwa [List.append_nil] at hcompaction
    | error ending => exact .lastCompaction preserve hmade

theorem compose_counts (body : Text) (turn : TurnPlace) (fillings : List (Text × Text)) :
    Takes .counting (r.compose body turn fillings) := by
  intro s
  refine gives_get_bind ?_
  refine gives_bind counting_isPath (fun _ _ => True) (gives_set ⟨.nil, rfl⟩ trivial) ?_
  exact fun _ t _ =>
    takes_bind counting_isPath (counting_note _) (fun _ => takes_pure counting_isPath _) t

theorem progresses_asksOthers (r : Run) : AsksOthers fun _ a => r.Progresses a where
  toIsTrait := r.progresses_isTrait
  asks hq := progresses_of_counting (counting_quiet hq)
  warns _ := progresses_of_counting (counting_modify fun _ => rfl)

theorem agentTurn_progresses (hmode : r.settings.sessionMode = .accumulate) {step : Step}
    (hstep : step.isAgentTurn = true) (place : StepPlace) (turn : TurnPlace) :
    r.Progresses (r.executeStep place turn step) := by
  have composes : r.Composes (fun _ a => r.Progresses a) turn step := by
    refine composes_of_all (fun body fillings => ?_) step
    exact progresses_of_counting (compose_counts body turn fillings)
  exact r.progresses_asksOthers.agentTurn r place
    (fun _ => progresses_of_counting (counting_note _))
    (fun prompt => sendTurn_progresses hmode prompt place) hstep composes

theorem progresses_carriesTurns (hmode : r.settings.sessionMode = .accumulate)
    (place : StepPlace) : r.CarriesTurns place fun _ a => r.Progresses a := by
  have noted (n : Note) : r.Progresses (note n) := progresses_of_counting (counting_note n)
  have others := r.progresses_asksOthers
  exact
    { others with
      begins := fun _ _ => noted _
      saves := fun _ => progresses_of_counting (counting_modify fun _ => rfl)
      helpWaits := fun _ => others.bind (noted _) fun _ =>
        progresses_of_counting (counting_modify fun _ => rfl)
      renews := others.bind (noted _) fun _ =>
        others.bind (progresses_of_counting endSession_counts) fun _ =>
          others.discard (progresses_of_counting fun _ =>
            openSession_counts.weaken fun _ _ _ => trivial)
      sends := fun prompt => sendTurn_progresses hmode prompt place
      compactSteps := fun preserve => compactStep_progresses preserve place
      agentTurns := fun hstep => agentTurn_progresses hmode hstep place .inBlock }

/-- A session that goes on is opened in the first cycle only. -/
theorem startCycle_counts (hmode : r.settings.sessionMode = .accumulate) (cycle : Nat) :
    Takes .counting (r.startCycle cycle) := by
  refine takes_bind counting_isPath (counting_modify fun _ => rfl) fun _ => ?_
  refine takes_bind counting_isPath (counting_note _) fun _ => takes_get_bind fun s => ?_
  rw [hmode]
  exact takes_discard counting_isPath fun _ => liveSession_counts.weaken fun _ _ _ => trivial

theorem executeCycles_progresses (hmode : r.settings.sessionMode = .accumulate)
    (left cycle : Nat) : r.Progresses (r.executeCycles left cycle) := by
  have trait := r.progresses_isTrait
  have steps : r.Progresses (r.executeFrom 0 0 r.conversation.steps) :=
    CarriesTurns.executeFrom (progresses_carriesTurns hmode)
      (fun place turn _ hstep => agentTurn_progresses hmode hstep place turn)
      (progresses_of_counting (counting_modify fun _ => rfl)) 0 0 _
  induction left generalizing cycle with
  | zero => exact trait.pure ()
  | succ left ih =>
    refine trait.bind ?_ fun _ => ih (cycle + 1)
    rw [executeCycle_eq]
    refine trait.bind (progresses_of_counting (startCycle_counts hmode cycle)) fun _ => ?_
    exact trait.bind steps fun _ => progresses_of_counting (counting_modify fun _ => rfl)

/-- A run opens, proceeds and shuts down. -/
theorem dialogue_proceeds (hmode : r.settings.sessionMode = .accumulate)
    {result : Except RunFailure RunReport} (h : (r.dialogue s).Reaches xs result) :
    Silent xs ∨ ∃ us ws zs opened ended report,
      xs = us ++ (ws ++ zs) ∧ r.opening.Reaches s us (.ok ()) opened ∧ Silent us ∧ Silent zs ∧
      r.Proceeds opened.tracker ws ended ∧ result = answer .completed ended report := by
  obtain ⟨ys, zs, ended, t, closed, last, rfl, hexecute, hshut, rfl⟩ := reaches_dialogue_iff.mp h
  have hclosing := Silent.of_unmarked (hshut.takes shutDown_unmarked).1
  rw [execute_eq_stopAt] at hexecute
  rcases reaches_bind_iff.mp hexecute with ⟨us, ws, _, u, rfl, hu, hcycles⟩ | ⟨ending, rfl, he⟩
  · have hopening := Silent.of_unmarked (hu.takes r.opening_unmarked).1
    have proceeds : r.Progresses (do r.stopAt 0; r.executeCycles r.settings.cycles 0) :=
      r.progresses_isTrait.bind (r.stopAt_isTrait r.progresses_isTrait 0) fun _ =>
        executeCycles_progresses hmode _ 0
    obtain ⟨-, hproceeds⟩ := proceeds u ws ended t hcycles
    rw [show ended.map (fun _ => ()) = ended from congrFun Except.map_id ended] at hproceeds
    exact .inr ⟨us, ws, zs, u, ended, last.report, List.append_assoc us ws zs, hu, hopening,
      hclosing, hproceeds, rfl⟩
  · exact .inl ((Silent.of_unmarked (he.takes r.opening_unmarked).1).append hclosing)

end Run

/-- How a run minds the limit of the context. -/
structure RespectsLimit (r : Run) (s : RunState) (xs : List Exchange)
    (result : Except RunFailure RunReport) : Prop where
  /-- Every turn is handled by what the tracker says before it. -/
  handles : ∀ {prompt place u ys ended v}, (r.sendTurn prompt place).Reaches u ys ended v →
    HandlesPrompt r u.vars u.tracker place prompt ys ended
  /-- Where the run is to stop at the limit, nothing is sent there. -/
  stops : ∀ {vars tracker place prompt ys ended},
    HandlesPrompt r vars tracker place prompt ys ended →
    tracker.IsCrowded → r.settings.onContextLimit = .stop →
    ys = [] ∧ ended = .error (.stopped (.contextLimit tracker.usage))
  /-- A turn takes one prompt, one preamble and one compaction at most. -/
  bounded : ∀ {vars tracker place prompt ys ended},
    HandlesPrompt r vars tracker place prompt ys ended →
    StaysWithin (r.settings.onContextLimitPrompt.toList.length + 1) 1 ys
  /-- A run is opened, and then all prompts and compactions are those of its turns and of steps that
  compact; the ending of the last is that of the run. -/
  proceeds : Silent xs ∨ ∃ us ws zs opened ended report,
    xs = us ++ (ws ++ zs) ∧ r.opening.Reaches s us (.ok ()) opened ∧ Silent us ∧ Silent zs ∧
    r.Proceeds opened.tracker ws ended ∧ result = Run.answer .completed ended report

namespace Run

/-- Every run whose session goes on from cycle to cycle minds the limit of the context. -/
theorem respects_limit {r : Run} (hmode : r.settings.sessionMode = .accumulate) {s : RunState}
    {xs : List Exchange} {result : Except RunFailure RunReport}
    (hr : (r.dialogue s).Reaches xs result) : RespectsLimit r s xs result where
  handles h := (sendTurn_reaches hmode h).1
  stops h := h.eq_of_stop
  bounded h := h.staysWithin
  proceeds := dialogue_proceeds hmode hr

end Run

namespace Conversation

/-- Two prompts, and a preamble to make room between them. -/
def crowdedPrompts : Compiled :=
  ⟨{ sessionMode := .accumulate, onContextLimitPrompt := some "sum up".toList },
    [.prompt "one".toList, .prompt "two".toList], none⟩

/-- The first prompt leaves no room for the second. -/
theorem room_is_made_for_second_prompt :
    ∃ r s xs result,
      Run.prepare (ofCompiled crowdedPrompts) { patientOptions with maxTokens := 1 } = .ok (r, s) ∧
      (r.dialogue s).Reaches xs result ∧
      (sentPrompts xs).length = 3 ∧ compactions xs = 1 ∧ RespectsLimit r s xs result := by
  have hp : Run.prepare (ofCompiled crowdedPrompts) { patientOptions with maxTokens := 1 } =
    .ok (_, _) := rfl
  have hr := fun r s => Dialogue.reaches_of_run
    (fun request w => (stillAnswer { cwd := [], nodes := [] } request, w)) (Run.dialogue r s) ()
  refine ⟨_, _, _, _, hp, hr _ _, ?_, ?_, Run.respects_limit rfl (hr _ _)⟩
  · decide +kernel
  · decide +kernel

end Conversation

end ConversationFlow

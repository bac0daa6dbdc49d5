import ConversationFlow.Proofs.Running.Courses
import Mathlib.Data.List.Permutation

/-!
# The sessions of a run

What a run asks of the agent, read off its exchanges: which sessions were created, which are
live, which were ended. A run opens a session only where none is live, uses and ends no other
than the live one, and leaves none behind: from the answer to `start` on, its exchanges lead from
no live session to none (`Exchange.liveAfter?`). Nothing is assumed of the agent but, where the
sessions are counted, that it gives no two sessions one name.
-/

namespace ConversationFlow

namespace Request

/-- Whether the agent is asked. -/
def isOfAgent : Request → Bool
  | .start | .stop | .create _ | .send .. | .stats _ | .compact _ | .destroy _ | .close _ => true
  | _ => false

/-- The session in which the agent is to do something. -/
def usedSession? : Request → Option Text
  | .send session .. | .stats session | .compact session => some session
  | _ => none

/-- The session that is to end. -/
def endedSession? : Request → Option Text
  | .destroy session | .close session => some session
  | _ => none

/-- Whether a session is to be opened, used or ended. -/
def concernsSession : Request → Bool
  | .create _ | .send .. | .stats _ | .compact _ | .destroy _ | .close _ => true
  | _ => false

end Request

namespace Exchange

/-- The session that was opened. -/
def createdSession? : Exchange → Option Text
  | ⟨.create _, .ok session⟩ => some session
  | _ => none

/-- The sessions that are live after an exchange. -/
def liveSessions (live : List Text) (x : Exchange) : List Text :=
  (live ++ x.createdSession?.toList).diff x.request.endedSession?.toList

end Exchange

/-- The exchanges with the agent. -/
def agentExchanges (xs : List Exchange) : List Exchange := xs.filter (·.request.isOfAgent)

/-- The sessions that were opened, in order. -/
def createdSessions (xs : List Exchange) : List Text := xs.filterMap (·.createdSession?)

/-- The sessions that the agent was asked to end, in order. -/
def endedSessions (xs : List Exchange) : List Text := xs.filterMap (·.request.endedSession?)

/-- The sessions that were opened and not ended yet. -/
def liveSessions (xs : List Exchange) : List Text := xs.foldl Exchange.liveSessions []

/-! ## One session at a time -/

/-- The live session after an exchange, if a run may have the exchange while a session is live, or
none: it opens a session only where none is live, and uses and ends no other than the live one. -/
def Exchange.liveAfter? (live : Option Text) : Exchange → Option (Option Text)
  | ⟨.create _, .ok session⟩ => if live = none then some (some session) else none
  | ⟨.create _, .error _⟩ => if live = none then some none else none
  | ⟨.send session .., _⟩ | ⟨.stats session, _⟩ | ⟨.compact session, _⟩ =>
    if live = some session then some live else none
  | ⟨.destroy session, _⟩ | ⟨.close session, _⟩ =>
    if live = some session then some none else none
  | ⟨.start, _⟩ | ⟨.stop, _⟩ => none
  | _ => some live

/-- The exchanges lead from one live session to another. -/
def Handles (live : Option Text) (xs : List Exchange) (after : Option Text) : Prop :=
  xs.foldlM Exchange.liveAfter? live = some after

namespace Handles

variable {live mid after : Option Text} {xs ys : List Exchange} {x : Exchange}

theorem nil (live : Option Text) : Handles live [] live := rfl

theorem append (h : Handles live xs mid) (h' : Handles mid ys after) :
    Handles live (xs ++ ys) after := by
  unfold Handles
  rw [List.foldlM_append, h]
  exact h'

theorem cons_iff :
    Handles live (x :: xs) after ↔ ∃ mid, x.liveAfter? live = some mid ∧ Handles mid xs after := by
  unfold Handles
  rw [List.foldlM_cons]
  exact Option.bind_eq_some_iff

theorem single (h : x.liveAfter? live = some after) : Handles live [x] after :=
  cons_iff.mpr ⟨after, h, nil after⟩

theorem split (h : Handles live (xs ++ ys) after) :
    ∃ mid, Handles live xs mid ∧ Handles mid ys after := by
  unfold Handles at h
  rw [List.foldlM_append] at h
  exact Option.bind_eq_some_iff.mp h

end Handles

namespace Exchange

variable {live after : Option Text} {request : Request} {answer : request.Answer} {session : Text}

/-- What an exchange of a run does to the sessions. -/
structure Leads (live : Option Text) (x : Exchange) (after : Option Text) : Prop where
  lives : x.liveSessions live.toList = after.toList
  balances : x.request.endedSession?.toList ++ after.toList =
    live.toList ++ x.createdSession?.toList
  names : ∀ session, x.request.usedSession? = some session ∨
    x.request.endedSession? = some session → live = some session
  isNoStart : x.request ≠ .start
  isNoStop : x.request ≠ .stop

/-- An exchange that opens and ends no session. -/
theorem leads_on (hc : createdSession? ⟨request, answer⟩ = none)
    (he : request.endedSession? = none)
    (hu : ∀ session, request.usedSession? = some session → live = some session)
    (hstart : request ≠ .start) (hstop : request ≠ .stop) :
    Leads live ⟨request, answer⟩ live where
  lives := by
    unfold Exchange.liveSessions
    rw [hc, he]
    exact List.append_nil _
  balances := by
    rw [hc, he]
    exact (List.append_nil _).symm
  names session h := by
    rcases h with h | h
    · exact hu session h
    · cases he.symm.trans h
  isNoStart := hstart
  isNoStop := hstop

/-- An exchange that ends the live session. -/
theorem leads_off (hc : createdSession? ⟨request, answer⟩ = none)
    (he : request.endedSession? = some session) (hu : request.usedSession? = none)
    (hstart : request ≠ .start) (hstop : request ≠ .stop) :
    Leads (some session) ⟨request, answer⟩ none where
  lives := by
    unfold Exchange.liveSessions
    rw [hc, he]
    exact (List.diff_cons _ _ _).trans (List.erase_cons_head session [])
  balances := by
    rw [hc, he]
  names named h := by
    rcases h with h | h
    · cases hu.symm.trans h
    · exact he.symm.trans h
  isNoStart := hstart
  isNoStop := hstop

theorem leads_of_liveAfter {x : Exchange} (h : x.liveAfter? live = some after) :
    Leads live x after := by
  obtain ⟨request, answer⟩ := x
  cases request with
  | start => cases h
  | stop => cases h
  | create options =>
    cases answer with
    | ok session =>
      obtain ⟨rfl, h⟩ := Option.ite_none_right_eq_some.mp h
      cases h
      refine ⟨rfl, rfl, fun s hs => ?_, Request.noConfusion, Request.noConfusion⟩
      rcases hs with hs | hs <;> cases hs
    | error e =>
      obtain ⟨rfl, h⟩ := Option.ite_none_right_eq_some.mp h
      cases h
      exact leads_on rfl rfl (fun s hs => by cases hs) Request.noConfusion Request.noConfusion
  | send session prompt streams =>
    obtain ⟨rfl, h⟩ := Option.ite_none_right_eq_some.mp h
    cases h
    exact leads_on rfl rfl (fun s hs => hs) Request.noConfusion Request.noConfusion
  | stats session =>
    obtain ⟨rfl, h⟩ := Option.ite_none_right_eq_some.mp h
    cases h
    exact leads_on rfl rfl (fun s hs => hs) Request.noConfusion Request.noConfusion
  | compact session =>
    obtain ⟨rfl, h⟩ := Option.ite_none_right_eq_some.mp h
    cases h
    exact leads_on rfl rfl (fun s hs => hs) Request.noConfusion Request.noConfusion
  | destroy session =>
    have hif : (if live = some session then some none else none) = some after := h
    obtain ⟨rfl, hafter⟩ := Option.ite_none_right_eq_some.mp hif
    cases hafter
    exact leads_off rfl rfl rfl Request.noConfusion Request.noConfusion
  | close session =>
    have hif : (if live = some session then some none else none) = some after := h
    obtain ⟨rfl, hafter⟩ := Option.ite_none_right_eq_some.mp hif
    cases hafter
    exact leads_off rfl rfl rfl Request.noConfusion Request.noConfusion
  | host | command | files | save | write | stamp | now | clock | note =>
    cases h
    exact leads_on rfl rfl (fun s hs => by cases hs) Request.noConfusion Request.noConfusion

end Exchange

namespace Handles

variable {live after : Option Text} {xs ys zs : List Exchange} {x : Exchange} {session : Text}

theorem lives (h : Handles live xs after) :
    xs.foldl Exchange.liveSessions live.toList = after.toList := by
  induction xs generalizing live with
  | nil =>
    cases h
    rfl
  | cons x xs ih =>
    obtain ⟨mid, hx, hrest⟩ := cons_iff.mp h
    rw [List.foldl_cons, (Exchange.leads_of_liveAfter hx).lives]
    exact ih hrest

/-- Every session is ended in its turn, but for one that is still live. -/
theorem balances (h : Handles live xs after) :
    endedSessions xs ++ after.toList = live.toList ++ createdSessions xs := by
  induction xs generalizing live with
  | nil =>
    cases h
    exact (List.append_nil _).symm
  | cons x xs ih =>
    obtain ⟨mid, hx, hrest⟩ := cons_iff.mp h
    have hone := (Exchange.leads_of_liveAfter hx).balances
    have hall := ih hrest
    simp only [endedSessions, createdSessions, List.filterMap_eq_flatMap_toList,
      List.flatMap_cons] at hall ⊢
    rw [List.append_assoc, hall, ← List.append_assoc, hone, List.append_assoc]

/-- Only the live session is used and ended. -/
theorem names (h : Handles live (ys ++ x :: zs) after)
    (hs : x.request.usedSession? = some session ∨ x.request.endedSession? = some session) :
    Handles live ys (some session) := by
  obtain ⟨mid, hys, hrest⟩ := h.split
  obtain ⟨next, hx, -⟩ := cons_iff.mp hrest
  rwa [(Exchange.leads_of_liveAfter hx).names session hs] at hys

theorem isNoStart_isNoStop (h : Handles live xs after) :
    ∀ x ∈ xs, x.request ≠ .start ∧ x.request ≠ .stop := by
  intro x hx
  obtain ⟨ys, zs, rfl⟩ := List.append_of_mem hx
  obtain ⟨mid, -, hrest⟩ := h.split
  obtain ⟨next, hx, -⟩ := cons_iff.mp hrest
  exact ⟨(Exchange.leads_of_liveAfter hx).isNoStart, (Exchange.leads_of_liveAfter hx).isNoStop⟩

/-- Exchanges with others than the agent. -/
theorem of_others (h : ∀ x ∈ xs, x.request.isOfAgent = false) : Handles live xs live := by
  induction xs with
  | nil => exact nil live
  | cons x xs ih =>
    refine cons_iff.mpr ⟨live, ?_, ih fun y hy => h y (List.mem_cons_of_mem x hy)⟩
    have hx := h x List.mem_cons_self
    obtain ⟨request, answer⟩ := x
    cases request with
    | host | command | files | save | write | stamp | now | clock | note => rfl
    | _ => cases hx

end Handles

/-! ## Actions on sessions -/

/-- The exchanges lead from the session of the first state to that of the second; what was asked of
the agent before the first session stays as it is. -/
def Course.onSessions : Course := fun s xs t =>
  Handles s.session xs t.session ∧ t.isStarted = s.isStarted

namespace Run

open ConversationFlow.Action

variable (r : Run) (place : StepPlace) {s : RunState}

theorem onSessions_isPath : Course.onSessions.IsPath where
  rest _ := ⟨.nil _, rfl⟩
  join h h' := ⟨h.1.append h'.1, h'.2.trans h.2⟩

/-- Requests to others than the agent keep to the course, and so do changes of the state that leave
the session alone. -/
theorem onSessions_of_quiet {request : Request} (hq : request.IsQuiet) (answer : request.Answer)
    (s : RunState) : Course.onSessions s [⟨request, answer⟩] s := by
  refine ⟨.of_others ?_, rfl⟩
  intro x hx
  obtain rfl := List.mem_singleton.mp hx
  cases request with
  | host | command | files | save | write | stamp | now | clock => rfl
  | _ => cases hq

theorem onSessions_of_eq {s t : RunState} (h : t.session = s.session)
    (hs : t.isStarted = s.isStarted) : Course.onSessions s [] t := by
  refine ⟨?_, hs⟩
  rw [h]
  exact .nil _

/-- A session is opened where none is live. -/
theorem openSession_gives (hs : s.session = none) :
    Gives .onSessions s r.openSession fun session t => t.session = some session := by
  intro xs result t h
  unfold Course.onSessions
  rw [hs]
  obtain ⟨answer, ys, rfl, hnext⟩ := reaches_ask_bind_iff.mp h
  cases answer with
  | ok session =>
    have hdone : Reaches (pure session) { s with
        session := some session
        owesInstruction := true
        tracker := s.tracker.resetConversation } ys result t := hnext
    obtain ⟨rfl, rfl, rfl⟩ := reaches_pure_iff.mp hdone
    exact ⟨⟨.single rfl, rfl⟩, rfl⟩
  | error e =>
    obtain ⟨rfl, rfl, rfl⟩ := reaches_throw_iff.mp hnext
    refine ⟨⟨.single ?_, rfl⟩, trivial⟩
    rw [hs]
    rfl

/-- No session is live after one was ended, whatever the agent answers. -/
theorem endSession_gives : Gives .onSessions s endSession fun _ t => t.session = none := by
  intro xs result t h
  have hfound := reaches_get_bind_iff.mp h
  unfold Course.onSessions
  cases hs : s.session with
  | none =>
    rw [hs] at hfound
    obtain ⟨rfl, rfl, rfl⟩ := reaches_pure_iff.mp hfound
    rw [hs]
    exact ⟨⟨.nil _, rfl⟩, hs⟩
  | some session =>
    rw [hs] at hfound
    obtain ⟨answer, ys, rfl, hnext⟩ := reaches_ask_bind_iff.mp (reaches_modify_bind_iff.mp hfound)
    cases answer with
    | ok _ =>
      obtain ⟨rfl, rfl, rfl⟩ := reaches_pure_iff.mp hnext
      exact ⟨⟨.single (if_pos rfl), rfl⟩, rfl⟩
    | error e =>
      obtain ⟨rfl, rfl, rfl⟩ := reaches_throw_iff.mp hnext
      exact ⟨⟨.single (if_pos rfl), rfl⟩, trivial⟩

theorem liveSession_gives :
    Gives .onSessions s r.liveSession fun session t => t.session = some session := by
  refine gives_get_bind ?_
  cases hs : s.session with
  | some session => exact gives_pure onSessions_isPath hs
  | none => exact r.openSession_gives hs

/-- A request in the live session. -/
theorem uses_gives {request : Request} {session : Text} (hs : s.session = some session)
    (hu : ∀ answer, Exchange.liveAfter? (some session) ⟨request, answer⟩ = some (some session)) :
    Gives .onSessions s (ask request) fun _ t => t = s := by
  refine gives_ask fun answer => ⟨⟨?_, rfl⟩, rfl⟩
  rw [hs]
  exact .single (hu answer)

theorem orAgentFailure_gives {β : Type} (at? : Option StepPlace) (answer : Except AgentError β) :
    Gives .onSessions s (orAgentFailure at? answer) fun _ t => t = s :=
  gives_orAgentFailure onSessions_isPath fun _ _ => rfl

/-- Compacting and counting in the live session. -/
theorem compactNow_gives {session : Text} (hs : s.session = some session) :
    Gives .onSessions s (compactNow session place) fun _ _ => True := by
  refine gives_bind onSessions_isPath _ (uses_gives hs fun _ => if_pos rfl) fun answer t ht => ?_
  obtain rfl := ht
  refine gives_bind onSessions_isPath _ (orAgentFailure_gives _ _) fun _ t ht => ?_
  obtain rfl := ht
  refine gives_bind onSessions_isPath _ (uses_gives hs fun _ => if_pos rfl) fun stats t ht => ?_
  obtain rfl := ht
  split
  · exact gives_modify (onSessions_of_eq rfl rfl) trivial
  · exact gives_modify (onSessions_of_eq rfl rfl) trivial

theorem instructed_gives (prompt : Text) :
    Gives .onSessions s (instructed prompt) fun _ t => t.session = s.session := by
  refine gives_get_bind ?_
  split
  · refine gives_bind onSessions_isPath (fun _ t => t.session = s.session) ?_ fun _ t ht => ?_
    · exact gives_set (onSessions_of_eq rfl rfl) rfl
    · exact gives_pure onSessions_isPath ht
  · exact gives_pure onSessions_isPath rfl

theorem judge_takes (response : Response) (toolCalls : Nat) :
    Takes .onSessions (judge response toolCalls) := by
  refine takes_bind onSessions_isPath (takes_ask (onSessions_of_quiet trivial)) fun files => ?_
  refine fun s => gives_get_bind ?_
  refine gives_bind onSessions_isPath (fun _ _ => True) ?_ fun _ t _ => ?_
  · exact gives_set (onSessions_of_eq rfl rfl) trivial
  · split
    · exact gives_pure onSessions_isPath trivial
    · refine gives_throw onSessions_isPath ?_
      split <;> rfl

theorem exchange_takes (prompt : Text) : Takes .onSessions (r.exchange prompt place) := by
  intro s
  refine gives_bind onSessions_isPath _ r.liveSession_gives fun session t hs => ?_
  refine gives_bind onSessions_isPath _ (instructed_gives prompt) fun sent u hu => ?_
  rw [hs] at hu
  refine gives_bind onSessions_isPath (fun _ v => v = u) ?_ fun _ v hv => ?_
  · exact gives_ask fun answer => ⟨⟨.single rfl, rfl⟩, rfl⟩
  obtain rfl := hv
  refine gives_bind onSessions_isPath _ (uses_gives hu fun _ => if_pos rfl) fun answer v hv => ?_
  obtain rfl := hv
  refine gives_bind onSessions_isPath _ (orAgentFailure_gives _ _) fun response v hv => ?_
  obtain rfl := hv
  refine gives_bind onSessions_isPath (fun _ v => v.session = some session) ?_
    fun _ v hv => ?_
  · exact gives_modify (onSessions_of_eq rfl rfl) hu
  refine gives_bind onSessions_isPath _ (uses_gives hv fun _ => if_pos rfl) fun stats w _ => ?_
  refine takes_bind onSessions_isPath (takes_modify fun s => ?_) (fun _ => judge_takes response _) w
  split
  · exact onSessions_of_eq rfl rfl
  · exact onSessions_of_eq rfl rfl

theorem compactLive_takes : Takes .onSessions (do compactNow (← r.liveSession) place) := by
  intro s
  exact gives_bind onSessions_isPath _ r.liveSession_gives fun session t hs =>
    compactNow_gives place hs

theorem renew_takes : Takes .onSessions (do endSession; discard r.openSession) := by
  intro s
  refine gives_bind onSessions_isPath _ endSession_gives fun _ t ht => ?_
  exact gives_bind onSessions_isPath _ (r.openSession_gives ht) fun _ _ _ =>
    gives_pure onSessions_isPath trivial

theorem compose_takes (body : Text) (turn : TurnPlace) (fillings : List (Text × Text)) :
    Takes .onSessions (r.compose body turn fillings) := by
  refine fun s => gives_get_bind ?_
  refine gives_bind onSessions_isPath (fun _ _ => True) ?_ fun _ t _ => ?_
  · exact gives_set (onSessions_of_eq rfl rfl) trivial
  refine gives_bind onSessions_isPath (fun _ _ => True) ?_ fun _ u _ => ?_
  · exact gives_ask fun answer => ⟨⟨.single rfl, rfl⟩, trivial⟩
  · exact gives_pure onSessions_isPath trivial

theorem loadContext_gives :
    Gives .onSessions s r.loadContext fun _ t => t.session = s.session := by
  refine gives_bind onSessions_isPath (fun _ t => t = s) ?_ fun files t ht => ?_
  · exact gives_ask fun answer => ⟨⟨.single rfl, rfl⟩, rfl⟩
  obtain rfl := ht
  refine gives_get_bind ?_
  refine gives_bind onSessions_isPath (fun _ u => u.session = t.session) ?_ fun _ u hu => ?_
  · exact gives_set (onSessions_of_eq rfl rfl) rfl
  exact gives_orContextFailure onSessions_isPath fun _ _ => hu

/-- Between cycles the session is kept, compacted, or ended before the next is opened. -/
theorem beginCycle_takes : Takes .onSessions r.beginCycle := by
  have live : Takes .onSessions (discard r.liveSession) :=
    takes_discard onSessions_isPath (takes_of_gives _ fun s => r.liveSession_gives)
  have opened {s : RunState} (hs : s.session = none) :
      Gives .onSessions s (discard r.openSession >>= fun _ => discard r.liveSession)
        fun _ _ => True := by
    refine gives_bind onSessions_isPath (fun _ _ => True) ?_ fun _ _ _ => live _
    exact gives_bind onSessions_isPath _ (r.openSession_gives hs) fun _ _ _ =>
      gives_pure onSessions_isPath trivial
  refine fun s => gives_get_bind ?_
  dsimp only
  split
  · refine gives_bind onSessions_isPath _ endSession_gives fun _ t ht => ?_
    split
    · refine gives_bind onSessions_isPath (fun _ u => u.session = none) ?_ fun _ u hu => ?_
      · exact gives_modify (onSessions_of_eq rfl rfl) ht
      refine gives_bind onSessions_isPath (fun _ u => u.session = none) ?_
        fun _ u hu => opened hu
      refine gives_bind onSessions_isPath _ r.loadContext_gives fun _ v hv => ?_
      exact gives_pure onSessions_isPath (hv.trans hu)
    · exact opened ht
  · cases hs : s.session with
    | some session =>
      dsimp only
      split
      · exact gives_bind onSessions_isPath _ (compactNow_gives _ hs) fun _ _ _ => live _
      · exact live _
    | none => exact live _
  · exact live _

/-- The course is taken by the steps at every place. -/
theorem onSessions_allows : Course.onSessions.Allows r place where
  toIsPath := onSessions_isPath
  quiet := onSessions_of_quiet
  begun _ _ _ := ⟨.single rfl, rfl⟩
  reported _ _ _ := onSessions_of_eq rfl rfl
  helpWaits _ _ := onSessions_of_eq rfl rfl
  renews := r.renew_takes
  exchanges prompt := r.exchange_takes place prompt
  compacts := r.compactLive_takes place
  composes := r.compose_takes

/-- The course is taken by everything between the answer to the start and the shutting down. -/
theorem onSessions_allowsCycles : Course.onSessions.AllowsCycles r where
  toIsPath := onSessions_isPath
  steps := r.onSessions_allows
  begins cycle := by
    refine takes_bind onSessions_isPath (takes_modify fun s => onSessions_of_eq rfl rfl) fun _ => ?_
    refine takes_bind onSessions_isPath (takes_ask fun answer s => ?_) fun _ => r.beginCycle_takes
    exact ⟨.single rfl, rfl⟩
  dropsHelp _ := onSessions_of_eq rfl rfl
  counts _ := onSessions_of_eq rfl rfl

end Run

/-! ## Before the start -/

/-- Nothing is asked of the agent. -/
def Course.withoutAgent : Course := fun s xs t =>
  (∀ x ∈ xs, x.request.isOfAgent = false) ∧ t.session = s.session ∧ t.isStarted = s.isStarted

namespace Run

open ConversationFlow.Action

variable (r : Run)

theorem withoutAgent_isPath : Course.withoutAgent.IsPath where
  rest _ := ⟨fun _ hx => absurd hx List.not_mem_nil, rfl, rfl⟩
  join h h' := ⟨List.forall_mem_append.mpr ⟨h.1, h'.1⟩, h'.2.1.trans h.2.1, h'.2.2.trans h.2.2⟩

theorem withoutAgent_of_eq {s t : RunState} (h : t.session = s.session)
    (hs : t.isStarted = s.isStarted) : Course.withoutAgent s [] t :=
  ⟨fun _ hx => absurd hx List.not_mem_nil, h, hs⟩

theorem withoutAgent_ask {request : Request} (h : request.isOfAgent = false) :
    Takes .withoutAgent (ask request) :=
  takes_ask fun _ _ => ⟨List.forall_mem_singleton.mpr h, rfl, rfl⟩

theorem checkPreconditions_takes : Takes .withoutAgent r.checkPreconditions := by
  refine withoutAgent_isPath.isTrait.checkPreconditions (withoutAgent_ask rfl) (fun _ => ?_) ?_
  · exact takes_modify fun s => withoutAgent_of_eq rfl rfl
  · refine takes_bind withoutAgent_isPath (withoutAgent_ask rfl) fun files => ?_
    intro s
    refine gives_get_bind (gives_bind withoutAgent_isPath (fun _ _ => True) ?_ fun _ t _ => ?_)
    · exact gives_set (withoutAgent_of_eq rfl rfl) trivial
    · exact takes_orContextFailure withoutAgent_isPath _ t

end Run

end ConversationFlow

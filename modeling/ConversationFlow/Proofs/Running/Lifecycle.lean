import ConversationFlow.Proofs.Running.Gates
import ConversationFlow.Run.World

/-!
# The agent in the course of a run

A run asks the agent to start before anything else and to stop after everything else, and between
the two it opens, uses and ends its sessions, one at a time. A run that ends before the start
asks the agent for nothing, and one whose start fails asks it for nothing more.
-/

namespace ConversationFlow

namespace Dialogue

variable {β : Type}

/-- The answers decide where a dialogue ends. -/
theorem Reaches.eq_of_append {d : Dialogue β} {xs ys zs ws : List Exchange} {b c : β}
    (h : d.Reaches xs b) (h' : d.Reaches ys c) (he : xs ++ zs = ys ++ ws) : xs = ys ∧ b = c := by
  induction h generalizing ys with
  | done b =>
    obtain ⟨rfl, rfl⟩ := reaches_done_iff.mp h'
    exact ⟨rfl, rfl⟩
  | ask answer rest ih =>
    obtain _ | ⟨answer', rest'⟩ := h'
    obtain ⟨hhead, htail⟩ := List.cons.inj he
    cases hhead
    obtain ⟨rfl, rfl⟩ := ih rest' htail
    exact ⟨rfl, rfl⟩

end Dialogue

/-- How a run deals with the agent. -/
inductive DealsWithAgent (xs : List Exchange) : Prop where
  /-- It asks for nothing. -/
  | not (others : ∀ x ∈ xs, x.request.isOfAgent = false)
  /-- The start fails, and nothing more is asked. -/
  | failed (ys : List Exchange) (e : AgentError) (eq : xs = ys ++ [⟨.start, .error e⟩])
      (others : ∀ y ∈ ys, y.request.isOfAgent = false)
  /-- The agent is started, sessions come and go, and the agent is stopped. -/
  | served (ys zs : List Exchange) (answer : Except AgentError Unit)
      (eq : xs = ys ++ ⟨.start, .ok ()⟩ :: (zs ++ [⟨.stop, answer⟩]))
      (others : ∀ y ∈ ys, y.request.isOfAgent = false) (sessions : Handles none zs none)

/-! ## Before the start and after the end -/

namespace Run

open ConversationFlow.Action

variable (r : Run) {s : RunState}

/-- How a run begins: with requests to others, then with the start, unless it ends before. -/
theorem opening_reaches {xs : List Exchange} {result : Except Ending Unit} {t : RunState}
    (h : r.opening.Reaches s xs result t) :
    Course.withoutAgent s xs t ∧ result ≠ .ok () ∨
    ∃ ys, (∀ y ∈ ys, y.request.isOfAgent = false) ∧ t.session = s.session ∧
      ((∃ e, xs = ys ++ [⟨.start, .error e⟩]) ∧ result ≠ .ok () ∧ t.isStarted = s.isStarted ∨
        xs = ys ++ [⟨.start, .ok ()⟩] ∧ result = .ok () ∧ t.isStarted = true) := by
  rcases reaches_bind_iff.mp h with ⟨ys, zs, _, u, rfl, hy, hz⟩ | ⟨e, rfl, he⟩
  · obtain ⟨⟨hquiet, hsession, hstarted⟩, -⟩ := r.checkPreconditions_takes s ys _ u hy
    obtain ⟨files, _, rfl, hfiles⟩ := reaches_ask_bind_iff.mp hz
    obtain ⟨now, _, rfl, hnow⟩ := reaches_ask_bind_iff.mp hfiles
    obtain ⟨answer, ws, rfl, hw⟩ := reaches_ask_bind_iff.mp (reaches_modify_bind_iff.mp hnow)
    have hothers : ∀ y ∈ ys ++ [⟨.files, files⟩, ⟨.now, now⟩], y.request.isOfAgent = false := by
      refine List.forall_mem_append.mpr ⟨hquiet, ?_⟩
      exact List.forall_mem_cons.mpr ⟨rfl, List.forall_mem_singleton.mpr rfl⟩
    refine .inr ⟨_, hothers, ?_⟩
    cases answer with
    | ok _ =>
      obtain ⟨rfl, rfl, rfl⟩ := reaches_modify_iff.mp hw
      refine ⟨hsession, .inr ⟨?_, rfl, rfl⟩⟩
      rw [List.append_assoc]
      rfl
    | error e =>
      obtain ⟨rfl, rfl, rfl⟩ := reaches_throw_iff.mp hw
      refine ⟨hsession, .inl ⟨⟨e, ?_⟩, fun he => (by cases he), hstarted⟩⟩
      rw [List.append_assoc]
      rfl
  · exact .inl ⟨(r.checkPreconditions_takes s xs _ t he).1, fun he => (by cases he)⟩

/-- How a run is shut down: a live session is closed, and an agent that was started is stopped. -/
theorem shutDown_reaches {xs : List Exchange} {result : Except Ending Unit} {t : RunState}
    (h : shutDown.Reaches s xs result t) :
    ∃ ys zs, xs = ys ++ zs ∧ Handles s.session ys none ∧ (s.session = none → ys = []) ∧
      (s.isStarted = true → ∃ answer, zs = [⟨.stop, answer⟩]) ∧
      (s.isStarted = false → zs = []) := by
  have stops {u : RunState} {zs : List Exchange}
      (hz : Reaches (do if (← get).isStarted then discard (ask .stop)) u zs result t) :
      (u.isStarted = true → ∃ answer, zs = [⟨.stop, answer⟩]) ∧
        (u.isStarted = false → zs = []) := by
    have hu := reaches_get_bind_iff.mp hz
    cases hs : u.isStarted with
    | true =>
      rw [hs] at hu
      obtain ⟨answer, ws, rfl, hw⟩ := reaches_ask_bind_iff.mp hu
      obtain ⟨rfl, -, -⟩ := reaches_pure_iff.mp hw
      exact ⟨fun _ => ⟨answer, rfl⟩, fun he => by cases he⟩
    | false =>
      rw [hs] at hu
      obtain ⟨rfl, -, -⟩ := reaches_pure_iff.mp hu
      exact ⟨fun he => (by cases he), fun _ => rfl⟩
  have hfound := reaches_get_bind_iff.mp h
  cases hs : s.session with
  | none =>
    rw [hs] at hfound
    obtain ⟨hstarted, hnot⟩ := stops hfound
    exact ⟨[], xs, rfl, .nil _, fun _ => rfl, hstarted, hnot⟩
  | some session =>
    rw [hs] at hfound
    have closes {ys : List Exchange} {closed : Except Ending Unit} {u : RunState}
        (hy : Reaches (discard (ask (.close session))) { s with session := none } ys closed u) :
        ∃ answer, ys = [⟨.close session, answer⟩] ∧ closed = .ok () ∧
          u = { s with session := none } := by
      obtain ⟨answer, ws, rfl, hw⟩ := reaches_ask_bind_iff.mp hy
      obtain ⟨rfl, rfl, rfl⟩ := reaches_pure_iff.mp hw
      exact ⟨answer, rfl, rfl, rfl⟩
    have hclose := reaches_bind_iff.mp (reaches_modify_bind_iff.mp hfound)
    rcases hclose with ⟨ys, zs, _, u, rfl, hy, hz⟩ | ⟨e, rfl, he⟩
    · obtain ⟨answer, rfl, -, rfl⟩ := closes hy
      obtain ⟨hstarted, hnot⟩ := stops hz
      exact ⟨_, zs, rfl, .single (if_pos rfl), fun hn => (by cases hn), hstarted, hnot⟩
    · obtain ⟨answer, -, hok, -⟩ := closes he
      cases hok

/-! ## A whole run -/

/-- A run from its first state deals with the agent. -/
theorem dealsWithAgent {xs : List Exchange} {result : Except RunFailure RunReport}
    (hsession : s.session = none) (hstarted : s.isStarted = false)
    (h : (r.dialogue s).Reaches xs result) : DealsWithAgent xs := by
  obtain ⟨as, bs, ended, t, closed, last, rfl, hexecute, hshut, -⟩ := reaches_dialogue_iff.mp h
  obtain ⟨ys, zs, rfl, hys, hnone, hstop, hquiet⟩ := shutDown_reaches hshut
  rw [execute_eq_stopAt] at hexecute
  -- What is left of the run once it ended before the start, or at it.
  have ends (ht : t.session = s.session) (hn : t.isStarted = s.isStarted) : ys ++ zs = [] := by
    rw [hnone (ht.trans hsession), hquiet (hn.trans hstarted)]
    rfl
  rcases reaches_bind_iff.mp hexecute with ⟨us, vs, _, u, rfl, hu, hv⟩ | ⟨e, rfl, he⟩
  · rcases r.opening_reaches hu with ⟨-, hne⟩ | ⟨ws, hws, hsame, ⟨-, hne, -⟩ | ⟨rfl, -, hon⟩⟩
    · exact absurd rfl hne
    · exact absurd rfl hne
    · have hgates : Takes .onSessions (r.stopAt 0) := by
        unfold stopAt
        split
        · exact takes_stop onSessions_isPath rfl
        · exact takes_pure onSessions_isPath ()
      have hcycles := takes_bind onSessions_isPath hgates fun _ =>
        r.onSessions_allowsCycles.executeCycles r.settings.cycles 0
      obtain ⟨⟨hvs, hkept⟩, -⟩ := hcycles u vs _ t hv
      rw [hsame, hsession] at hvs
      obtain ⟨answer, rfl⟩ := hstop (hkept.trans hon)
      refine .served ws (vs ++ ys) answer ?_ hws (hvs.append hys)
      simp only [List.append_assoc, List.cons_append, List.nil_append]
  · rcases r.opening_reaches he with ⟨⟨hothers, ht, hn⟩, -⟩ |
      ⟨ws, hws, ht, ⟨⟨e, rfl⟩, -, hn⟩ | ⟨-, hok, -⟩⟩
    · refine .not ?_
      rwa [ends ht hn, List.append_nil]
    · refine .failed ws e ?_ hws
      rw [ends ht hn, List.append_nil]
    · cases hok

/-- A run whose preconditions fail asks the agent for nothing. -/
theorem others_of_preconditions {xs ys : List Exchange} {result : Except RunFailure RunReport}
    {ending : Ending} {t : RunState} (hsession : s.session = none)
    (hstarted : s.isStarted = false) (h : (r.dialogue s).Reaches xs result)
    (hp : r.checkPreconditions.Reaches s ys (.error ending) t) (hys : ys <+: xs) :
    ∀ x ∈ xs, x.request.isOfAgent = false := by
  obtain ⟨rest, rfl⟩ := hys
  obtain ⟨as, bs, ended, u, closed, last, heq, hexecute, hshut, -⟩ := reaches_dialogue_iff.mp h
  obtain ⟨cs, ds, rfl, -, hnone, -, hquiet⟩ := shutDown_reaches hshut
  rcases reaches_bind_iff.mp hexecute with ⟨us, vs, _, v, rfl, hu, -⟩ | ⟨e, rfl, he⟩
  · obtain ⟨-, hsame⟩ := hp.eq_of_append hu (heq.trans (List.append_assoc _ _ _))
    cases hsame
  · obtain ⟨⟨hothers, ht, hn⟩, -⟩ := r.checkPreconditions_takes s as _ u he
    rw [heq, hnone (ht.trans hsession), hquiet (hn.trans hstarted), List.append_nil,
      List.append_nil]
    exact hothers

end Run

/-! ## What the exchanges say of sessions -/

namespace Exchange

variable {x : Exchange}

/-- Exchanges that concern no session leave the sessions as they are. -/
theorem neutral_of_unconcerned (h : x.request.concernsSession = false) :
    x.createdSession? = none ∧ x.request.endedSession? = none ∧ x.request.usedSession? = none := by
  obtain ⟨request, answer⟩ := x
  cases request with
  | create | send | stats | compact | destroy | close => cases h
  | _ => exact ⟨rfl, rfl, rfl⟩

theorem concerns_of_names {session : Text} (h : x.request.usedSession? = some session ∨
    x.request.endedSession? = some session) : x.request.concernsSession = true := by
  by_contra hn
  obtain ⟨-, he, hu⟩ := neutral_of_unconcerned (Bool.eq_false_of_not_eq_true hn)
  rcases h with h | h
  · cases hu.symm.trans h
  · cases he.symm.trans h

theorem isOfAgent_of_concerns (h : x.request.concernsSession = true) :
    x.request.isOfAgent = true ∧ x.request ≠ .start ∧ x.request ≠ .stop := by
  obtain ⟨request, answer⟩ := x
  cases request with
  | create | send | stats | compact | destroy | close =>
    exact ⟨rfl, Request.noConfusion, Request.noConfusion⟩
  | _ => cases h

end Exchange

/-- The exchanges that concern sessions. -/
def sessionExchanges (xs : List Exchange) : List Exchange := xs.filter (·.request.concernsSession)

theorem sessionExchanges_of_others {xs : List Exchange}
    (h : ∀ x ∈ xs, x.request.isOfAgent = false) : sessionExchanges xs = [] := by
  refine List.filter_eq_nil_iff.mpr fun x hx hc => ?_
  have hagent := (Exchange.isOfAgent_of_concerns hc).1
  rw [h x hx] at hagent
  cases hagent

/-- Sessions are read off the exchanges that concern them. -/
theorem sessions_sessionExchanges (xs : List Exchange) :
    liveSessions (sessionExchanges xs) = liveSessions xs ∧
      createdSessions (sessionExchanges xs) = createdSessions xs ∧
      endedSessions (sessionExchanges xs) = endedSessions xs := by
  refine ⟨?_, ?_, ?_⟩
  · unfold liveSessions sessionExchanges
    rw [List.foldl_filter]
    congr 1
    funext live x
    split
    · rfl
    · next hx =>
      obtain ⟨hc, he, -⟩ := Exchange.neutral_of_unconcerned (Bool.eq_false_of_not_eq_true hx)
      unfold Exchange.liveSessions
      rw [hc, he]
      exact (List.append_nil live).symm
  · unfold createdSessions sessionExchanges
    rw [List.filterMap_filter]
    congr 1
    funext x
    split
    · rfl
    · next hx =>
      exact (Exchange.neutral_of_unconcerned (Bool.eq_false_of_not_eq_true hx)).1.symm
  · unfold endedSessions sessionExchanges
    rw [List.filterMap_filter]
    congr 1
    funext x
    split
    · rfl
    · next hx =>
      exact (Exchange.neutral_of_unconcerned (Bool.eq_false_of_not_eq_true hx)).2.1.symm

/-- What concerns no session may be left out. -/
theorem Handles.sessionExchanges {live after : Option Text} {xs : List Exchange}
    (h : Handles live xs after) : Handles live (sessionExchanges xs) after := by
  induction xs generalizing live with
  | nil => exact h
  | cons x xs ih =>
    obtain ⟨mid, hx, hrest⟩ := cons_iff.mp h
    unfold ConversationFlow.sessionExchanges at ih ⊢
    rw [List.filter_cons]
    split
    · exact cons_iff.mpr ⟨mid, hx, ih hrest⟩
    · next hn =>
      have hsame : mid = live := by
        obtain ⟨request, answer⟩ := x
        cases request with
        | create | send | stats | compact | destroy | close => exact absurd rfl hn
        | start | stop => cases hx
        | _ =>
          cases hx
          rfl
      rw [hsame] at hrest
      exact ih hrest

namespace DealsWithAgent

variable {xs : List Exchange} (h : DealsWithAgent xs)
include h

theorem handles : Handles none (sessionExchanges xs) none := by
  cases h with
  | not others =>
    rw [sessionExchanges_of_others others]
    exact .nil none
  | failed ys e eq others =>
    have hys := sessionExchanges_of_others others
    unfold sessionExchanges at hys ⊢
    rw [eq, List.filter_append, hys]
    exact .nil none
  | served ys zs answer eq others sessions =>
    have hys := sessionExchanges_of_others others
    have hzs := sessions.sessionExchanges
    unfold sessionExchanges at hys hzs ⊢
    rw [eq, List.filter_append, hys, List.nil_append, List.filter_cons_of_neg Bool.false_ne_true,
      List.filter_append, List.filter_cons_of_neg Bool.false_ne_true, List.filter_nil,
      List.append_nil]
    exact hzs

/-- Only the live session is used and ended. -/
theorem names_live {ys zs : List Exchange} {x : Exchange} {session : Text}
    (hx : xs = ys ++ x :: zs) (hs : x.request.usedSession? = some session ∨
      x.request.endedSession? = some session) : liveSessions ys = [session] := by
  have hall := h.handles
  unfold sessionExchanges at hall
  rw [hx, List.filter_append, List.filter_cons, if_pos (Exchange.concerns_of_names hs)] at hall
  have hlive := (hall.names hs).lives
  rw [← (sessions_sessionExchanges ys).1]
  exact hlive

theorem length_liveSessions_le {ys : List Exchange} (hy : ys <+: xs) :
    (liveSessions ys).length ≤ 1 := by
  obtain ⟨zs, rfl⟩ := hy
  have hall := h.handles
  unfold sessionExchanges at hall
  rw [List.filter_append] at hall
  obtain ⟨mid, hys, -⟩ := hall.split
  have hlive : liveSessions (sessionExchanges ys) = mid.toList := hys.lives
  rw [← (sessions_sessionExchanges ys).1, hlive]
  exact Option.length_toList_le

/-- The sessions are ended in the order in which they were opened. -/
theorem endedSessions_eq : endedSessions xs = createdSessions xs := by
  have hall := h.handles.balances
  rw [(sessions_sessionExchanges xs).2.1, (sessions_sessionExchanges xs).2.2] at hall
  simpa using hall

end DealsWithAgent

/-! ## The lifecycle -/

/-- What the exchanges of a run say of the agent and its sessions. -/
structure AgentLifecycle (xs : List Exchange) : Prop where
  /-- The start comes before anything else that is asked of the agent, and once. -/
  startFirst : agentExchanges xs = [] ∨ ∃ answer rest,
    agentExchanges xs = ⟨.start, answer⟩ :: rest ∧ ∀ x ∈ rest, x.request ≠ .start
  /-- Nothing is asked of an agent that did not start. -/
  failedStart : ∀ e, ⟨.start, .error e⟩ ∈ xs → agentExchanges xs = [⟨.start, .error e⟩]
  /-- Sessions are for an agent that started. -/
  sessionsAfterStart : ∀ ys x zs, xs = ys ++ x :: zs → x.request.concernsSession = true →
    ⟨.start, .ok ()⟩ ∈ ys
  /-- The sessions are ended in the order in which they were opened, and no others are. -/
  endedInOrder : endedSessions xs = createdSessions xs
  /-- Where no two sessions have one name, each that was opened is ended exactly once. -/
  endedOnce : (createdSessions xs).Nodup →
    ∀ session ∈ createdSessions xs, (endedSessions xs).count session = 1
  /-- What is used or ended is the live session. -/
  namesLive : ∀ ys x zs session, xs = ys ++ x :: zs →
    x.request.usedSession? = some session ∨ x.request.endedSession? = some session →
    liveSessions ys = [session]
  /-- At any time at most one session is live. -/
  oneLive : ∀ ys, ys <+: xs → (liveSessions ys).length ≤ 1
  /-- An agent that started is stopped, once, and after all else. -/
  stopLast : ⟨.start, .ok ()⟩ ∈ xs → ∃ before answer,
    agentExchanges xs = before ++ [⟨.stop, answer⟩] ∧ ∀ x ∈ before, x.request ≠ .stop
  /-- No other agent is stopped. -/
  stopStarted : ∀ x ∈ xs, x.request = .stop → ⟨.start, .ok ()⟩ ∈ xs

theorem agentExchanges_of_others {ys : List Exchange}
    (h : ∀ y ∈ ys, y.request.isOfAgent = false) : agentExchanges ys = [] :=
  List.filter_eq_nil_iff.mpr fun y hy => by
    rw [h y hy]
    exact Bool.false_ne_true

namespace DealsWithAgent

variable {xs : List Exchange}

theorem agentExchanges_failed {ys : List Exchange} {e : AgentError}
    (others : ∀ y ∈ ys, y.request.isOfAgent = false) :
    agentExchanges (ys ++ [⟨.start, .error e⟩]) = [⟨.start, .error e⟩] := by
  have hys := agentExchanges_of_others others
  unfold agentExchanges at hys ⊢
  rw [List.filter_append, hys]
  rfl

theorem agentExchanges_served {ys zs : List Exchange} {answer : Except AgentError Unit}
    (others : ∀ y ∈ ys, y.request.isOfAgent = false) :
    agentExchanges (ys ++ ⟨.start, .ok ()⟩ :: (zs ++ [⟨.stop, answer⟩])) =
      ⟨.start, .ok ()⟩ :: (agentExchanges zs ++ [⟨.stop, answer⟩]) := by
  have hys := agentExchanges_of_others others
  unfold agentExchanges at hys ⊢
  rw [List.filter_append, hys, List.nil_append]
  exact congrArg (List.cons _) (List.filter_append zs _)

/-- Between the start and the stop the agent is neither started nor stopped. -/
theorem between {zs : List Exchange} {after : Option Text} (h : Handles none zs after) :
    ∀ x ∈ agentExchanges zs, x.request ≠ .start ∧ x.request ≠ .stop :=
  fun x hx => h.isNoStart_isNoStop x (List.mem_of_mem_filter hx)

theorem ne_start_of_others {ys : List Exchange} (h : ∀ y ∈ ys, y.request.isOfAgent = false)
    {answer : Except AgentError Unit} : ⟨.start, answer⟩ ∉ ys := by
  intro hy
  cases h _ hy

theorem startFirst (h : DealsWithAgent xs) : agentExchanges xs = [] ∨ ∃ answer rest,
    agentExchanges xs = ⟨.start, answer⟩ :: rest ∧ ∀ x ∈ rest, x.request ≠ .start := by
  cases h with
  | not others => exact .inl (agentExchanges_of_others others)
  | failed ys e eq others =>
    rw [eq, agentExchanges_failed others]
    exact .inr ⟨_, [], rfl, fun _ hx => absurd hx List.not_mem_nil⟩
  | served ys zs answer eq others sessions =>
    rw [eq, agentExchanges_served others]
    refine .inr ⟨_, _, rfl, List.forall_mem_append.mpr ⟨fun x hx => (between sessions x hx).1, ?_⟩⟩
    exact List.forall_mem_singleton.mpr Request.noConfusion

theorem failedStart (h : DealsWithAgent xs) {e : AgentError} (he : ⟨.start, .error e⟩ ∈ xs) :
    agentExchanges xs = [⟨.start, .error e⟩] := by
  cases h with
  | not others => exact absurd he (ne_start_of_others others)
  | failed ys e' eq others =>
    rw [eq] at he ⊢
    rw [agentExchanges_failed others]
    rcases List.mem_append.mp he with he | he
    · exact absurd he (ne_start_of_others others)
    · exact (congrArg (· :: []) (List.mem_singleton.mp he)).symm
  | served ys zs answer eq others sessions =>
    rw [eq] at he
    rcases List.mem_append.mp he with he | he
    · exact absurd he (ne_start_of_others others)
    rcases List.mem_cons.mp he with he | he
    · cases he
    rcases List.mem_append.mp he with he | he
    · exact absurd rfl (sessions.isNoStart_isNoStop _ he).1
    · cases List.mem_singleton.mp he

theorem sessionsAfterStart (h : DealsWithAgent xs) {ys zs : List Exchange} {x : Exchange}
    (hx : xs = ys ++ x :: zs) (hc : x.request.concernsSession = true) :
    ⟨.start, .ok ()⟩ ∈ ys := by
  obtain ⟨hagent, hstart, -⟩ := Exchange.isOfAgent_of_concerns hc
  have others {us : List Exchange} (hus : ∀ y ∈ us, y.request.isOfAgent = false) : x ∉ us := by
    intro hin
    cases hagent.symm.trans (hus x hin)
  have hin : x ∈ xs := by
    rw [hx]
    exact List.mem_append_right ys List.mem_cons_self
  cases h with
  | not hothers => exact absurd hin (others hothers)
  | failed us e eq hothers =>
    rw [eq] at hin
    rcases List.mem_append.mp hin with hin | hin
    · exact absurd hin (others hothers)
    · rw [List.mem_singleton.mp hin] at hstart
      exact absurd rfl hstart
  | served us vs answer eq hothers sessions =>
    -- The exchange stands after the start, or it is one of those before.
    rcases List.append_eq_append_iff.mp (hx.symm.trans eq) with ⟨as, rfl, hs⟩ | ⟨bs, rfl, hs⟩
    · rcases List.cons_eq_append_iff.mp hs with ⟨rfl, heq⟩ | ⟨as, rfl, -⟩
      · rw [← (List.cons.inj heq).1] at hstart
        exact absurd rfl hstart
      · exact absurd (List.mem_append_right ys List.mem_cons_self) (others hothers)
    · rcases List.cons_eq_append_iff.mp hs with ⟨rfl, hs⟩ | ⟨bs, rfl, -⟩
      · rw [← (List.cons.inj hs).1] at hstart
        exact absurd rfl hstart
      · exact List.mem_append_right us List.mem_cons_self

theorem stopLast (h : DealsWithAgent xs) (hx : ⟨.start, .ok ()⟩ ∈ xs) : ∃ before answer,
    agentExchanges xs = before ++ [⟨.stop, answer⟩] ∧ ∀ x ∈ before, x.request ≠ .stop := by
  cases h with
  | not others => exact absurd hx (ne_start_of_others others)
  | failed ys e eq others =>
    rw [eq] at hx
    rcases List.mem_append.mp hx with hx | hx
    · exact absurd hx (ne_start_of_others others)
    · cases List.mem_singleton.mp hx
  | served ys zs answer eq others sessions =>
    rw [eq, agentExchanges_served others]
    refine ⟨_ :: _, answer, rfl, List.forall_mem_cons.mpr ⟨Request.noConfusion, ?_⟩⟩
    exact fun x hx => (between sessions x hx).2

theorem stopStarted (h : DealsWithAgent xs) {x : Exchange} (hx : x ∈ xs)
    (hs : x.request = .stop) : ⟨.start, .ok ()⟩ ∈ xs := by
  have others {us : List Exchange} (hus : ∀ y ∈ us, y.request.isOfAgent = false) : x ∉ us := by
    intro hin
    have hagent := hus x hin
    rw [hs] at hagent
    cases hagent
  cases h with
  | not hothers => exact absurd hx (others hothers)
  | failed us e eq hothers =>
    rw [eq] at hx
    rcases List.mem_append.mp hx with hx | hx
    · exact absurd hx (others hothers)
    · rw [List.mem_singleton.mp hx] at hs
      cases hs
  | served us vs answer eq hothers sessions =>
    rw [eq]
    exact List.mem_append_right us List.mem_cons_self

/-- Dealing with the agent in one of the three ways keeps to the lifecycle. -/
theorem lifecycle (h : DealsWithAgent xs) : AgentLifecycle xs where
  startFirst := h.startFirst
  failedStart _ := h.failedStart
  sessionsAfterStart _ _ _ := h.sessionsAfterStart
  endedInOrder := h.endedSessions_eq
  endedOnce hnodup session hs := by
    rw [h.endedSessions_eq]
    exact List.count_eq_one_of_mem hnodup hs
  namesLive _ _ _ _ := h.names_live
  oneLive _ := h.length_liveSessions_le
  stopLast := h.stopLast
  stopStarted _ := h.stopStarted

end DealsWithAgent

namespace Conversation

/-- A run that is made ready has no session, and no agent that was started. -/
theorem prepare_session {c : Conversation} {o : RunOptions} {r : Run} {s : RunState}
    (h : Run.prepare c o = .ok (r, s)) : s.session = none ∧ s.isStarted = false := by
  obtain ⟨tracker, -, rfl, rfl⟩ := Run.exists_of_prepare h
  exact ⟨rfl, rfl⟩

/-- Every run, whatever the agent and the others answer, keeps to the lifecycle of the agent and
of its sessions; one whose preconditions fail asks the agent for nothing. -/
theorem runs_keep_lifecycle {c : Conversation} {o : RunOptions} {r : Run} {s : RunState}
    (hp : Run.prepare c o = .ok (r, s)) {xs : List Exchange}
    {result : Except RunFailure RunReport} (hr : (r.dialogue s).Reaches xs result) :
    AgentLifecycle xs ∧
      ∀ ys ending t, r.checkPreconditions.Reaches s ys (.error ending) t → ys <+: xs →
        agentExchanges xs = [] := by
  obtain ⟨hsession, hstarted⟩ := prepare_session hp
  refine ⟨(r.dealsWithAgent hsession hstarted hr).lifecycle, ?_⟩
  intro ys ending t hfail hys
  exact agentExchanges_of_others (r.others_of_preconditions hsession hstarted hr hfail hys)

/-- An agent that numbers its sessions and answers in the first of them only. -/
def firstSessionOnly : Agent Nat where
  start w := (.ok (), w)
  stop w := (.ok (), w)
  create _ w := (.ok (Text.ofNat w.rest), { w with rest := w.rest + 1 })
  send session _ _ w :=
    (if session = Text.ofNat 0 then .ok ⟨"Read all of the files and found nothing to do.".toList, none⟩
      else .error (.sessionNotFound session), w)
  stats _ w := (.ok {}, w)
  compact _ w := (.ok (), w)
  destroy _ w := (.ok (), w)
  close _ w := (.error .notStarted, w)

/-- One prompt in two cycles, each with a session of its own. -/
def promptTwice : Compiled :=
  ⟨{ sessionMode := .fresh, maxCycles := some 2 }, [.prompt "hi".toList], none⟩

/-- The turn of the second cycle fails: both sessions are ended, and the agent is stopped. -/
theorem failed_turn_ends_its_session :
    ∃ r s xs result,
      Run.prepare (ofCompiled promptTwice) { cwd := "w" } = .ok (r, s) ∧
      (r.dialogue s).Reaches xs result ∧ result.isOk = false ∧
      createdSessions xs = [Text.ofNat 0, Text.ofNat 1] ∧ (agentExchanges xs).length = 9 ∧
      AgentLifecycle xs := by
  let around : Surroundings Nat :=
    { agent := firstSessionOnly, host := .bare, stamp := fun w => (⟨[], []⟩, w), now := ⟨[], []⟩,
      clock := fun _ => .ofSeconds 0 }
  have hp : Run.prepare (ofCompiled promptTwice) { cwd := "w" } = .ok (_, _) := rfl
  have hr := fun r s => Dialogue.reaches_of_run around.answer (Run.dialogue r s)
    ⟨⟨[], [], [], []⟩, 0⟩
  refine ⟨_, _, _, _, hp, hr _ _, ?_, ?_, ?_, (runs_keep_lifecycle hp (hr _ _)).1⟩
  · decide +kernel
  · decide +kernel
  · decide +kernel

end Conversation

end ConversationFlow

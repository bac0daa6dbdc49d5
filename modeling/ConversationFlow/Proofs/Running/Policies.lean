import ConversationFlow.Proofs.Running.Beginnings
import ConversationFlow.Proofs.Running.Lifecycle

/-!
# Session policies

Which session a prompt goes to is decided by the mode of the conversation. In fresh mode it goes to
a session that was opened in the same cycle. In the other modes a session is opened when the first
cycle begins and where a step asks for a new conversation, and nowhere else, so that without such a
step all prompts go to one session.
-/

namespace ConversationFlow

/-- The session that a prompt was sent in. -/
def Exchange.sentSession? : Exchange → Option Text
  | ⟨.send session _ _, _⟩ => some session
  | _ => none

/-- The sessions of the prompts, in the order of the prompts. -/
def sentSessions (xs : List Exchange) : List Text := xs.filterMap (·.sentSession?)

/-- The session is the last that was opened in the cycle that goes on. -/
def OpenedInCycle (past : List Exchange) (session : Text) : Prop :=
  ∃ earlier cycle since, past = earlier ++ ⟨.note (.cycleBegan cycle), ()⟩ :: since ∧
    begunCycles since = [] ∧ (createdSessions since).getLast? = some session

/-- A session that is kept from cycle to cycle may be opened: the first cycle just began, or a step
just ended the session for a new conversation. -/
def MayOpenKept (past : List Exchange) : Prop :=
  (∃ earlier, past = earlier ++ [⟨.note (.cycleBegan 0), ()⟩]) ∨
  ∃ earlier place session, past = earlier ++
    [⟨.note (.stepBegan place .newConversation), ()⟩, ⟨.destroy session, .ok ()⟩]

/-- What the exchanges of a run say of its sessions, by the mode of the conversation. -/
structure SessionPolicy (s : Settings) (xs : List Exchange) : Prop where
  /-- The cycles begin one after the other. -/
  cycles : ∃ n ≤ s.cycles, begunCycles xs = List.range n
  /-- In fresh mode a prompt goes to a session of its cycle. -/
  fresh : s.sessionMode = .fresh → ∀ us session prompt streams answer ws,
    xs = us ++ ⟨.send session prompt streams, answer⟩ :: ws → OpenedInCycle us session
  /-- In the other modes a session is opened in the first cycle or for a new conversation. -/
  kept : s.sessionMode ≠ .fresh → ∀ us options answer ws,
    xs = us ++ ⟨.create options, answer⟩ :: ws → MayOpenKept us
  /-- Without a new conversation all prompts go to the one session that is opened. -/
  single : s.sessionMode ≠ .fresh →
    (∀ place, ⟨.note (.stepBegan place .newConversation), ()⟩ ∉ xs) →
    ∀ session ∈ sentSessions xs, createdSessions xs = [session]
  /-- In compact mode the session is compacted once before the first step or prompt of each cycle
  but the first; in the other modes it never is. -/
  compacted : ∀ us cycle ws, xs = us ++ ⟨.note (.cycleBegan cycle), ()⟩ :: ws →
    compactions (beginning ws) = if s.sessionMode = .compact ∧ 0 < cycle then 1 else 0

theorem Exchange.create_of_createdSession? {x : Exchange} (h : x.createdSession? ≠ none) :
    ∃ options answer, x = ⟨.create options, answer⟩ := by
  obtain ⟨request, answer⟩ := x
  cases request with
  | create options => exact ⟨options, answer, rfl⟩
  | _ => exact absurd rfl h

theorem createdSessions_append (xs ys : List Exchange) :
    createdSessions (xs ++ ys) = createdSessions xs ++ createdSessions ys := List.filterMap_append

/-- A session that is opened is the last one. -/
theorem getLast?_createdSessions (xs : List Exchange) (options : SessionOptions) (session : Text) :
    (createdSessions (xs ++ [⟨.create options, .ok session⟩])).getLast? = some session := by
  rw [createdSessions_append]
  exact List.getLast?_concat

/-! ## Fresh sessions -/

/-- The rule of fresh mode. -/
def InOwnCycle (past : List Exchange) : Exchange → Prop
  | ⟨.send session _ _, _⟩ => OpenedInCycle past session
  | _ => True

/-- A live session was opened in the cycle that goes on. -/
def LiveInCycle (past : List Exchange) (s : RunState) : Prop :=
  ∃ earlier cycle since, past = earlier ++ ⟨.note (.cycleBegan cycle), ()⟩ :: since ∧
    begunCycles since = [] ∧
    ∀ session, s.session = some session → (createdSessions since).getLast? = some session

namespace LiveInCycle

variable {past : List Exchange} {s t : RunState} {session : Text}

theorem append (h : LiveInCycle past s) (xs : List Exchange) (hx : begunCycles xs = [])
    (hc : createdSessions xs = []) : LiveInCycle (past ++ xs) s := by
  obtain ⟨earlier, cycle, since, rfl, hsince, hlive⟩ := h
  refine ⟨earlier, cycle, since ++ xs, ?_, ?_, ?_⟩
  · rw [List.append_assoc]
    rfl
  · rw [begunCycles_append, hsince, hx, List.append_nil]
  · rw [createdSessions_append, hc, List.append_nil]
    exact hlive

theorem opened (h : LiveInCycle past s) (hs : s.session = some session) :
    OpenedInCycle past session := by
  obtain ⟨earlier, cycle, since, hpast, hsince, hlive⟩ := h
  exact ⟨earlier, cycle, since, hpast, hsince, hlive session hs⟩

/-- A session that is opened now is of the cycle that goes on. -/
theorem opens (h : LiveInCycle past s) : Opens InOwnCycle LiveInCycle past t := by
  obtain ⟨earlier, cycle, since, rfl, hsince, -⟩ := h
  refine fun options => ⟨fun _ => trivial, fun session => ?_⟩
  refine ⟨earlier, cycle, since ++ [⟨.create options, .ok session⟩], ?_, ?_, fun live hlive => ?_⟩
  · rw [List.append_assoc]
    rfl
  · rw [begunCycles_append, hsince]
    rfl
  · cases hlive
    exact getLast?_createdSessions since options session

end LiveInCycle

namespace Run

open ConversationFlow.Action

variable (r : Run) {past : List Exchange} {s : RunState}

theorem inOwnCycle_minds : Minds InOwnCycle LiveInCycle where
  allows {past x} hx := by
    obtain ⟨request, answer⟩ := x
    cases request with
    | send => cases hx
    | _ => trivial
  aside {past s x} h hx := by
    refine h.append [x] (begunCycles_eq_nil_iff.mpr ?_) ?_
    · exact List.forall_mem_singleton.mpr (Exchange.begunCycle?_of_aside hx)
    · exact List.filterMap_cons_none (Exchange.createdSession?_of_aside hx)
  same h ht := by
    obtain ⟨earlier, cycle, since, hpast, hsince, hlive⟩ := h
    refine ⟨earlier, cycle, since, hpast, hsince, ?_⟩
    rwa [ht.session]
  opens h _ := h.opens
  replaces place session h _ := (h.append [_, _] rfl rfl).opens
  sends place prompt session h hs streams answer :=
    ⟨(h.append [_] rfl rfl).opened hs,
      (h.append [_] rfl rfl).append [_] rfl rfl⟩

/-- In fresh mode a cycle begins with a session of its own. -/
theorem startCycle_fresh (hmode : r.settings.sessionMode = .fresh) (cycle : Nat) :
    Ensures InOwnCycle past s (r.startCycle cycle) fun _ => LiveInCycle := by
  refine ensures_modify_bind (ensures_ask_bind fun _ => ⟨trivial, ?_⟩)
  refine inOwnCycle_minds.beginCycle_fresh hmode ?_
  have begun {t : RunState} (ht : t.session = none) :
      LiveInCycle (past ++ [⟨.note (.cycleBegan cycle), ()⟩]) t :=
    ⟨past, cycle, [], rfl, rfl, fun session hs => by cases ht.symm.trans hs⟩
  refine (endSession_ensures fun _ _ => trivial).imp fun _ past' t ht => ?_
  rcases ht with ⟨hnone, rfl, rfl⟩ | ⟨session, -, rfl, rfl⟩
  · exact ⟨begun hnone, hnone⟩
  · exact ⟨(begun rfl).append [_] rfl rfl, rfl⟩

end Run

/-! ## Sessions that are kept -/

/-- The rule of the other modes. -/
def KeepsSession (past : List Exchange) : Exchange → Prop
  | ⟨.create _, _⟩ => MayOpenKept past
  | ⟨.send session _ _, _⟩ => (createdSessions past).getLast? = some session
  | _ => True

/-- The session that was opened last is live. -/
def LastIsLive (past : List Exchange) (s : RunState) : Prop :=
  ∃ session, s.session = some session ∧ (createdSessions past).getLast? = some session

/-- All prompts are sent in the one session that is opened. -/
theorem eq_singleton_of_sent {xs : List Exchange} {session : Text} (h : Along KeepsSession [] xs)
    (hone : (createdSessions xs).length ≤ 1) (hsent : session ∈ sentSessions xs) :
    createdSessions xs = [session] := by
  obtain ⟨x, hx, hs⟩ := List.mem_filterMap.mp hsent
  obtain ⟨us, ws, rfl⟩ := List.append_of_mem hx
  have hrule := h.of_split
  obtain ⟨request, answer⟩ := x
  cases request with
  | send named prompt streams =>
    obtain rfl := Option.some.inj hs
    have hmem : named ∈ createdSessions (us ++ ⟨.send named prompt streams, answer⟩ :: ws) := by
      rw [createdSessions_append]
      exact List.mem_append_left _ (List.mem_of_getLast? hrule)
    obtain ⟨only, heq⟩ := List.length_eq_one_iff.mp
      (Nat.le_antisymm hone (List.length_pos_of_mem hmem))
    rw [heq] at hmem ⊢
    rw [List.mem_singleton.mp hmem]
  | _ => cases hs

theorem MayOpenKept.opens {past : List Exchange} {s : RunState} (h : MayOpenKept past) :
    Opens KeepsSession LastIsLive past s := fun options =>
  ⟨fun _ => h, fun session => ⟨session, rfl, getLast?_createdSessions past options session⟩⟩

theorem LastIsLive.snoc {past : List Exchange} {s : RunState} {x : Exchange}
    (h : LastIsLive past s) (hx : x.createdSession? = none) : LastIsLive (past ++ [x]) s := by
  unfold LastIsLive
  rwa [createdSessions_snoc hx]

namespace Run

open ConversationFlow.Action

variable (r : Run) {past : List Exchange} {s : RunState}

theorem keepsSession_minds : Minds KeepsSession LastIsLive where
  allows {past x} hx := by
    obtain ⟨request, answer⟩ := x
    cases request with
    | create | send => cases hx
    | _ => trivial
  aside h hx := h.snoc (Exchange.createdSession?_of_aside hx)
  same h ht := by
    unfold LastIsLive
    rwa [ht.session]
  opens h hs := by
    obtain ⟨session, hlive, -⟩ := h
    cases hs.symm.trans hlive
  replaces place session h _ := MayOpenKept.opens (.inr ⟨_, place, session, rfl⟩)
  sends place prompt session h hs streams answer := by
    have hnote := h.snoc (x := ⟨.note (.sending place prompt), ()⟩) rfl
    refine ⟨?_, hnote.snoc rfl⟩
    obtain ⟨live, hlive, hlast⟩ := hnote
    obtain rfl := Option.some.inj (hs.symm.trans hlive)
    exact hlast

/-- What holds before a cycle in which the session is kept: one is live, but before the first. -/
def KeptBefore (cycle : Nat) (past : List Exchange) (s : RunState) : Prop :=
  cycle = 0 ∧ s.session = none ∨ LastIsLive past s

theorem startCycle_kept (hmode : r.settings.sessionMode ≠ .fresh) {cycle : Nat}
    (hs : KeptBefore cycle past s) :
    Ensures KeepsSession past s (r.startCycle cycle) fun _ => LastIsLive := by
  refine ensures_modify_bind (ensures_ask_bind fun _ => ⟨trivial, ?_⟩)
  refine keepsSession_minds.beginCycle_kept hmode (fun hnone => ?_) fun hsome => ?_
  · rcases hs with ⟨rfl, -⟩ | ⟨session, hlive, -⟩
    · exact MayOpenKept.opens (.inl ⟨past, rfl⟩)
    · cases hnone.symm.trans hlive
  · rcases hs with ⟨-, hnone⟩ | hlast
    · exact absurd hnone hsome
    · exact hlast.snoc rfl

end Run

/-! ## Whole runs -/

/-- Sessions that are opened only where the first cycle begins are no more than its beginnings. -/
theorem length_createdSessions_le {xs : List Exchange}
    (h : ∀ us x ws, xs = us ++ x :: ws → x.createdSession? ≠ none →
      ∃ earlier, us = earlier ++ [⟨.note (.cycleBegan 0), ()⟩]) :
    (createdSessions xs).length ≤ (begunCycles xs).count 0 := by
  suffices hall : (createdSessions xs).length ≤ (begunCycles xs).count 0 ∧
      ∀ earlier, xs = earlier ++ [⟨.note (.cycleBegan 0), ()⟩] →
        (createdSessions xs).length < (begunCycles xs).count 0 from hall.1
  induction xs using List.reverseRecOn with
  | nil => exact ⟨Nat.le_refl 0, fun earlier he => by cases List.append_eq_nil_iff.mp he.symm |>.2⟩
  | append_singleton xs x ih =>
    obtain ⟨hle, hlt⟩ := ih fun us y ws heq =>
      h us y (ws ++ [x]) (by rw [heq, List.append_assoc, List.cons_append])
    rw [begunCycles_append, createdSessions_append, List.count_append, List.length_append]
    cases hc : x.createdSession? with
    | some session =>
      -- What opens a session comes right after the beginning of the first cycle.
      obtain ⟨earlier, hxs⟩ := h xs x [] rfl (by rw [hc]; exact Option.some_ne_none session)
      have hone : (createdSessions [x]).length = 1 := by
        rw [createdSessions, List.filterMap_cons_some hc]
        rfl
      have hbegan := hlt earlier hxs
      refine ⟨by omega, fun earlier' he => ?_⟩
      obtain rfl := (List.append_singleton_inj.mp he).2
      cases hc
    | none =>
      have hnone : createdSessions [x] = [] := List.filterMap_cons_none hc
      rw [hnone]
      refine ⟨Nat.le_add_right_of_le hle, fun earlier he => ?_⟩
      obtain rfl := (List.append_singleton_inj.mp he).2
      exact Nat.lt_succ_of_le hle

namespace Run

variable (r : Run) {s : RunState} {xs : List Exchange} {result : Except RunFailure RunReport}

/-- In fresh mode all prompts are sent in sessions of their cycles. -/
theorem dialogue_fresh (hmode : r.settings.sessionMode = .fresh)
    (hr : (r.dialogue s).Reaches xs result) : Along InOwnCycle [] xs :=
  inOwnCycle_minds.along_dialogue (fun _ _ _ => True)
    (fun cycle _ _ _ => r.startCycle_fresh hmode cycle) (fun _ _ _ _ => trivial)
    (fun _ _ _ => trivial) hr

/-- In the other modes a run that begins without a session keeps the one that it opens. -/
theorem dialogue_kept (hmode : r.settings.sessionMode ≠ .fresh) (hs : s.session = none)
    (hr : (r.dialogue s).Reaches xs result) : Along KeepsSession [] xs :=
  keepsSession_minds.along_dialogue KeptBefore
    (fun _ _ _ hbefore => r.startCycle_kept hmode hbefore) (fun _ _ _ hlast => .inr hlast)
    (fun _ _ ht => .inl ⟨rfl, ht.session.trans hs⟩) hr

end Run

namespace Conversation

/-- Every run keeps to the session policy of its conversation, whatever the agent and the others
answer. -/
theorem runs_keep_session_policy {c : Conversation} {o : RunOptions} {r : Run} {s : RunState}
    (hp : Run.prepare c o = .ok (r, s)) {xs : List Exchange}
    {result : Except RunFailure RunReport} (hr : (r.dialogue s).Reaches xs result) :
    SessionPolicy c.settings xs := by
  obtain ⟨as, cs, zs, hxs, hcycles, -, hopening, hclosing⟩ := r.dialogue_cyclesFrom hr
  have hsettings : r.settings = c.settings :=
    congrArg Conversation.settings (prepare_conversation hp)
  rw [hsettings] at hcycles
  have hbegun : ∃ n ≤ c.settings.cycles, begunCycles xs = List.range n := by
    obtain ⟨n, hn, heq⟩ := hcycles.begunCycles_eq
    refine ⟨n, hn, ?_⟩
    rw [hxs, begunCycles_append, begunCycles_append, hopening.begunCycles_eq,
      hclosing.begunCycles_eq, heq, List.range_eq_range', List.append_nil, List.nil_append]
  have hkept (hmode : c.settings.sessionMode ≠ .fresh) : Along KeepsSession [] xs :=
    r.dialogue_kept (by rwa [hsettings]) (prepare_session hp).1 hr
  have hopens (hmode : c.settings.sessionMode ≠ .fresh) (us options answer ws)
      (heq : xs = us ++ ⟨.create options, answer⟩ :: ws) : MayOpenKept us := by
    have hall := hkept hmode
    rw [heq] at hall
    exact hall.of_split
  refine ⟨hbegun, fun hmode us session prompt streams answer ws heq => ?_, hopens,
    fun hmode hsame session hsent => ?_, fun us cycle ws heq => ?_⟩
  · have hall := r.dialogue_fresh (by rwa [hsettings]) hr
    rw [heq] at hall
    exact hall.of_split
  · have hcreated : (createdSessions xs).length ≤ 1 := by
      obtain ⟨n, -, hrange⟩ := hbegun
      refine Nat.le_trans (length_createdSessions_le fun us x ws heq hx => ?_) ?_
      · obtain ⟨options, answer, hcreate⟩ := Exchange.create_of_createdSession? hx
        rw [hcreate] at heq
        rcases hopens hmode us options answer ws heq with hfirst | ⟨earlier, place, old, rfl⟩
        · exact hfirst
        · refine absurd ?_ (hsame place)
          rw [heq]
          simp
      · rw [hrange]
        exact List.nodup_iff_count_le_one.mp List.nodup_range 0
    exact eq_singleton_of_sent (hkept hmode) hcreated hsent
  · rw [hxs] at heq
    obtain ⟨vs, -, hvs⟩ := split_after heq hopening.begunCycles_eq
    exact hcycles.compacts hclosing.begunCycles_eq hclosing.compacts hvs

/-- One prompt in two cycles, before the second of which the session is compacted. -/
def promptCompacted : Compiled :=
  ⟨{ sessionMode := .compact, maxCycles := some 2 }, [.prompt "hi".toList], none⟩

/-- Both prompts go to one session, which is compacted between them. -/
theorem compacted_session_is_kept :
    ∃ r s xs result,
      Run.prepare (ofCompiled promptCompacted) { cwd := "w" } = .ok (r, s) ∧
      (r.dialogue s).Reaches xs result ∧ createdSessions xs = [Text.ofNat 0] ∧
      sentSessions xs = [Text.ofNat 0, Text.ofNat 0] ∧ compactions xs = 1 ∧
      SessionPolicy (ofCompiled promptCompacted).settings xs := by
  let around : Surroundings Nat :=
    { agent := firstSessionOnly, host := .bare, stamp := fun w => (⟨[], []⟩, w), now := ⟨[], []⟩,
      clock := fun _ => .ofSeconds 0 }
  have hp : Run.prepare (ofCompiled promptCompacted) { cwd := "w" } = .ok (_, _) := rfl
  have hr := fun r s => Dialogue.reaches_of_run around.answer (Run.dialogue r s)
    ⟨⟨[], [], [], []⟩, 0⟩
  refine ⟨_, _, _, _, hp, hr _ _, ?_, ?_, ?_, runs_keep_session_policy hp (hr _ _)⟩
  · decide +kernel
  · decide +kernel
  · decide +kernel

end Conversation

end ConversationFlow

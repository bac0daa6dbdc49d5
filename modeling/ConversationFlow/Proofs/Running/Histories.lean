import ConversationFlow.Proofs.Running.Gates

/-!
# Histories

What a run may ask for next depends on what it asked for before. A rule says of each exchange that
it may follow those before it (`Along`), and a run minds the rule if it keeps up something of its
history and of its state that the rule needs (`Run.Minds`). Of the actions of a run only three have
to be looked at for that: the opening of a session where none is live, the change to a new one, and
the sending of a prompt.
-/

namespace ConversationFlow

/-- Each exchange is as said, after those before it. -/
def Along (P : List Exchange → Exchange → Prop) (past : List Exchange) : List Exchange → Prop
  | [] => True
  | x :: xs => P past x ∧ Along P (past ++ [x]) xs

namespace Along

variable {P : List Exchange → Exchange → Prop} {past xs ys : List Exchange} {x : Exchange}

theorem single (h : P past x) : Along P past [x] := ⟨h, trivial⟩

theorem append (h : Along P past xs) (h' : Along P (past ++ xs) ys) :
    Along P past (xs ++ ys) := by
  induction xs generalizing past with
  | nil => rwa [List.append_nil] at h'
  | cons x xs ih =>
    refine ⟨h.1, ih h.2 ?_⟩
    rwa [List.append_assoc]

theorem of_append (h : Along P past (xs ++ ys)) : Along P past xs ∧ Along P (past ++ xs) ys := by
  induction xs generalizing past with
  | nil =>
    rw [List.append_nil]
    exact ⟨trivial, h⟩
  | cons x xs ih =>
    obtain ⟨hxs, hys⟩ := ih h.2
    rw [List.append_assoc] at hys
    exact ⟨⟨h.1, hxs⟩, hys⟩

/-- An exchange follows those of the past, and those that came since. -/
theorem of_split (h : Along P past (xs ++ x :: ys)) : P (past ++ xs) x := h.of_append.2.1

theorem imp {Q : List Exchange → Exchange → Prop} (h : Along P past xs)
    (hpq : ∀ past x, P past x → Q past x) : Along Q past xs := by
  induction xs generalizing past with
  | nil => trivial
  | cons x xs ih => exact ⟨hpq past x h.1, ih h.2⟩

theorem forall_mem {p : Exchange → Prop} (h : Along (fun _ => p) past xs) : ∀ x ∈ xs, p x := by
  intro x hx
  obtain ⟨ys, zs, rfl⟩ := List.append_of_mem hx
  exact h.of_split

end Along

/-- What holds of what was exchanged and of the state then. -/
abbrev Standing := List Exchange → RunState → Prop

namespace Action

variable {β γ : Type} {P : List Exchange → Exchange → Prop} {past : List Exchange} {s : RunState}

/-- After the past, each exchange of the action is as said; and where the action does not end the
run, its result is as said of all exchanges until then and of the state. -/
def Ensures (P : List Exchange → Exchange → Prop) (past : List Exchange) (s : RunState)
    (a : Action β) (post : β → Standing) : Prop :=
  ∀ xs result t, Reaches a s xs result t →
    Along P past xs ∧ ∀ b, result = .ok b → post b (past ++ xs) t

/-- The action minds the rule and keeps up what it needs. -/
def Upholds (P : List Exchange → Exchange → Prop) (I : Standing) (a : Action β) : Prop :=
  ∀ past s, I past s → Ensures P past s a fun _ => I

section

variable {a : Action β} {post : β → Standing}

theorem Ensures.imp {post' : β → Standing} (h : Ensures P past s a post)
    (hp : ∀ b past t, post b past t → post' b past t) : Ensures P past s a post' :=
  fun xs result t hr => ⟨(h xs result t hr).1, fun b hb => hp b _ t ((h xs result t hr).2 b hb)⟩

theorem ensures_pure {b : β} (h : post b past s) : Ensures P past s (pure b) post := by
  intro xs result t hr
  obtain ⟨rfl, rfl, rfl⟩ := reaches_pure_iff.mp hr
  refine ⟨trivial, fun c hc => ?_⟩
  cases hc
  rwa [List.append_nil]

theorem ensures_throw {ending : Ending} : Ensures P past s (throw ending) post := by
  intro xs result t hr
  obtain ⟨rfl, rfl, rfl⟩ := reaches_throw_iff.mp hr
  exact ⟨trivial, fun _ h => by cases h⟩

theorem ensures_get_bind {f : RunState → Action β} (h : Ensures P past s (f s) post) :
    Ensures P past s (get >>= f) post :=
  fun xs result t hr => h xs result t (reaches_get_bind_iff.mp hr)

theorem ensures_modify {f : RunState → RunState} {post : Unit → Standing}
    (h : post () past (f s)) : Ensures P past s (modify f) post := by
  intro xs result t hr
  obtain ⟨rfl, rfl, rfl⟩ := reaches_modify_iff.mp hr
  refine ⟨trivial, fun _ _ => ?_⟩
  rwa [List.append_nil]

theorem ensures_modify_bind {g : RunState → RunState} {f : Unit → Action β}
    (h : Ensures P past (g s) (f ()) post) : Ensures P past s (modify g >>= f) post :=
  fun xs result t hr => h xs result t (reaches_modify_bind_iff.mp hr)

theorem ensures_set_bind {u : RunState} {f : PUnit → Action β}
    (h : Ensures P past u (f ⟨⟩) post) : Ensures P past s (set u >>= f) post :=
  ensures_modify_bind (g := fun _ => u) h

theorem ensures_ask {request : Request} {post : request.Answer → Standing}
    (h : ∀ answer, P past ⟨request, answer⟩ ∧ post answer (past ++ [⟨request, answer⟩]) s) :
    Ensures P past s (ask request) post := by
  intro xs result t hr
  obtain ⟨answer, rfl, rfl, rfl⟩ := reaches_ask_iff.mp hr
  refine ⟨.single (h answer).1, fun b hb => ?_⟩
  cases hb
  exact (h answer).2

theorem ensures_ask_bind {request : Request} {f : request.Answer → Action β}
    (h : ∀ answer, P past ⟨request, answer⟩ ∧
      Ensures P (past ++ [⟨request, answer⟩]) s (f answer) post) :
    Ensures P past s (ask request >>= f) post := by
  intro xs result t hr
  obtain ⟨answer, ys, rfl, hy⟩ := reaches_ask_bind_iff.mp hr
  obtain ⟨hx, hrest⟩ := h answer
  obtain ⟨hys, hpost⟩ := hrest ys result t hy
  refine ⟨⟨hx, hys⟩, fun b hb => ?_⟩
  have hall := hpost b hb
  rwa [List.append_assoc] at hall

theorem ensures_bind (mid : β → Standing) {f : β → Action γ} {post : γ → Standing}
    (ha : Ensures P past s a mid) (hf : ∀ b past t, mid b past t → Ensures P past t (f b) post) :
    Ensures P past s (a >>= f) post := by
  intro xs result t hr
  rcases reaches_bind_iff.mp hr with ⟨ys, zs, b, u, rfl, hy, hz⟩ | ⟨e, rfl, he⟩
  · obtain ⟨hys, hmid⟩ := ha ys _ u hy
    obtain ⟨hzs, hpost⟩ := hf b _ u (hmid b rfl) zs result t hz
    rw [← List.append_assoc]
    exact ⟨hys.append hzs, hpost⟩
  · exact ⟨(ha xs _ t he).1, fun _ h => by cases h⟩

theorem ensures_discard {post : Unit → Standing}
    (h : Ensures P past s a fun _ past t => post () past t) :
    Ensures P past s (discard a) post :=
  ensures_bind _ h fun _ _ _ hb => ensures_pure hb

/-- Only an answer that is no error is gone on with. -/
theorem ensures_orAgentFailure_bind {place : Option StepPlace} {answer : Except AgentError β}
    {f : β → Action γ} {post : γ → Standing}
    (h : ∀ b, answer = .ok b → Ensures P past s (f b) post) :
    Ensures P past s (orAgentFailure place answer >>= f) post := by
  refine ensures_bind (fun b past' t => answer = .ok b ∧ past' = past ∧ t = s) ?_
    fun b _ _ ⟨hb, hpast, ht⟩ => ?_
  · cases answer with
    | ok b => exact ensures_pure ⟨rfl, rfl, rfl⟩
    | error e => exact ensures_throw
  · rw [hpast, ht]
    exact h b hb

theorem ensures_orAgentFailure {place : Option StepPlace} {answer : Except AgentError β}
    (h : ∀ b, answer = .ok b → post b past s) :
    Ensures P past s (orAgentFailure place answer) post := by
  cases answer with
  | ok b => exact ensures_pure (h b rfl)
  | error e => exact ensures_throw

theorem ensures_orContextFailure {answer : Except ContextError β}
    (h : ∀ b, answer = .ok b → post b past s) :
    Ensures P past s (orContextFailure answer) post := by
  cases answer with
  | ok b => exact ensures_pure (h b rfl)
  | error e => exact ensures_throw

end

/-- To mind a rule is a trait. -/
theorem upholds_isTrait (P : List Exchange → Exchange → Prop) (I : Standing) :
    IsTrait fun _ a => Upholds P I a where
  pure _ _ _ hI := ensures_pure hI
  bind ha hf _ _ hI := ensures_bind _ (ha _ _ hI) fun b past t ht => hf b past t ht
  getBind hf _ s hI := ensures_get_bind (hf s _ s hI)
  fail _ _ _ _ := ensures_throw
  stop _ _ _ _ := ensures_throw

end Action

/-! ## Minding a rule -/

/-- The request neither opens a session nor sends a prompt nor begins a cycle. -/
def Request.isAside : Request → Bool
  | .create _ | .send .. | .note (.cycleBegan _) => false
  | _ => true

namespace Exchange

variable {x : Exchange}

theorem createdSession?_of_aside (h : x.request.isAside = true) : x.createdSession? = none := by
  obtain ⟨request, answer⟩ := x
  cases request with
  | create | send => cases h
  | _ => rfl

/-- The cycle that began, counted from 0. -/
def begunCycle? : Exchange → Option Nat
  | ⟨.note (.cycleBegan cycle), _⟩ => some cycle
  | _ => none

theorem begunCycle?_of_aside (h : x.request.isAside = true) : x.begunCycle? = none := by
  obtain ⟨request, answer⟩ := x
  cases request with
  | note n =>
    cases n with
    | cycleBegan => cases h
    | _ => rfl
  | _ => rfl

end Exchange

theorem createdSessions_snoc {xs : List Exchange} {x : Exchange} (hx : x.createdSession? = none) :
    createdSessions (xs ++ [x]) = createdSessions xs := by
  unfold createdSessions
  rw [List.filterMap_append, List.filterMap_cons_none hx]
  exact List.append_nil _

namespace RunState

/-- The states agree on the session, and on what the agent is to be told in it. -/
structure SameSession (s t : RunState) : Prop where
  session : t.session = s.session
  owesInstruction : t.owesInstruction = s.owesInstruction
  instruction : t.detector.instruction = s.detector.instruction

theorem SameSession.trans {s t u : RunState} (h : s.SameSession t) (h' : t.SameSession u) :
    s.SameSession u :=
  ⟨h'.session.trans h.session, h'.owesInstruction.trans h.owesInstruction,
    h'.instruction.trans h.instruction⟩

/-- A prompt as it is sent from the state. -/
def promptSent (s : RunState) (prompt : Text) : Text :=
  if s.owesInstruction then prompt ++ "\n\n" ++ s.detector.instruction else prompt

/-- The state when a session was opened. -/
def opened (s : RunState) (session : Text) : RunState :=
  { s with
    session := some session
    owesInstruction := true
    tracker := s.tracker.resetConversation }

end RunState

/-- A session may be opened. -/
def Opens (P : List Exchange → Exchange → Prop) (I : Standing) : Standing := fun past s =>
  ∀ options, (∀ answer, P past ⟨.create options, answer⟩) ∧
    ∀ session, I (past ++ [⟨.create options, .ok session⟩]) (s.opened session)

/-- The steps of a run mind the rule, and keep up something that is left as it is by all that does
not concern the session. -/
structure Run.Minds (P : List Exchange → Exchange → Prop) (I : Standing) : Prop where
  allows : ∀ {past x}, x.request.isAside = true → P past x
  aside : ∀ {past s x}, I past s → x.request.isAside = true → I (past ++ [x]) s
  same : ∀ {past s t}, I past s → s.SameSession t → I past t
  opens : ∀ {past s}, I past s → s.session = none → Opens P I past s
  replaces : ∀ {past s} place session, I past s → s.session = some session →
    Opens P I (past ++
        [⟨.note (.stepBegan place .newConversation), ()⟩, ⟨.destroy session, .ok ()⟩])
      { s with session := none }
  sends : ∀ {past s} place prompt session, I past s → s.session = some session →
    ∀ streams answer,
      let before := past ++ [⟨.note (.sending place prompt), ()⟩]
      let x : Exchange := ⟨.send session (s.promptSent prompt) streams, answer⟩
      P before x ∧ I (before ++ [x]) { s with owesInstruction := false }

namespace Run

open ConversationFlow.Action

variable {r : Run} {P : List Exchange → Exchange → Prop} {I : Standing} {past : List Exchange}
  {s : RunState}

theorem openSession_ensures (h : Opens P I past s) :
    Ensures P past s r.openSession fun session past t => I past t ∧ t.session = some session := by
  refine ensures_ask_bind fun answer => ⟨(h _).1 answer, ?_⟩
  refine ensures_orAgentFailure_bind fun session hs => ?_
  cases hs
  exact ensures_modify_bind (ensures_pure ⟨(h _).2 session, rfl⟩)

/-- The session is given up in one request, if there is one. -/
theorem endSession_ensures (h : ∀ session answer, P past ⟨.destroy session, answer⟩) :
    Ensures P past s endSession fun _ past' t =>
      s.session = none ∧ past' = past ∧ t = s ∨
      ∃ session, s.session = some session ∧ past' = past ++ [⟨.destroy session, .ok ()⟩] ∧
        t = { s with session := none } := by
  refine ensures_get_bind ?_
  cases hs : s.session with
  | none => exact ensures_pure (.inl ⟨rfl, rfl, rfl⟩)
  | some session =>
    refine ensures_modify_bind (ensures_ask_bind fun answer => ⟨h session answer, ?_⟩)
    refine ensures_orAgentFailure fun _ hok => ?_
    cases hok
    exact .inr ⟨session, rfl, rfl, rfl⟩

/-- Before a prompt is sent the agent is told what it is owed. -/
theorem instructed_ensures (prompt : Text) :
    Ensures P past s (instructed prompt) fun sent past' t =>
      sent = s.promptSent prompt ∧ past' = past ∧ t = { s with owesInstruction := false } := by
  refine ensures_get_bind ?_
  unfold RunState.promptSent
  cases ho : s.owesInstruction with
  | true => exact ensures_set_bind (ensures_pure ⟨rfl, rfl, rfl⟩)
  | false =>
    refine ensures_pure ⟨rfl, rfl, ?_⟩
    rw [← ho]

namespace Minds

variable (h : Minds P I)
include h

theorem of_ask {request : Request} (hr : request.isAside = true) :
    Upholds P I (ask request) :=
  fun _ _ hI => ensures_ask fun _ => ⟨h.allows hr, h.aside hI hr⟩

theorem ask_bind {β : Type} {request : Request} {f : request.Answer → Action β}
    {post : β → Standing} (hr : request.isAside = true) (hI : I past s)
    (hf : ∀ answer past, I past s → Ensures P past s (f answer) post) :
    Ensures P past s (ask request >>= f) post :=
  ensures_ask_bind fun answer =>
    ⟨h.allows hr, hf answer _ (h.aside (x := ⟨request, answer⟩) hI hr)⟩

theorem of_modify {f : RunState → RunState} (hf : ∀ s : RunState, s.SameSession (f s)) :
    Upholds P I (modify f : Action Unit) :=
  fun _ s hI => ensures_modify (h.same hI (hf s))

theorem liveSession_ensures (hI : I past s) :
    Ensures P past s r.liveSession fun session past t => I past t ∧ t.session = some session := by
  refine ensures_get_bind ?_
  cases hs : s.session with
  | some session => exact ensures_pure ⟨hI, hs⟩
  | none => exact openSession_ensures (h.opens hI hs)

theorem countTokens_upholds (reported : Option Nat) : Upholds P I (countTokens reported) := by
  refine h.of_modify fun s => ?_
  cases reported with
  | some tokens => exact ⟨rfl, rfl, rfl⟩
  | none => exact ⟨rfl, rfl, rfl⟩

theorem compactNow_upholds (session : Text) (place : StepPlace) :
    Upholds P I (compactNow session place) := by
  intro past s hI
  refine h.ask_bind rfl hI fun answer past hI => ?_
  refine ensures_orAgentFailure_bind fun _ _ => ?_
  refine h.ask_bind rfl hI fun stats past hI => ?_
  split
  · exact h.countTokens_upholds _ past s hI
  · exact ensures_modify (h.same hI ⟨rfl, rfl, rfl⟩)

theorem compactLive_upholds (place : StepPlace) :
    Upholds P I (do compactNow (← r.liveSession) place) := fun _ _ hI =>
  ensures_bind _ (h.liveSession_ensures hI) fun session past t ht =>
    h.compactNow_upholds session place past t ht.1

theorem judge_upholds (response : Response) (toolCalls : Nat) :
    Upholds P I (judge response toolCalls) := by
  intro past s hI
  refine h.ask_bind rfl hI fun files past hI => ?_
  refine ensures_get_bind (ensures_set_bind ?_)
  split
  · exact ensures_pure (h.same hI ⟨rfl, rfl, rfl⟩)
  · exact ensures_throw

/-- A prompt is sent in the session that is live then. -/
theorem exchange_upholds (prompt : Text) (place : StepPlace) :
    Upholds P I (r.exchange prompt place) := by
  intro past s hI
  refine ensures_bind _ (h.liveSession_ensures hI) fun session past t ⟨hI, hs⟩ => ?_
  refine ensures_bind _ (instructed_ensures prompt) fun sent past' u ⟨hsent, hpast, hu⟩ => ?_
  subst hsent hpast hu
  refine ensures_ask_bind fun _ => ⟨h.allows rfl, ?_⟩
  have hsend := h.sends place prompt session hI hs r.options.isStreaming
  refine ensures_ask_bind fun answer => ⟨(hsend answer).1, ?_⟩
  refine ensures_orAgentFailure_bind fun response _ => ensures_modify_bind ?_
  have hI := h.same (t := { t with
    owesInstruction := false
    tracker := t.tracker.addTurn (t.promptSent prompt) response.text
    report := { t.report with
      turns := t.report.turns + 1
      responses := t.report.responses ++
        [⟨place.cycle, place.step, t.promptSent prompt, response.text⟩] } })
    (hsend answer).2 ⟨rfl, rfl, rfl⟩
  refine h.ask_bind rfl hI fun stats past hI => ?_
  exact ensures_bind _ (h.countTokens_upholds _ past _ hI) fun _ past t hI =>
    h.judge_upholds response _ past t hI

theorem renew_upholds (place : StepPlace) : Upholds P I (do
    Action.note (.stepBegan place .newConversation)
    endSession
    discard r.openSession) := by
  intro past s hI
  refine ensures_ask_bind fun _ => ⟨h.allows rfl, ?_⟩
  refine ensures_bind _ (endSession_ensures fun _ _ => h.allows rfl) fun _ past' t ht =>
    ensures_discard ?_
  have hopens : Opens P I past' t := by
    rcases ht with ⟨hs, rfl, rfl⟩ | ⟨session, hs, rfl, rfl⟩
    · exact h.opens (h.aside hI rfl) hs
    · have hreplaced := h.replaces place session hI hs
      rwa [List.append_assoc]
  exact (openSession_ensures hopens).imp fun _ _ _ ht => ht.1

theorem compose_upholds (body : Text) (turn : TurnPlace) (fillings : List (Text × Text)) :
    Upholds P I (r.compose body turn fillings) := by
  intro past s hI
  refine ensures_get_bind (ensures_set_bind ?_)
  exact h.ask_bind rfl (h.same hI ⟨rfl, rfl, rfl⟩) fun _ past hI => ensures_pure hI

/-- The steps at every place mind a rule that the actions on sessions mind. -/
theorem carries (place : StepPlace) : r.Carries place fun _ a => Upholds P I a where
  toIsTrait := upholds_isTrait P I
  asks {request} hq := h.of_ask (by
    cases request with
    | host | command | files | save | write | stamp | now | clock => rfl
    | _ => cases hq)
  begins _ := h.of_ask rfl
  warns _ := h.of_modify fun _ => ⟨rfl, rfl, rfl⟩
  saves _ := h.of_modify fun _ => ⟨rfl, rfl, rfl⟩
  helpWaits _ := (upholds_isTrait P I).bind (h.of_ask rfl) fun _ =>
    h.of_modify fun _ => ⟨rfl, rfl, rfl⟩
  renews := h.renew_upholds place
  exchanges prompt := h.exchange_upholds prompt place
  compacts := h.compactLive_upholds place
  composes body := h.compose_upholds body .inBlock

theorem executeFrom (index turns : Nat) (steps : List Step) :
    Upholds P I (r.executeFrom index turns steps) :=
  Carries.executeFrom h.carries h.compose_upholds (h.of_modify fun _ => ⟨rfl, rfl, rfl⟩) index turns
    steps

theorem loadContext_ensures (hI : I past s) :
    Ensures P past s r.loadContext fun _ past t => I past t ∧ t.session = s.session := by
  refine h.ask_bind rfl hI fun files past hI => ensures_get_bind (ensures_set_bind ?_)
  exact ensures_orContextFailure fun _ _ => ⟨h.same hI ⟨rfl, rfl, rfl⟩, rfl⟩

/-- A session is live when a cycle begins. -/
theorem discardLive_upholds : Upholds P I (discard r.liveSession) := fun _ _ hI =>
  ensures_discard ((h.liveSession_ensures hI).imp fun _ _ _ ht => ht.1)

/-- In fresh mode a session is opened once there is none. -/
theorem beginCycle_fresh (hmode : r.settings.sessionMode = .fresh)
    (hended : Ensures P past s endSession fun _ past t => I past t ∧ t.session = none) :
    Ensures P past s r.beginCycle fun _ => I := by
  have opened {past : List Exchange} {t : RunState} (hI : I past t) (ht : t.session = none) :
      Ensures P past t (discard r.openSession >>= fun _ => discard r.liveSession) fun _ => I :=
    ensures_bind (fun _ => I)
      (ensures_discard ((openSession_ensures (h.opens hI ht)).imp fun _ _ _ hu => hu.1))
      fun _ past u hu => h.discardLive_upholds past u hu
  refine ensures_get_bind ?_
  rw [hmode]
  refine ensures_bind _ hended fun _ past t ⟨hI, ht⟩ => ?_
  split
  · refine ensures_modify_bind ?_
    have hcleared : I past { t with tracker := t.tracker.clearFiles } :=
      h.same hI ⟨rfl, rfl, rfl⟩
    refine ensures_bind (fun _ past u => I past u ∧ u.session = none) (ensures_discard ?_)
      fun _ past u ⟨hI, hu⟩ => opened hI hu
    exact (h.loadContext_ensures hcleared).imp fun _ _ _ hu => ⟨hu.1, hu.2.trans ht⟩
  · exact opened hI ht

/-- In the other modes a session that is live is kept. -/
theorem beginCycle_kept (hmode : r.settings.sessionMode ≠ .fresh)
    (hnone : s.session = none → Opens P I past s) (hsome : s.session ≠ none → I past s) :
    Ensures P past s r.beginCycle fun _ => I := by
  have live : Ensures P past s (discard r.liveSession) fun _ => I := by
    refine ensures_discard (ensures_get_bind ?_)
    cases hs : s.session with
    | none => exact (openSession_ensures (hnone hs)).imp fun _ _ _ ht => ht.1
    | some session =>
      refine ensures_pure (hsome ?_)
      rw [hs]
      exact Option.some_ne_none session
  refine ensures_get_bind ?_
  dsimp only
  split
  · next hfresh => exact absurd hfresh hmode
  · cases hs : s.session with
    | none => exact live
    | some session =>
      dsimp only
      split
      · have hI := hsome (by rw [hs]; exact Option.some_ne_none session)
        exact ensures_bind _ (h.compactNow_upholds session _ past s hI) fun _ past t ht =>
          h.discardLive_upholds past t ht
      · exact live
  · exact live

/-- The cycles mind the rule if their beginnings do. -/
theorem executeCycles {before : Nat → Standing}
    (starts : ∀ cycle past s, before cycle past s →
      Ensures P past s (r.startCycle cycle) fun _ => I)
    (goesOn : ∀ cycle past s, I past s → before (cycle + 1) past s) (left cycle : Nat)
    (hs : before cycle past s) :
    Ensures P past s (r.executeCycles left cycle) fun _ _ _ => True := by
  induction left generalizing cycle past s with
  | zero => exact ensures_pure trivial
  | succ left ih =>
    refine ensures_bind (fun _ => I) ?_ fun _ past t ht => ih (cycle + 1) (goesOn cycle past t ht)
    rw [executeCycle_eq]
    refine ensures_bind _ (starts cycle past s hs) fun _ past t ht => ?_
    exact ensures_bind _ (h.executeFrom 0 0 _ past t ht) fun _ past u hu =>
      ensures_modify (h.same hu ⟨rfl, rfl, rfl⟩)

end Minds

/-! ## Whole runs -/

section

variable (allows : ∀ {past x}, x.request.isAside = true → P past x)
include allows

/-- Nothing is done to sessions before the first cycle. -/
theorem opening_upholds (u : RunState) : Upholds P (fun _ => u.SameSession) r.opening := by
  have asks {request : Request} (hr : request.isAside = true) :
      Upholds P (fun _ => u.SameSession) (ask request) :=
    fun _ _ hu => ensures_ask fun _ => ⟨allows hr, hu⟩
  have changes {f : RunState → RunState} (hf : ∀ s : RunState, s.SameSession (f s)) :
      Upholds P (fun _ => u.SameSession) (modify f : Action Unit) :=
    fun _ s hu => ensures_modify (hu.trans (hf s))
  refine r.opening_isTrait (upholds_isTrait P _) (asks rfl) (asks rfl) (asks rfl)
    (fun _ => changes fun _ => ⟨rfl, rfl, rfl⟩) (fun past s hu => ?_)
    (fun _ => changes fun _ => ⟨rfl, rfl, rfl⟩) (changes fun _ => ⟨rfl, rfl, rfl⟩)
  refine ensures_ask_bind fun files => ⟨allows rfl, ensures_get_bind (ensures_set_bind ?_)⟩
  exact ensures_orContextFailure fun _ _ => hu.trans ⟨rfl, rfl, rfl⟩

theorem shutDown_upholds : Upholds P (fun _ _ => True) shutDown := by
  have asks {request : Request} (hr : request.isAside = true) :
      Upholds P (fun _ _ => True) (ask request) :=
    fun _ _ _ => ensures_ask fun _ => ⟨allows hr, trivial⟩
  exact (upholds_isTrait P _).shutDown (fun _ => asks rfl) (asks rfl)
    fun _ _ _ => ensures_modify trivial

end

/-- A whole run minds the rule if its steps and the beginnings of its cycles do. -/
theorem Minds.along_dialogue (h : Minds P I) (before : Nat → Standing)
    (starts : ∀ cycle past s, before cycle past s →
      Ensures P past s (r.startCycle cycle) fun _ => I)
    (goesOn : ∀ cycle past s, I past s → before (cycle + 1) past s)
    (begins : ∀ past t, s.SameSession t → before 0 past t)
    {xs : List Exchange} {result : Except RunFailure RunReport}
    (hr : (r.dialogue s).Reaches xs result) : Along P [] xs := by
  obtain ⟨ys, zs, ended, t, closed, last, rfl, hexecute, hshut, -⟩ := reaches_dialogue_iff.mp hr
  have all : Ensures P [] s r.execute fun _ _ _ => True := by
    rw [execute_eq_stopAt]
    refine ensures_bind _ (opening_upholds h.allows s [] s ⟨rfl, rfl, rfl⟩) fun _ past t ht => ?_
    have gate := r.stopAt_isTrait (upholds_isTrait P fun _ => s.SameSession) 0
    refine ensures_bind _ (gate past t ht) fun _ past t ht => ?_
    exact h.executeCycles starts goesOn _ 0 (begins past t ht)
  obtain ⟨hclosing, -⟩ := shutDown_upholds h.allows ([] ++ ys) t trivial zs closed last hshut
  exact (all ys ended t hexecute).1.append hclosing

end Run

end ConversationFlow

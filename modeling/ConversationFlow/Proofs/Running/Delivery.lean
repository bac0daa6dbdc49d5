import ConversationFlow.Proofs.Running.Limits

/-!
# From composing to sending

A turn of the agent asks others than the agent for what it needs, composes its prompt, and sends
it: what is sent next is what was composed, with the instruction on the stop file behind it where
that is owed. Between the two no other prompt is composed, and only the preamble of a compaction is
sent. A run may end on the way; then neither is the prompt sent nor anything composed after it.
-/

namespace ConversationFlow

/-! ## What becomes of a turn -/

/-- The exchange neither begins a cycle or a step nor composes a prompt. -/
def Exchange.isBetween : Exchange → Bool
  | ⟨.note (.cycleBegan _), _⟩ | ⟨.note (.stepBegan ..), _⟩ | ⟨.note (.composed ..), _⟩ => false
  | _ => true

/-- What may come before a prompt is sent: no prompt but the preamble of a compaction, once. -/
structure MakesWay (s : Settings) (xs : List Exchange) : Prop where
  between : ∀ x ∈ xs, x.isBetween = true
  once : (sentPrompts xs).length ≤ s.onContextLimitPrompt.toList.length
  preamble : ∀ sent ∈ sentPrompts xs, ∃ (vars : Variables) (text : Text),
    s.onContextLimitPrompt = some text ∧ vars.substitute text <+: sent

/-- The prompt is sent next, by a request that sends this text. -/
def IsSentNext (s : Settings) (prompt sent : Text) (ws : List Exchange) : Prop :=
  ∃ before place session streams answer since,
    ws = before ++ ⟨.note (.sending place prompt), ()⟩ ::
      ⟨.send session sent streams, answer⟩ :: since ∧ MakesWay s before

/-- A prompt is composed next, after requests to others than the agent. -/
def IsComposedNext (ws : List Exchange) : Prop :=
  ∃ before turn pending prompt since,
    ws = before ++ ⟨.note (.composed turn pending prompt), ()⟩ :: since ∧
    ∀ x ∈ before, x.request.IsQuiet

/-- What the agent is told of the stop file. -/
def Run.instruction (r : Run) : Text := StopFile.instruction r.cwd r.options.nonce

/-- Every turn of the agent composes a prompt, and every prompt that is composed is sent as it is,
but for the instruction behind it. Where the run may have ended early, its last turn may be cut
short. -/
structure Run.SendsTurns (r : Run) (early : Prop) (xs : List Exchange) : Prop where
  composes : ∀ us place step ws, xs = us ++ ⟨.note (.stepBegan place step), ()⟩ :: ws →
    step.isAgentTurn = true → IsComposedNext ws ∨ early ∧ MakesWay r.settings ws
  sends : ∀ us turn pending prompt ws,
    xs = us ++ ⟨.note (.composed turn pending prompt), ()⟩ :: ws →
    (∃ sent, IsSentNext r.settings prompt sent ws ∧
      (sent = prompt ∨ sent = prompt ++ "\n\n" ++ r.instruction)) ∨
    early ∧ MakesWay r.settings ws

/-! ## What exchanges owe -/

/-- What an exchange wants of those after it. -/
def Exchange.Owes (s : Settings) : Exchange → List Exchange → Prop
  | ⟨.note (.stepBegan _ step), _⟩, ws => step.isAgentTurn = true → IsComposedNext ws
  | ⟨.note (.composed _ _ prompt), _⟩, ws => ∃ sent, IsSentNext s prompt sent ws
  | _, _ => True

/-- Each exchange has what it wants of those after it, unless the exchanges end early. -/
def Settled (s : Settings) (early : Prop) : List Exchange → Prop
  | [] => True
  | x :: xs => (x.Owes s xs ∨ early ∧ MakesWay s xs) ∧ Settled s early xs

section

variable {s : Settings} {early : Prop} {prompt sent : Text} {xs ys us ws : List Exchange}
  {x : Exchange}

theorem sentPrompts_append (xs ys : List Exchange) :
    sentPrompts (xs ++ ys) = sentPrompts xs ++ sentPrompts ys := List.filterMap_append

theorem MakesWay.of_silent (h : ∀ x ∈ xs, x.isBetween = true) (hxs : sentPrompts xs = []) :
    MakesWay s xs where
  between := h
  once := by
    rw [hxs]
    exact Nat.zero_le _
  preamble sent hsent := by
    rw [hxs] at hsent
    cases hsent

theorem MakesWay.append (h : MakesWay s xs) (h' : ∀ x ∈ ys, x.isBetween = true)
    (hys : sentPrompts ys = []) : MakesWay s (xs ++ ys) where
  between := List.forall_mem_append.mpr ⟨h.between, h'⟩
  once := by
    rw [sentPrompts_append, hys, List.append_nil]
    exact h.once
  preamble := by
    rw [sentPrompts_append, hys, List.append_nil]
    exact h.preamble

theorem IsSentNext.append (h : IsSentNext s prompt sent ws) (ys : List Exchange) :
    IsSentNext s prompt sent (ws ++ ys) := by
  obtain ⟨before, place, session, streams, answer, since, rfl, hbefore⟩ := h
  exact ⟨before, place, session, streams, answer, since ++ ys, List.append_assoc .., hbefore⟩

theorem IsComposedNext.append (h : IsComposedNext ws) (ys : List Exchange) :
    IsComposedNext (ws ++ ys) := by
  obtain ⟨before, turn, pending, prompt, since, rfl, hbefore⟩ := h
  exact ⟨before, turn, pending, prompt, since ++ ys, List.append_assoc .., hbefore⟩

namespace Exchange

theorem Owes.append (h : x.Owes s ws) (ys : List Exchange) : x.Owes s (ws ++ ys) := by
  obtain ⟨request, answer⟩ := x
  cases request with
  | note n =>
    cases n with
    | stepBegan => exact fun hstep => (h hstep).append ys
    | composed => exact h.imp fun _ hsent => hsent.append ys
    | _ => trivial
  | _ => trivial

theorem owes_of_between (h : x.isBetween = true) : x.Owes s ws := by
  obtain ⟨request, answer⟩ := x
  cases request with
  | note n =>
    cases n with
    | stepBegan | composed => cases h
    | _ => trivial
  | _ => trivial

theorem between_of_quiet (h : x.request.IsQuiet) :
    x.isBetween = true ∧ x.sentPrompt? = none := by
  obtain ⟨request, answer⟩ := x
  cases request with
  | host | command | files | save | write | stamp | now | clock => exact ⟨rfl, rfl⟩
  | _ => cases h

end Exchange

/-! ### Within a cycle -/

theorem Exchange.begunCycle?_of_between (h : x.isBetween = true) : x.begunCycle? = none := by
  obtain ⟨request, answer⟩ := x
  cases request with
  | note n =>
    cases n with
    | cycleBegan => cases h
    | _ => rfl
  | _ => rfl

theorem begunCycles_of_between (h : ∀ x ∈ xs, x.isBetween = true) : begunCycles xs = [] :=
  begunCycles_eq_nil_iff.mpr fun x hx => Exchange.begunCycle?_of_between (h x hx)

/-- No cycle begins before a prompt is sent that was composed. -/
theorem IsSentNext.in_cycle {cycle : Nat}
    (h : IsSentNext s prompt sent (ws ++ ⟨.note (.cycleBegan cycle), ()⟩ :: ys)) :
    IsSentNext s prompt sent ws := by
  obtain ⟨before, place, session, streams, answer, since, hws, hbefore⟩ := h
  have hnone : begunCycles (before ++ [⟨.note (.sending place prompt), ()⟩,
      ⟨.send session sent streams, answer⟩]) = [] := by
    rw [begunCycles_append, begunCycles_of_between hbefore.between]
    rfl
  obtain ⟨since, rfl, -⟩ := split_after ((List.append_assoc ..).trans hws.symm) hnone
  exact ⟨before, place, session, streams, answer, since, List.append_assoc .., hbefore⟩

theorem IsComposedNext.in_cycle {cycle : Nat}
    (h : IsComposedNext (ws ++ ⟨.note (.cycleBegan cycle), ()⟩ :: ys)) : IsComposedNext ws := by
  obtain ⟨before, turn, pending, prompt, since, hws, hbefore⟩ := h
  have hbetween : ∀ x ∈ before, x.isBetween = true :=
    fun x hx => (Exchange.between_of_quiet (hbefore x hx)).1
  have hnone : begunCycles (before ++ [⟨.note (.composed turn pending prompt), ()⟩]) = [] := by
    rw [begunCycles_append, begunCycles_of_between hbetween]
    rfl
  obtain ⟨since, rfl, -⟩ := split_after ((List.append_assoc ..).trans hws.symm) hnone
  exact ⟨before, turn, pending, prompt, since, List.append_assoc .., hbefore⟩

theorem MakesWay.no_cycle {cycle : Nat} :
    ¬MakesWay s (ws ++ ⟨.note (.cycleBegan cycle), ()⟩ :: ys) :=
  fun h => by cases h.between _ (List.mem_append_right ws List.mem_cons_self)

/-! ### What is settled -/

namespace Settled

theorem of_between (h : ∀ x ∈ xs, x.isBetween = true) : Settled s early xs := by
  induction xs with
  | nil => trivial
  | cons x xs ih =>
    obtain ⟨hx, hxs⟩ := List.forall_mem_cons.mp h
    exact ⟨.inl (Exchange.owes_of_between hx), ih hxs⟩

/-- What is settled stays so, whatever comes after it. -/
theorem append (h : Settled s False xs) (h' : Settled s early ys) : Settled s early (xs ++ ys) := by
  induction xs with
  | nil => exact h'
  | cons x xs ih =>
    obtain ⟨howes | ⟨⟨⟩, -⟩, hrest⟩ := h
    exact ⟨.inl (howes.append ys), ih hrest⟩

/-- An end that nothing is sent in is part of the early end. -/
theorem append_silent (h : Settled s early xs) (hys : ∀ x ∈ ys, x.isBetween = true)
    (hnone : sentPrompts ys = []) : Settled s early (xs ++ ys) := by
  induction xs with
  | nil => exact of_between hys
  | cons x xs ih =>
    obtain ⟨hx, hrest⟩ := h
    exact ⟨hx.imp (·.append ys) (And.imp_right (·.append hys hnone)), ih hrest⟩

theorem imp {early' : Prop} (h : Settled s early xs) (himp : early → early') :
    Settled s early' xs := by
  induction xs with
  | nil => trivial
  | cons x xs ih => exact ⟨h.1.imp_right (And.imp_left himp), ih h.2⟩

theorem of_split (h : Settled s early (us ++ x :: ws)) : x.Owes s ws ∨ early ∧ MakesWay s ws := by
  induction us with
  | nil => exact h.1
  | cons u us ih => exact ih h.2

end Settled

end

/-! ## Turns -/

/-- No cycle or step begins, and no prompt is composed. -/
def Course.between : Course := fun _ xs _ => ∀ x ∈ xs, x.isBetween = true

/-- Only others than the agent are asked. -/
def Course.quiet : Course := fun _ xs _ => ∀ x ∈ xs, x.request.IsQuiet

namespace Run

open ConversationFlow.Action

variable {r : Run} {place : StepPlace} {prompt : Text} {s t : RunState} {xs : List Exchange}
  {result : Except Ending Unit}

theorem between_isPath : Course.between.IsPath where
  rest _ _ hx := absurd hx List.not_mem_nil
  join h h' := List.forall_mem_append.mpr ⟨h, h'⟩

theorem between_ask {request : Request}
    (h : ∀ answer, Exchange.isBetween ⟨request, answer⟩ = true) : Takes .between (ask request) :=
  takes_ask fun answer _ => List.forall_mem_singleton.mpr (h answer)

theorem between_modify (f : RunState → RunState) : Takes .between (modify f : Action Unit) :=
  takes_modify fun _ _ hx => absurd hx List.not_mem_nil

theorem between_tends : TendsSessions fun _ a => Takes .between a where
  toIsTrait := between_isPath.isTrait
  asks {request} hr := by
    cases request with
    | create | destroy | stats => exact between_ask fun _ => rfl
    | _ => cases hr
  changes _ := between_modify _

theorem takesTurns_between (place : StepPlace) :
    r.TakesTurns place fun _ a => Takes .between a where
  toIsTrait := between_isPath.isTrait
  exchanges := between_isPath.exchange (fun _ _ _ _ hx => absurd hx List.not_mem_nil)
    between_tends (between_ask fun _ => rfl) (fun _ => between_ask fun _ => rfl)
    (fun _ _ _ => between_ask fun _ => rfl) fun _ _ _ _ _ _ hx => absurd hx List.not_mem_nil
  compacts := takes_bind between_isPath (between_tends.liveSession r) fun _ =>
    between_tends.compactNow (between_ask fun _ => rfl) place

end Run

/-! ## What is sent to make room -/

section

variable {s : Settings} {place : StepPlace} {session prompt : Text} {xs ys : List Exchange}

theorem Sends.sentPrompts_eq (h : Sends place prompt session xs) :
    ∃ sent, sentPrompts xs = [sent] ∧ prompt <+: sent := by
  obtain ⟨before, sent, streams, answer, since, rfl, hsent, hbefore, hsince⟩ := h
  refine ⟨sent, ?_, hsent⟩
  rw [sentPrompts_append, hbefore.sentPrompts_eq]
  exact congrArg (List.cons sent) hsince.sentPrompts_eq

theorem Compacts.sentPrompts_eq {answer : Except AgentError Unit}
    (h : Compacts session answer xs) : sentPrompts xs = [] := by
  obtain ⟨before, since, rfl, hbefore, hsince⟩ := h
  rw [sentPrompts_append, hbefore.sentPrompts_eq]
  exact hsince.sentPrompts_eq

theorem MakesRoom.prefix_of_sent {preamble : Option Text} {made : Except Ending Text}
    (h : MakesRoom place preamble xs made) :
    ∀ sent ∈ sentPrompts xs, ∃ text, preamble = some text ∧ text <+: sent := by
  have first {text session : Text} {us : List Exchange} (hfirst : Sends place text session us) :
      ∀ sent ∈ sentPrompts us, text <+: sent := by
    obtain ⟨only, honly, hprefix⟩ := hfirst.sentPrompts_eq
    rw [honly]
    exact List.forall_mem_singleton.mpr hprefix
  intro sent hsent
  cases h with
  | compacted hcompacts =>
    rw [hcompacts.sentPrompts_eq] at hsent
    cases hsent
  | unopened => cases hsent
  | preceded hfirst hcompacts =>
    rw [sentPrompts_append, hcompacts.sentPrompts_eq, List.append_nil] at hsent
    exact ⟨_, rfl, first hfirst sent hsent⟩
  | ended hlast =>
    cases hlast with
    | sent hfirst => exact ⟨_, rfl, first hfirst sent hsent⟩
    | unopened => cases hsent

/-- Room is made before the prompt that it is made for. -/
theorem MakesRoom.makesWay {vars : Variables} {made : Except Ending Text}
    (h : MakesRoom place (s.onContextLimitPrompt.map vars.substitute) xs made)
    (hxs : ∀ x ∈ xs, x.isBetween = true) : MakesWay s xs where
  between := hxs
  once := by
    have hcount := h.staysWithin.sent
    rwa [Option.length_toList, Option.isSome_map, ← Option.length_toList] at hcount
  preamble sent hsent := by
    obtain ⟨text, htext, hprefix⟩ := h.prefix_of_sent sent hsent
    obtain ⟨pattern, hpattern, rfl⟩ := Option.map_eq_some_iff.mp htext
    exact ⟨vars, pattern, hpattern, hprefix⟩

/-- Room is made for the prompt, and then it is sent, and nothing else. -/
def IsTurn (s : Settings) (place : StepPlace) (prompt : Text) (xs : List Exchange) : Prop :=
  ∃ room turn session, xs = room ++ turn ∧ MakesWay s room ∧ Sends place prompt session turn

/-- A prompt that is sent once there is room for it. -/
theorem SendsPrompt.isTurn {result : Except Ending Unit}
    (h : SendsPrompt place prompt ys result) (hxs : MakesWay s xs)
    (hys : ∀ x ∈ ys, x.isBetween = true) :
    IsTurn s place prompt (xs ++ ys) ∨ result.isOk = false ∧ MakesWay s (xs ++ ys) := by
  cases h with
  | sent hsends => exact .inl ⟨xs, ys, _, rfl, hxs, hsends⟩
  | unopened => exact .inr ⟨rfl, hxs.append hys rfl⟩

theorem IsTurn.isSentNext (h : IsTurn s place prompt xs) (hxs : ∀ x ∈ xs, x.isBetween = true) :
    ∃ sent, IsSentNext s prompt sent xs := by
  obtain ⟨room, turn, session, rfl, hroom, hsends⟩ := h
  obtain ⟨before, sent, streams, answer, since, rfl, -, hbefore, -⟩ := hsends
  obtain ⟨-, hturn⟩ := List.forall_mem_append.mp hxs
  have hway := hroom.append (List.forall_mem_append.mp hturn).1 hbefore.sentPrompts_eq
  exact ⟨sent, room ++ before, place, _, streams, answer, since, (List.append_assoc ..).symm, hway⟩

end

namespace Run

open ConversationFlow.Action

variable {r : Run} {place : StepPlace} {prompt : Text} {s t : RunState} {xs : List Exchange}
  {result : Except Ending Unit}

theorem sendTurn_between (h : (r.sendTurn prompt place).Reaches s xs result t) :
    ∀ x ∈ xs, x.isBetween = true :=
  (h.takes ((takesTurns_between place).sendTurn prompt)).1

/-- In every mode a turn sends its prompt, unless the run ends before. -/
theorem sendTurn_isTurn (h : (r.sendTurn prompt place).Reaches s xs result t) :
    IsTurn r.settings place prompt xs ∨ result.isOk = false ∧ MakesWay r.settings xs := by
  have hall := sendTurn_between h
  have unsent : MakesWay r.settings [] := .of_silent (List.forall_mem_nil _) rfl
  by_cases hfull : r.settings.sessionMode = .accumulate ∧ s.tracker.IsCrowded
  · have hturn := (reaches_sendTurn_iff_of_crowded hfull.1 hfull.2).mp h
    unfold respondToLimit at hturn
    split at hturn
    · obtain ⟨rfl, rfl, -⟩ := reaches_throw_iff.mp hturn
      exact .inr ⟨rfl, unsent⟩
    · rcases reaches_bind_iff.mp hturn with ⟨ys, zs, _, u, rfl, hy, hz⟩ | ⟨ending, rfl, he⟩
      · obtain ⟨made, hmade, -⟩ := compactAfter_reaches hy
        obtain ⟨hys, hzs⟩ := List.forall_mem_append.mp hall
        exact (exchange_reaches hz).1.isTurn (hmade.makesWay hys) hzs
      · obtain ⟨made, hmade, -⟩ := compactAfter_reaches he
        exact .inr ⟨rfl, hmade.makesWay hall⟩
  · have hexchange := (reaches_sendTurn_iff_of_room hfull).mp h
    exact (exchange_reaches hexchange).1.isTurn unsent hall

theorem sendTurn_delivers (h : (r.sendTurn prompt place).Reaches s xs result t) :
    (∃ sent, IsSentNext r.settings prompt sent xs) ∨
      result.isOk = false ∧ MakesWay r.settings xs :=
  (sendTurn_isTurn h).imp_left fun hturn => hturn.isSentNext (sendTurn_between h)

/-! ## Whole runs -/

/-- What comes of the action is settled, unless it ends the run. -/
def Settles (r : Run) {β : Type} (a : Action β) : Prop := ∀ s xs result t,
  a.Reaches s xs result t → Settled r.settings (result.isOk = false) xs

theorem settles_isTrait (r : Run) : IsTrait fun _ a => r.Settles a where
  pure b s xs result t h := by
    obtain ⟨rfl, -, -⟩ := reaches_pure_iff.mp h
    trivial
  bind ha hf s xs result t h := by
    rcases reaches_bind_iff.mp h with ⟨ys, zs, b, u, rfl, hy, hz⟩ | ⟨ending, rfl, he⟩
    · have hfirst : Settled r.settings False ys := (ha s ys _ u hy).imp Bool.noConfusion
      exact hfirst.append (hf b u zs result t hz)
    · exact ha s xs _ t he
  getBind hf s xs result t h := hf s s xs result t (reaches_get_bind_iff.mp h)
  fail failure s xs result t h := by
    obtain ⟨rfl, -, -⟩ := reaches_throw_iff.mp h
    trivial
  stop _ s xs result t h := by
    obtain ⟨rfl, -, -⟩ := reaches_throw_iff.mp h
    trivial

theorem settles_of_between {β : Type} {a : Action β} (h : Takes .between a) : r.Settles a :=
  fun _ _ _ _ hr => .of_between (hr.takes h).1

theorem settles_note {n : Note} (h : ∀ ws, Exchange.Owes r.settings ⟨.note n, ()⟩ ws) :
    r.Settles (note n) := by
  intro s xs result t hr
  obtain ⟨⟨⟩, rfl, -, -⟩ := reaches_ask_iff.mp hr
  exact ⟨.inl (h []), trivial⟩

/-- The beginning of a step that is no turn owes nothing. -/
theorem settles_begins {step : Step} (h : step.isAgentTurn = false) :
    r.Settles (note (.stepBegan place step)) :=
  settles_note fun _ hstep => by cases h.symm.trans hstep

/-- A prompt is let known and handed back as it was composed. -/
theorem compose_reaches {body : Text} {turn : TurnPlace} {fillings : List (Text × Text)}
    {composed : Except Ending Text}
    (h : (r.compose body turn fillings).Reaches s xs composed t) :
    ∃ pending prompt, xs = [⟨.note (.composed turn pending prompt), ()⟩] ∧
      composed = .ok prompt := by
  have hset := reaches_set_bind_iff.mp (reaches_get_bind_iff.mp h)
  obtain ⟨⟨⟩, ys, rfl, hreturn⟩ := reaches_ask_bind_iff.mp hset
  obtain ⟨rfl, rfl, -⟩ := reaches_pure_iff.mp hreturn
  exact ⟨_, _, rfl, rfl⟩

/-- A turn composes its prompt and sends it, unless the run ends on the way. -/
theorem composed_settled {body : Text} {turn : TurnPlace} {fillings : List (Text × Text)}
    (h : (r.compose body turn fillings >>= fun prompt => r.sendTurn prompt place).Reaches
      s xs result t) :
    IsComposedNext xs ∧ Settled r.settings (result.isOk = false) xs := by
  rcases reaches_bind_iff.mp h with ⟨_, zs, prompt, u, rfl, hy, hz⟩ | ⟨ending, rfl, he⟩
  · obtain ⟨pending, _, rfl, hok⟩ := compose_reaches hy
    cases hok
    have hall := (hz.takes ((takesTurns_between place).sendTurn prompt)).1
    exact ⟨⟨[], turn, pending, prompt, zs, rfl, List.forall_mem_nil _⟩,
      sendTurn_delivers hz, .of_between hall⟩
  · obtain ⟨pending, prompt, -, hok⟩ := compose_reaches he
    cases hok

/-- Whatever a merged turn carries out, only others than the agent are asked for it. -/
theorem resolve_quiet (m : MergedPrompt) (place : StepPlace) : Takes .quiet (r.resolve m place) := by
  have path : Course.quiet.IsPath :=
    ⟨fun _ _ hx => absurd hx List.not_mem_nil, fun h h' => List.forall_mem_append.mpr ⟨h, h'⟩⟩
  have others : AsksOthers fun _ a => Takes .quiet a :=
    { path.isTrait with
      asks := fun hq => takes_ask fun _ _ => List.forall_mem_singleton.mpr hq
      warns := fun _ => takes_modify fun _ _ hx => absurd hx List.not_mem_nil }
  exact others.resolve r place m

theorem agentTurn_settles {step : Step} (hstep : step.isAgentTurn = true) (place : StepPlace)
    (turn : TurnPlace) : r.Settles (r.executeStep place turn step) := by
  intro s xs result t h
  cases step with
  | prompt text =>
    obtain ⟨⟨⟩, ys, rfl, hturn⟩ := reaches_ask_bind_iff.mp h
    obtain ⟨hcomposed, hsettled⟩ := composed_settled hturn
    exact ⟨.inl fun _ => hcomposed, hsettled⟩
  | merged m =>
    obtain ⟨⟨⟩, ys, rfl, hturn⟩ := reaches_ask_bind_iff.mp h
    rcases reaches_bind_iff.mp hturn with ⟨us, vs, outputs, u, rfl, hu, hv⟩ | ⟨ending, rfl, he⟩
    · have hquiet : ∀ x ∈ us, x.request.IsQuiet := (hu.takes (resolve_quiet m place)).1
      have hbetween : ∀ x ∈ us, x.isBetween = true :=
        fun x hx => (Exchange.between_of_quiet (hquiet x hx)).1
      obtain ⟨⟨before, turn, pending, prompt, since, rfl, hbefore⟩, hsettled⟩ :=
        composed_settled hv
      refine ⟨.inl fun _ => ?_, (Settled.of_between hbetween).append hsettled⟩
      exact ⟨us ++ before, turn, pending, prompt, since, (List.append_assoc ..).symm,
        List.forall_mem_append.mpr ⟨hquiet, hbefore⟩⟩
    · have hquiet : ∀ x ∈ ys, x.request.IsQuiet := (he.takes (resolve_quiet m place)).1
      have hbetween : ∀ x ∈ ys, x.isBetween = true :=
        fun x hx => (Exchange.between_of_quiet (hquiet x hx)).1
      have hnone : sentPrompts ys = [] := List.filterMap_eq_nil_iff.mpr
        fun x hx => (Exchange.between_of_quiet (hquiet x hx)).2
      exact ⟨.inr ⟨rfl, .of_silent hbetween hnone⟩, .of_between hbetween⟩
  | _ => cases hstep

theorem settles_carriesTurns (r : Run) (place : StepPlace) :
    r.CarriesTurns place fun _ a => r.Settles a where
  toIsTrait := r.settles_isTrait
  asks {request} hq := settles_of_between <| between_ask fun answer =>
    (Exchange.between_of_quiet (x := ⟨request, answer⟩) hq).1
  warns _ := settles_of_between (between_modify _)
  begins _ hstep := settles_begins hstep
  saves _ := settles_of_between (between_modify _)
  helpWaits _ := r.settles_isTrait.bind (settles_begins rfl) fun _ =>
    settles_of_between (between_modify _)
  renews := r.settles_isTrait.bind (settles_begins rfl) fun _ =>
    settles_of_between <| takes_bind between_isPath between_tends.endSession fun _ =>
      takes_discard between_isPath (between_tends.openSession r)
  sends prompt := settles_of_between ((takesTurns_between place).sendTurn prompt)
  compactSteps _ := r.settles_isTrait.bind (settles_begins rfl) fun _ =>
    settles_of_between (takesTurns_between place).compactStep
  agentTurns hstep := agentTurn_settles hstep place .inBlock

theorem loadContext_between : Takes .between r.loadContext := by
  refine takes_bind between_isPath (between_ask fun _ => rfl) fun files => ?_
  refine takes_get_bind fun s => takes_bind between_isPath (between_modify _) fun _ => ?_
  exact takes_orContextFailure between_isPath _

theorem startCycle_settles (r : Run) (cycle : Nat) : r.Settles (r.startCycle cycle) := by
  refine r.settles_isTrait.bind (settles_of_between (between_modify _)) fun _ => ?_
  refine r.settles_isTrait.bind (settles_note fun _ => trivial) fun _ => settles_of_between ?_
  exact between_tends.beginCycle r (fun _ => between_ask fun _ => rfl) (between_modify _)
    loadContext_between

theorem executeCycles_settles (r : Run) (left cycle : Nat) :
    r.Settles (r.executeCycles left cycle) := by
  have trait := r.settles_isTrait
  have steps : r.Settles (r.executeFrom 0 0 r.conversation.steps) :=
    CarriesTurns.executeFrom r.settles_carriesTurns
      (fun place turn _ hstep => agentTurn_settles hstep place turn)
      (settles_of_between (between_modify _)) 0 0 _
  induction left generalizing cycle with
  | zero => exact trait.pure ()
  | succ left ih =>
    refine trait.bind ?_ fun _ => ih (cycle + 1)
    rw [executeCycle_eq]
    refine trait.bind (r.startCycle_settles cycle) fun _ => ?_
    exact trait.bind steps fun _ => settles_of_between (between_modify _)

theorem execute_settles (r : Run) : r.Settles r.execute := by
  have opens : Takes .between r.opening :=
    r.opening_isTrait between_isPath.isTrait (between_ask fun _ => rfl) (between_ask fun _ => rfl)
      (between_ask fun _ => rfl) (fun _ => between_modify _) loadContext_between
      (fun _ => between_modify _) (between_modify _)
  rw [execute_eq_stopAt]
  refine r.settles_isTrait.bind (settles_of_between opens) fun _ => ?_
  exact r.settles_isTrait.bind (r.stopAt_isTrait r.settles_isTrait 0) fun _ =>
    r.executeCycles_settles _ 0

/-- The end of a run sends nothing, so that what its last turn owes is not settled there. -/
theorem dialogue_settled {result : Except RunFailure RunReport}
    (h : (r.dialogue s).Reaches xs result) :
    Settled r.settings (completes result = false) xs := by
  obtain ⟨ys, zs, ended, t, closed, last, rfl, hexecute, hshut, rfl⟩ := reaches_dialogue_iff.mp h
  have hbetween : ∀ x ∈ zs, x.isBetween = true := (hshut.takes (between_isPath.isTrait.shutDown
    (fun _ => between_ask fun _ => rfl) (between_ask fun _ => rfl) (between_modify _))).1
  have hsilent := Silent.of_unmarked (hshut.takes shutDown_unmarked).1
  rw [completes_answer hexecute]
  exact (r.execute_settles s ys ended t hexecute).append_silent hbetween hsilent.sentPrompts_eq

end Run

namespace Conversation

/-- In every run, what a turn composes is what is sent for it. -/
theorem sendsTurns {c : Conversation} {o : RunOptions} {r : Run} {s : RunState}
    (hready : Run.prepare c o = .ok (r, s)) {xs : List Exchange}
    {result : Except RunFailure RunReport} (hr : (r.dialogue s).Reaches xs result) :
    r.SendsTurns (Run.completes result = false) xs := by
  have hsettled := Run.dialogue_settled hr
  have hinstructs := instructs_along hready hr
  refine ⟨?_, ?_⟩
  · rintro us place step ws rfl hstep
    exact hsettled.of_split.imp_left fun howes => howes hstep
  · rintro us turn pending prompt ws rfl
    refine hsettled.of_split.imp_left ?_
    rintro ⟨sent, before, place, session, streams, answer, since, rfl, hbefore⟩
    refine ⟨sent, ⟨before, place, session, streams, answer, since, rfl, hbefore⟩, ?_⟩
    -- The prompt is let known right before it is sent, and so it is the one that is sent.
    have hall : us ++ ⟨.note (.composed turn pending prompt), ()⟩ :: (before ++
          ⟨.note (.sending place prompt), ()⟩ :: ⟨.send session sent streams, answer⟩ :: since) =
        (us ++ ⟨.note (.composed turn pending prompt), ()⟩ :: before ++
          [⟨.note (.sending place prompt), ()⟩]) ++
          ⟨.send session sent streams, answer⟩ :: since := by
      simp only [List.append_assoc, List.cons_append, List.nil_append]
    rw [hall] at hinstructs
    obtain ⟨_, _, known, _, hknown, -, hsent⟩ := hinstructs.of_split
    rw [List.nil_append] at hknown
    obtain ⟨-, hsame⟩ := List.append_inj' hknown rfl
    cases hsame
    obtain ⟨-, -, rfl, -⟩ := Run.exists_of_prepare hready
    split at hsent
    · exact .inr hsent
    · exact .inl hsent

end Conversation

end ConversationFlow

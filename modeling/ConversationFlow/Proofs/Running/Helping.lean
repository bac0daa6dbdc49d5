import ConversationFlow.Proofs.Running.Delivery

/-!
# Help that steps leave

A step that leaves help leaves one text, for the next prompt of its cycle. The prompt takes all the
texts that wait, in the order in which they were left, and is sent with them; no prompt after it has
them again. Texts that wait when a cycle ends are dropped. Turns that are not composed, such as those
of commands, checks and references, take none.
-/

namespace ConversationFlow

namespace Exchange

/-- The help that a step leaves. -/
def leftHelp : Exchange → List Text
  | ⟨.note (.stepBegan _ (.helpInline topics true)), _⟩ => [Help.render topics]
  | _ => []

/-- The help that a prompt takes. -/
def takenHelp : Exchange → List Text
  | ⟨.note (.composed _ pending _), _⟩ => pending
  | _ => []

/-- No help waits after the exchange: a prompt took it, or a cycle began. -/
def clearsHelp : Exchange → Bool
  | ⟨.note (.cycleBegan _), _⟩ | ⟨.note (.composed ..), _⟩ => true
  | _ => false

variable {x : Exchange}

theorem waitingAfter_of_clears (h : x.clearsHelp = true) (waiting : List Text) :
    x.waitingAfter waiting = [] := by
  obtain ⟨request, answer⟩ := x
  cases request with
  | note n =>
    cases n with
    | cycleBegan | composed => rfl
    | _ => cases h
  | _ => cases h

theorem waitingAfter_of_leaves (h : x.clearsHelp = false) (waiting : List Text) :
    x.waitingAfter waiting = waiting ++ x.leftHelp := by
  obtain ⟨request, answer⟩ := x
  cases request with
  | note n =>
    cases n with
    | cycleBegan | composed => cases h
    | sending => exact (List.append_nil waiting).symm
    | stepBegan place step =>
      cases step with
      | helpInline topics joins =>
        cases joins with
        | true => rfl
        | false => exact (List.append_nil waiting).symm
      | _ => exact (List.append_nil waiting).symm
  | _ => exact (List.append_nil waiting).symm

end Exchange

/-- The help that steps left, in order. -/
def leftHelp (xs : List Exchange) : List Text := xs.flatMap (·.leftHelp)

/-- The help that prompts took, in order. -/
def takenHelp (xs : List Exchange) : List Text := xs.flatMap (·.takenHelp)

section

variable {past xs : List Exchange} {x : Exchange}

theorem leftHelp_snoc : leftHelp (xs ++ [x]) = leftHelp xs ++ x.leftHelp := by
  unfold leftHelp
  rw [List.flatMap_append, List.flatMap_singleton]

/-- Where nothing is taken, what is left waits behind what waited before. -/
theorem helpWaiting_append (h : ∀ x ∈ xs, x.clearsHelp = false) :
    helpWaiting (past ++ xs) = helpWaiting past ++ leftHelp xs := by
  induction xs using List.reverseRecOn with
  | nil => exact (congrArg helpWaiting (List.append_nil past)).trans (List.append_nil _).symm
  | append_singleton xs x ih =>
    obtain ⟨hxs, hx⟩ := List.forall_mem_append.mp h
    have hleaves := Exchange.waitingAfter_of_leaves (hx x List.mem_cons_self)
    rw [← List.append_assoc, helpWaiting_snoc, ih hxs, hleaves, leftHelp_snoc, List.append_assoc]

/-- What waits was left since the last time that nothing waited. -/
theorem exists_left_of_clears (hx : x.clearsHelp = true) :
    ∃ since, since <:+ xs ∧ helpWaiting (past ++ x :: xs) = leftHelp since := by
  induction xs using List.reverseRecOn with
  | nil =>
    refine ⟨[], List.suffix_rfl, ?_⟩
    rw [helpWaiting_snoc]
    exact Exchange.waitingAfter_of_clears hx _
  | append_singleton xs y ih =>
    rw [← List.cons_append, ← List.append_assoc, helpWaiting_snoc]
    cases hy : y.clearsHelp with
    | true => exact ⟨[], List.nil_suffix, Exchange.waitingAfter_of_clears hy _⟩
    | false =>
      obtain ⟨since, ⟨before, rfl⟩, hwaiting⟩ := ih
      refine ⟨since ++ [y], ⟨before, (List.append_assoc ..).symm⟩, ?_⟩
      rw [Exchange.waitingAfter_of_leaves hy, hwaiting, leftHelp_snoc]

/-- Within a cycle an exchange takes what waits, or leaves something behind it. -/
theorem left_of_frames {r : Run} (h : r.Frames past x) (hx : x.begunCycle? = none) :
    helpWaiting past ++ x.leftHelp = x.takenHelp ++ x.waitingAfter (helpWaiting past) := by
  obtain ⟨request, answer⟩ := x
  cases request with
  | note n =>
    cases n with
    | cycleBegan => cases hx
    | composed =>
      obtain ⟨rfl, -⟩ := h
      rfl
    | stepBegan | sending => exact (Exchange.waitingAfter_of_leaves rfl _).symm
  | _ => exact (Exchange.waitingAfter_of_leaves rfl _).symm

/-- And so what is left within a cycle is taken, but for what waits still. -/
theorem left_of_along {r : Run} (h : Along r.Frames past xs) (hxs : begunCycles xs = []) :
    helpWaiting past ++ leftHelp xs = takenHelp xs ++ helpWaiting (past ++ xs) := by
  induction xs generalizing past with
  | nil => exact (List.append_nil _).trans (congrArg helpWaiting (List.append_nil past)).symm
  | cons x xs ih =>
    obtain ⟨hx, hrest⟩ := List.forall_mem_cons.mp (begunCycles_eq_nil_iff.mp hxs)
    have hone := left_of_frames h.1 hx
    have hmore := ih h.2 (begunCycles_eq_nil_iff.mpr hrest)
    rw [helpWaiting_snoc, List.append_assoc] at hmore
    calc helpWaiting past ++ leftHelp (x :: xs)
        = helpWaiting past ++ x.leftHelp ++ leftHelp xs := (List.append_assoc ..).symm
      _ = x.takenHelp ++ (x.waitingAfter (helpWaiting past) ++ leftHelp xs) := by
        rw [hone, List.append_assoc]
      _ = x.takenHelp ++ (takenHelp xs ++ helpWaiting (past ++ x :: xs)) := by
        rw [hmore]
        rfl
      _ = takenHelp (x :: xs) ++ helpWaiting (past ++ x :: xs) := (List.append_assoc ..).symm

end

/-- How the help that steps leave goes into the prompts that a run sends. -/
structure DeliversHelp (r : Run) (xs : List Exchange) (result : Except RunFailure RunReport) :
    Prop where
  /-- Every turn composes a prompt, which is sent as it was composed, unless the run ends before. -/
  sends : r.SendsTurns (Run.completes result = false) xs
  /-- A cycle that runs to its end executes every step, and so all that leave help. -/
  executes : ∀ us cycle ys, IsWholeCycle xs result us cycle ys →
    r.conversation.steps.Sublist (begunSteps ys)
  /-- What a prompt takes are parts of its text, in order and before its headers and its body. -/
  parts : ∀ us place pending prompt ws,
    xs = us ++ ⟨.note (.composed place pending prompt), ()⟩ :: ws →
    ∃ (f : PromptFrame) (body : Text), f.settings = r.settings ∧
      prompt = Text.join "\n\n" ((if place.isFirst then f.opening else []) ++ pending ++
        r.settings.headers.map f.vars.substitute ++ [body] ++
        r.settings.footers.map f.vars.substitute ++
        (if place.isLast then r.settings.epilogues.map f.vars.substitute else []))
  /-- A text that is left is taken by the next prompt of the cycle, between those that were left
  before it and those that were left since. -/
  next : ∀ us place topics vs turn pending prompt ws,
    xs = us ++ ⟨.note (.stepBegan place (.helpInline topics true)), ()⟩ ::
      (vs ++ ⟨.note (.composed turn pending prompt), ()⟩ :: ws) →
    (∀ x ∈ vs, x.clearsHelp = false) →
    pending = helpWaiting us ++ Help.render topics :: leftHelp vs
  /-- After a prompt or the beginning of a cycle, a prompt takes nothing that was left before. -/
  later : ∀ us x vs turn pending prompt ws,
    xs = us ++ x :: (vs ++ ⟨.note (.composed turn pending prompt), ()⟩ :: ws) →
    x.clearsHelp = true → ∃ since, since <:+ vs ∧ pending = leftHelp since
  /-- In a cycle all that was left was taken, once and in order, but for what waits still. -/
  accounts : ∀ us cycle ys zs, xs = us ++ ⟨.note (.cycleBegan cycle), ()⟩ :: (ys ++ zs) →
    begunCycles ys = [] →
    leftHelp ys = takenHelp ys ++ helpWaiting (us ++ ⟨.note (.cycleBegan cycle), ()⟩ :: ys)

namespace Conversation

/-- In every run, help that a step leaves for the next prompt is part of that prompt and of no
other, unless the cycle ends before; and the prompt is sent with it. -/
theorem help_is_delivered_once {c : Conversation} {o : RunOptions} {r : Run} {s : RunState}
    (hready : Run.prepare c o = .ok (r, s)) {xs : List Exchange}
    {result : Except RunFailure RunReport} (hr : (r.dialogue s).Reaches xs result) :
    DeliversHelp r xs result := by
  obtain ⟨-, hunloaded, hhelp⟩ := Run.prepare_isUnloaded hready
  obtain rfl := prepare_conversation hready
  obtain ⟨hframes, -⟩ := Run.frames_along hunloaded hhelp hr
  refine ⟨sendsTurns hready hr, fun us cycle ys => r.begins_whole_cycles hr,
    fun us place pending prompt ws hxs => ?_,
    fun us place topics vs turn pending prompt ws hxs hvs => ?_,
    fun us x vs turn pending prompt ws hxs hx => ?_, fun us cycle ys zs hxs hys => ?_⟩
  · subst hxs
    obtain ⟨-, f, step, body, hframe, -, -, rfl, -⟩ := hframes.of_split
    obtain ⟨fs, now, files, loaded, cycle, -, -, -, -, -, rfl⟩ := hframe
    exact ⟨_, body, rfl, rfl⟩
  · subst hxs
    rw [← List.cons_append, ← List.append_assoc] at hframes
    obtain ⟨rfl, -⟩ := hframes.of_split
    exact helpWaiting_append (List.forall_mem_cons.mpr ⟨rfl, hvs⟩)
  · subst hxs
    rw [← List.cons_append, ← List.append_assoc] at hframes
    obtain ⟨rfl, -⟩ := hframes.of_split
    exact exists_left_of_clears hx
  · subst hxs
    have hcycle : Along r.Frames (us ++ [⟨.note (.cycleBegan cycle), ()⟩]) ys :=
      hframes.of_append.2.2.of_append.1
    have hnone : helpWaiting (us ++ [⟨.note (.cycleBegan cycle), ()⟩]) = [] :=
      helpWaiting_snoc us _
    have haccounts := left_of_along hcycle hys
    rwa [hnone, List.append_assoc] at haccounts

/-- Help before and behind the prompt of two cycles. -/
def helpAroundPrompt : Compiled :=
  ⟨{ sessionMode := .fresh, maxCycles := some 2 },
    [.helpInline ["context".toList] true, .helpInline ["elide".toList] true, .prompt "one".toList,
      .helpInline ["verify".toList] true], none⟩

/-- Both prompts are sent with the help before them, and none with what is left behind them. -/
theorem help_behind_last_prompt_is_dropped :
    ∃ r s xs result,
      Run.prepare (ofCompiled helpAroundPrompt) patientOptions = .ok (r, s) ∧
      (r.dialogue s).Reaches xs result ∧
      begunCycles xs = [0, 1] ∧ (leftHelp xs).length = 6 ∧ (takenHelp xs).length = 4 ∧
      (sentPrompts xs).length = 2 ∧ Run.completes result = true ∧
      DeliversHelp r xs result := by
  have hp : Run.prepare (ofCompiled helpAroundPrompt) patientOptions = .ok (_, _) := rfl
  have hr := fun r s => Dialogue.reaches_of_run
    (fun request w => (stillAnswer { cwd := [], nodes := [] } request, w)) (Run.dialogue r s) ()
  refine ⟨_, _, _, _, hp, hr _ _, ?_, ?_, ?_, ?_, ?_, help_is_delivered_once hp (hr _ _)⟩
  · decide +kernel
  · decide +kernel
  · decide +kernel
  · decide +kernel
  · decide +kernel

end Conversation

end ConversationFlow

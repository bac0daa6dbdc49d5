import ConversationFlow.Proofs.Running.Delivery

/-!
# What a rendered conversation predicts

A rendering tells the text of each turn before the run. It frames the turns as a run does, but it
leaves out the help that steps leave for the next prompt: a text is what the run composes and sends
for that turn exactly where no help waits.
-/

namespace ConversationFlow

namespace PromptFrame

/-- Whatever waits is part of the prompt. -/
theorem compose_eq_iff (f : PromptFrame) (pending : List Text) (body : Text) (place : TurnPlace) :
    f.compose pending body place = f.compose [] body place ↔ pending = [] := by
  refine ⟨fun heq => ?_, fun heq => by rw [heq]⟩
  have hlength (pending : List Text) := Text.length_join "\n\n"
    (show f.parts pending (f.vars.substitute body) place ≠ [] by simp [parts])
  have hsum := (hlength pending).symm.trans ((congrArg (·.length + 2) heq).trans (hlength []))
  cases pending with
  | nil => rfl
  | cons help pending =>
    simp only [parts, List.map_append, List.sum_append, List.map_cons, List.sum_cons, List.map_nil,
      List.sum_nil] at hsum
    have hsep : ("\n\n" : Text).length = 2 := rfl
    omega

end PromptFrame

namespace RenderedWorkflow

/-- The text of a turn as it is rendered; cycles and turns are counted from 0. -/
def resolved? (w : RenderedWorkflow) (cycle turn : Nat) : Option Text :=
  w.cycles[cycle]?.bind fun c => c.prompts[turn]?.bind (·.resolved)

variable {c : Conversation} {r : Run} {fs : FileSystem} {now : Variables.Occasion}

/-- Once the context is loaded, a rendering fails only for its excerpts. -/
theorem render_cases {base : Path} {loaded : ContextTracker}
    (hloaded : loadContext fs c (base.within c.settings.cwd) = .ok loaded) (vars : Variables)
    (mode : RenderMode) (cycles : Option Nat) :
    (∃ e, renderExcerpts fs c.settings mode (base.within c.settings.cwd) c.baseDir = .error e ∧
      render fs c base vars mode cycles = .error e) ∨
    ∃ w files excerpts, render fs c base vars mode cycles = .ok w ∧
      w.cycles = (List.range (max 1 (cycles.getD c.settings.cycles))).map
        (renderCycle c.settings vars mode loaded.render files excerpts
          (c.steps.filter Step.isAgentTurn) (max 1 (cycles.getD c.settings.cycles))) := by
  unfold render
  dsimp only
  rw [hloaded]
  cases renderExcerpts fs c.settings mode (base.within c.settings.cwd) c.baseDir with
  | error e => exact .inl ⟨e, rfl, rfl⟩
  | ok excerpts => exact .inr ⟨_, _, excerpts, rfl, rfl⟩

/-- A turn is rendered with the frame of its cycle and no help before it. -/
theorem resolved?_eq {w : RenderedWorkflow} {vars : Variables} {context : Text}
    {files : List RenderedFile} {excerpts : Option Text} {settings : Settings} {turns : List Step}
    {total : Nat} (hw : w.cycles = (List.range total).map
      (renderCycle settings vars .full context files excerpts turns total))
    {cycle k : Nat} (hcycle : cycle < total) {text : Text}
    (htext : turns[k]? = some (.prompt text)) :
    w.resolved? cycle k = some (PromptFrame.compose
      ⟨settings, vars.setCycle (cycle + 1) total, cycle, context⟩ [] text
      (.among k turns.length)) := by
  unfold resolved?
  rw [hw, List.getElem?_map, List.getElem?_range hcycle, Option.map_some, Option.bind_some]
  unfold renderCycle
  dsimp only
  rw [List.getElem?_mapIdx, htext]
  rfl

end RenderedWorkflow

namespace RenderedWorkflow

/-- A rendering of a conversation, with the files and the variables of a run, has for each turn that
is a prompt the text that the run composes and sends for it, if and only if no help waits for the
prompt. It fails only for excerpts, which a run may do without. -/
theorem predicts_iff_no_help_waits {c : Conversation} {o : RunOptions} {r : Run} {s : RunState}
    (hready : Run.prepare c o = .ok (r, s)) {xs : List Exchange}
    {result : Except RunFailure RunReport} (hr : (r.dialogue s).Reaches xs result)
    {fs : FileSystem} {now : Variables.Occasion} (hfound : FoundAt fs now xs)
    {us ws : List Exchange} {k total : Nat} {pending : List Text} {prompt text : Text}
    (hxs : xs = us ++ ⟨.note (.composed (.among k total) pending prompt), ()⟩ :: ws)
    (htext : (c.steps.filter Step.isAgentTurn)[k]? = some (.prompt text)) :
    r.SendsTurns (Run.completes result = false) xs ∧
      pending = helpWaiting us ∧ ∃ cycle, (begunCycles us).getLast? = some cycle ∧
      ((∃ e, renderExcerpts fs c.settings .full (o.cwd.within c.settings.cwd) c.baseDir = .error e ∧
        render fs c o.cwd (r.initialVars fs now) .full none = .error e) ∨
      ∃ w resolved, render fs c o.cwd (r.initialVars fs now) .full none = .ok w ∧
        w.resolved? cycle k = some resolved ∧ (prompt = resolved ↔ helpWaiting us = [])) := by
  have hsends := Conversation.sendsTurns hready hr
  obtain ⟨hcwd, hunloaded, hhelp⟩ := Run.prepare_isUnloaded hready
  obtain rfl := Conversation.prepare_conversation hready
  subst hxs
  obtain ⟨hpending, loaded, cycle, hloaded, hbegun, hcycle, hprompt⟩ :=
    (Run.assembles_along hunloaded hhelp hr).of_split hfound.of_append.1
  obtain ⟨rfl, hprompt⟩ := hprompt text htext
  refine ⟨hsends, hpending, cycle, hbegun, ?_⟩
  unfold Run.Loads at hloaded
  rw [hcwd] at hloaded
  refine (render_cases hloaded (r.initialVars fs now) .full none).imp_right ?_
  rintro ⟨w, files, excerpts, hw, hcycles⟩
  have htotal : max 1 r.conversation.settings.cycles = r.settings.cycles :=
    Nat.max_eq_right (Nat.le_max_left 1 _)
  rw [Option.getD_none, htotal] at hcycles
  refine ⟨w, _, hw, resolved?_eq hcycles hcycle htext, ?_⟩
  rw [hprompt, ← show pending = helpWaiting us from hpending]
  exact PromptFrame.compose_eq_iff _ _ _ _

/-- Help that is left for the first of two prompts, beside a file of context. -/
def helpBeforePrompts : Compiled :=
  ⟨{ context := ["note.md".toList], sessionMode := .fresh },
    [.helpInline ["context".toList] true, .prompt "one".toList, .prompt "two".toList], none⟩

/-- A patient run in the topmost directory. -/
def topmostOptions : RunOptions := { patientOptions with cwd := "/" }

/-- The places of the prompts that were composed, and how much help waited for them. -/
def composedTurns (xs : List Exchange) : List (TurnPlace × Nat) :=
  xs.filterMap fun
    | ⟨.note (.composed place pending _), _⟩ => some (place, pending.length)
    | _ => none

theorem exists_of_composedTurns {xs : List Exchange} {place : TurnPlace} {waiting : Nat}
    (h : (place, waiting) ∈ composedTurns xs) :
    ∃ us ws pending prompt, pending.length = waiting ∧
      xs = us ++ ⟨.note (.composed place pending prompt), ()⟩ :: ws := by
  obtain ⟨x, hx, h⟩ := List.mem_filterMap.mp h
  split at h
  · cases h
    obtain ⟨us, ws, rfl⟩ := List.append_of_mem hx
    exact ⟨us, ws, _, _, rfl, rfl⟩
  · cases h

/-- Both prompts are sent as they were composed. The one before which help was left is not the one
that was rendered; the other is. -/
theorem help_is_not_rendered :
    ∃ r s xs result fs now w,
      Run.prepare (.ofCompiled helpBeforePrompts) topmostOptions = .ok (r, s) ∧
      (r.dialogue s).Reaches xs result ∧ FoundAt fs now xs ∧
      Run.completes result = true ∧ r.SendsTurns (Run.completes result = false) xs ∧
      render fs (.ofCompiled helpBeforePrompts) "/" (r.initialVars fs now) .full none = .ok w ∧
      (∃ us ws help prompt cycle resolved,
        xs = us ++ ⟨.note (.composed (.among 0 2) [help] prompt), ()⟩ :: ws ∧
        (begunCycles us).getLast? = some cycle ∧ w.resolved? cycle 0 = some resolved ∧
        prompt ≠ resolved) ∧
      ∃ us ws prompt cycle,
        xs = us ++ ⟨.note (.composed (.among 1 2) [] prompt), ()⟩ :: ws ∧
        (begunCycles us).getLast? = some cycle ∧ w.resolved? cycle 1 = some prompt := by
  let fs := noteOf "hello".toList
  let answering : Dialogue.Answering Unit := fun request _ => (stillAnswer fs request, ())
  have hturns : (Run.prepare (.ofCompiled helpBeforePrompts) topmostOptions).toOption.map
      (fun p => (composedTurns ((p.1.dialogue p.2).run answering ()).2.1,
        Run.completes ((p.1.dialogue p.2).run answering ()).1)) =
      some ([(.among 0 2, 1), (.among 1 2, 0)], true) := by decide +kernel
  obtain ⟨⟨r, s⟩, hready⟩ :
      ∃ p, Run.prepare (.ofCompiled helpBeforePrompts) topmostOptions = .ok p := ⟨_, rfl⟩
  rw [hready] at hturns
  obtain ⟨hturns, hcompletes⟩ := Prod.mk.inj (Option.some.inj hturns)
  have hr := Dialogue.reaches_of_run answering (r.dialogue s) ()
  have hfound : FoundAt fs ⟨⟨[], []⟩, fun _ _ => {}⟩ ((r.dialogue s).run answering ()).2.1 :=
    Dialogue.forall_run (fun request _ => by cases request <;> trivial) _ _
  generalize ((r.dialogue s).run answering ()).2.1 = xs at hturns hr hfound
  generalize ((r.dialogue s).run answering ()).1 = result at hcompletes hr
  -- The place of each prompt, and whether help waited there, is known from the run itself.
  obtain ⟨us, ws, pending, prompt, hone, hus⟩ :=
    exists_of_composedTurns (hturns ▸ List.mem_cons_self)
  obtain ⟨vs, zs, none, second, hzero, hvs⟩ :=
    exists_of_composedTurns (hturns ▸ List.mem_cons_of_mem _ List.mem_cons_self)
  obtain ⟨help, rfl⟩ := List.length_eq_one_iff.mp hone
  obtain rfl := List.eq_nil_of_length_eq_zero hzero
  obtain ⟨hsends, hpending, cycle, hbegun,
      ⟨e, he, -⟩ | ⟨w, resolved, hw, hresolved, hiff⟩⟩ :=
    predicts_iff_no_help_waits hready hr hfound hus rfl
  · cases he
  · obtain ⟨-, hnone, cycle', hbegun', ⟨e, he, -⟩ | ⟨w', resolved', hw', hresolved', hiff'⟩⟩ :=
      predicts_iff_no_help_waits hready hr hfound hvs rfl
    · cases he
    · obtain rfl : w = w' := Except.ok.inj (hw.symm.trans hw')
      rw [← hpending] at hiff
      refine ⟨r, s, xs, result, fs, _, w, hready, hr, hfound, hcompletes, hsends, hw,
        ⟨us, ws, _, prompt, cycle, resolved, hus, hbegun, hresolved, fun heq => ?_⟩,
        ⟨vs, zs, second, cycle', hvs, hbegun', ?_⟩⟩
      · cases hiff.mp heq
      · rw [hresolved', hiff'.mpr hnone.symm]

end RenderedWorkflow

end ConversationFlow

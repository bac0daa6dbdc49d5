import ConversationFlow.Proofs.Compilation.Lists
import ConversationFlow.Proofs.Compilation.Nesting

/-!
# Blocks around included files

Where an included file ends, the block that is open is compared with the one that was open where it
began. The comparison is of lines, and where no block is open there is nothing to compare: an
included file cannot leave a block of its own open, but an END in it closes a block that is open
around it. What becomes of the commands behind such an END is not followed. Until its END a block
belongs to the last step, so that nothing is lost where only that is said of its owner.
-/

namespace ConversationFlow

namespace Event

/-- Some END is among the events. -/
def HasEnd (events : List Event) : Prop := ∃ line, .instruction line .closeBlock ∈ events

theorem hasEnd_cons_iff {e : Event} {events : List Event} :
    HasEnd (e :: events) ↔ (∃ line, e = .instruction line .closeBlock) ∨ HasEnd events := by
  unfold HasEnd
  constructor
  · rintro ⟨line, h⟩
    rcases List.mem_cons.mp h with rfl | h
    · exact .inl ⟨line, rfl⟩
    · exact .inr ⟨line, h⟩
  · rintro (⟨line, rfl⟩ | ⟨line, h⟩)
    · exact ⟨line, List.mem_cons_self⟩
    · exact ⟨line, List.mem_cons_of_mem e h⟩

theorem hasEnd_append_iff {before after : List Event} :
    HasEnd (before ++ after) ↔ HasEnd before ∨ HasEnd after := by
  unfold HasEnd
  simp only [List.mem_append, exists_or]

end Event

namespace SourceLine

variable {src : Sources} {stack : List Location} {s t : SourceLine}

/-- The line is in one of these files, or in no file. -/
def IsWithin (src : Sources) (stack : List Location) (s : SourceLine) : Prop :=
  ∀ p, s.file = some p → ∃ l ∈ stack, src.locate p = .ok l

/-- The line is in a file, and in none of these. -/
def IsOutside (src : Sources) (stack : List Location) (s : SourceLine) : Prop :=
  ∃ p l, s.file = some p ∧ src.locate p = .ok l ∧ l ∉ stack

/-- Lines are compared by the paths of their files, which is enough to tell such lines apart. -/
theorem IsOutside.not_beq (ht : t.IsOutside src stack) (hs : s.IsWithin src stack) :
    ¬(s == t) = true := by
  obtain ⟨q, l, hq, hl, hfresh⟩ := ht
  intro h
  have hfile : (s.file == t.file) = true := (Bool.and_eq_true_iff.mp h).1
  rw [hq] at hfile
  cases hp : s.file with
  | none =>
    rw [hp] at hfile
    cases hfile
  | some p =>
    rw [hp] at hfile
    have hparts : p.parts = q.parts := eq_of_beq hfile
    obtain ⟨m, hm, hpm⟩ := hs p hp
    exact hfresh (src.locate_unique hpm hl hparts ▸ hm)

end SourceLine

namespace Draft

variable {src : Sources} {registry : Registry} {stack outer : List Location} {file : Option Path}
  {ds : List Directive} {d d' : Draft} {b : OpenBlock} {line : SourceLine} {i : Instruction}

/-! ## What an instruction does to the blocks -/

/-- Steps are put where the next one goes, behind those that are there, whose retries may change. -/
def Adds (d d' : Draft) : Prop :=
  ∃ steps, d.target.map Step.bare <+: steps.map Step.bare ∧
    d'.steps = (d.withTarget steps).steps ∧ d'.block = (d.withTarget steps).block

theorem adds_same (hs : d'.steps = d.steps) (hb : d'.block = d.block) : d.Adds d' := by
  refine ⟨d.target, List.prefix_refl _, ?_, ?_⟩
  · rw [hs]
    cases h : d.block with
    | none => rw [withTarget_none h, target_none h]
    | some b => rw [withTarget_some h]
  · rw [hb]
    cases h : d.block with
    | none => rw [withTarget_none h, h]
    | some b => rw [withTarget_some h, target_some h]

theorem adds_push {e : Draft} (hs : e.steps = d.steps) (hb : e.block = d.block) (s : Step) :
    d.Adds (e.push s) := by
  have htarget : e.target = d.target := by
    unfold target
    rw [hs, hb]
  refine ⟨d.target ++ [s], ?_, ?_⟩
  · rw [List.map_append]
    exact List.prefix_append _ _
  · unfold push
    rw [htarget]
    cases h : d.block with
    | none =>
      rw [withTarget_none (hb.trans h), withTarget_none h]
      exact ⟨rfl, hb⟩
    | some b =>
      rw [withTarget_some (hb.trans h), withTarget_some h]
      exact ⟨hs, rfl⟩

theorem block_of_closeBlock (h : d.apply line .closeBlock = .ok d') : d'.block = none := by
  obtain ⟨b, -, ⟨before, owner, -, rfl⟩ | ⟨-, rfl⟩⟩ := closeBlock_ok h <;> rfl

/-- An instruction opens a block, closes one, or adds steps. -/
theorem apply_cases (h : d.apply line i = .ok d') :
    d.Adds d' ∨ (d.block = none ∧ ∃ kind, d'.block = some ⟨kind, [], line⟩) ∨
      i = .closeBlock ∧ d'.block = none := by
  cases i with
  | configure change | includeFile target =>
    cases h
    exact .inl (adds_same rfl rfl)
  | prologue text | epilogue text =>
    simp only [apply] at h
    split at h <;> cases h <;> exact .inl (adds_same rfl rfl)
  | step s change =>
    cases h
    exact .inl (adds_push (d := d) (e := { d with settings := change d.settings }) rfl rfl s)
  | retry count prompt =>
    obtain ⟨before, c, f, s, ht, rfl⟩ := retry_ok h
    refine .inl ⟨_, ?_, rfl, rfl⟩
    rw [ht, List.map_append, List.map_append]
    exact List.prefix_refl _
  | human consult message =>
    cases h
    unfold human
    split
    · exact .inl (adds_push rfl rfl _)
    · cases consult <;> exact .inl (adds_same rfl rfl)
  | openBlock kind =>
    obtain ⟨hnone, rfl, -⟩ := openBlock_ok h
    exact .inr (.inl ⟨hnone, kind, rfl⟩)
  | closeBlock => exact .inr (.inr ⟨rfl, block_of_closeBlock h⟩)

/-- The open block was opened at the line of the instruction, or was open before. -/
theorem apply_block_line (h : d.apply line i = .ok d') {c : OpenBlock} (hc : d'.block = some c) :
    c.line = line ∨ ∃ b, d.block = some b ∧ c.line = b.line := by
  rcases apply_cases h with ⟨steps, -, -, hblock⟩ | ⟨-, kind, hopen⟩ | ⟨-, hnone⟩
  · rw [hc] at hblock
    cases hb : d.block with
    | none =>
      rw [withTarget_none hb] at hblock
      cases hblock.trans hb
    | some b =>
      rw [withTarget_some hb] at hblock
      cases hblock
      exact .inr ⟨b, rfl, rfl⟩
  · cases hopen.symm.trans hc
    exact .inl rfl
  · cases hnone.symm.trans hc

/-! ## Blocks that no END closes -/

/-- The block is open, with more steps than before, and belongs to the same step. -/
def KeepsBlock (d d' : Draft) (b : OpenBlock) : Prop :=
  ∃ steps, d'.block = some { b with steps } ∧ d'.steps = d.steps ∧
    b.steps.map Step.bare <+: steps.map Step.bare

theorem apply_keepsBlock (hb : d.block = some b) (hi : i ≠ .closeBlock)
    (h : d.apply line i = .ok d') : d.KeepsBlock d' b := by
  rcases apply_cases h with ⟨steps, hkept, hsteps, hblock⟩ | ⟨hnone, -⟩ | ⟨hclose, -⟩
  · rw [withTarget_some hb] at hsteps hblock
    rw [target_some hb] at hkept
    exact ⟨steps, hblock, hsteps, hkept⟩
  · cases hb.symm.trans hnone
  · exact absurd hclose hi

/-- A block that is open stays open until an END. -/
theorem run_keepsBlock {events : List Event} (hb : d.block = some b)
    (hno : ¬Event.HasEnd events) (h : d.run events = .ok d') : d.KeepsBlock d' b := by
  have hstart : d.KeepsBlock d b := ⟨b.steps, hb, rfl, List.prefix_refl _⟩
  refine run_keeps (P := fun e => d.KeepsBlock e b) (fun _ _ he => he) ?_ hstart h
  rintro e e' line i hmem ⟨steps, hblock, hsteps, hprefix⟩ ha
  have hi : i ≠ .closeBlock := by
    rintro rfl
    exact hno ⟨line, hmem⟩
  obtain ⟨more, hblock', hsteps', hprefix'⟩ := apply_keepsBlock hblock hi ha
  exact ⟨more, hblock', hsteps'.trans hsteps, hprefix.trans hprefix'⟩

/-- A block belongs to the step at the index at which it was opened, although a draft does not hold
that index: until an END the step is the last one, so that the END finds it there. -/
theorem owner_stays {opened : Draft} {kind : BlockKind} {events : List Event}
    (ho : d.openBlock line kind = .ok opened) (hno : ¬Event.HasEnd events)
    (h : opened.run events = .ok d') :
    ∃ (index : Nat) (owner : Step) (steps : List Step), d.steps[index]? = some owner ∧
      owner.canOwnBlocks = true ∧ d'.steps = d.steps ∧ index = d'.steps.length - 1 ∧
      d'.block = some ⟨kind, steps, line⟩ ∧
      ∀ last, d'.closeBlock last =
        .ok { d' with steps := d'.steps.set index (attach kind steps owner), block := none } := by
  obtain ⟨-, rfl, before, owner, hsteps, hown, -⟩ := openBlock_ok ho
  obtain ⟨steps, hblock, hkept, -⟩ := run_keepsBlock rfl hno h
  have hsame : d'.steps = before ++ [owner] := hkept.trans hsteps
  refine ⟨before.length, owner, steps, ?_, hown, hkept, ?_, hblock, fun last => ?_⟩
  · rw [hsteps, List.getElem?_concat_length]
  · rw [hsame, List.length_append, List.length_singleton, Nat.add_sub_cancel]
  · unfold closeBlock
    rw [hblock, hsame, List.getLast?_concat, List.dropLast_concat,
      List.set_append_right _ _ (Nat.le_refl _), Nat.sub_self, List.set_cons_zero]

/-! ## Blocks behind an END -/

/-- The block that is open, if there is one, was opened in none of these files. -/
def OpenOutside (src : Sources) (outer : List Location) (d : Draft) : Prop :=
  ∀ b, d.block = some b → b.line.IsOutside src outer

theorem apply_openOutside (hline : line.IsOutside src outer) (h : d.OpenOutside src outer)
    (ha : d.apply line i = .ok d') : d'.OpenOutside src outer := by
  intro c hc
  rcases apply_block_line ha hc with hopened | ⟨b, hb, hopened⟩ <;> rw [hopened]
  · exact hline
  · exact h b hb

/-- Behind an END in a file, or where a block is open that was opened inside, no block is open but
one that was opened inside. -/
theorem Reads.openOutside (hr : Reads src registry stack file ds d d')
    (hstack : ∀ l ∈ outer, l ∈ stack) {p : Path} {l : Location} (hfile : file = some p)
    (hp : src.locate p = .ok l) (hl : l ∉ outer)
    (h : d.OpenOutside src outer ∨
      Event.HasEnd (Event.ofDirectives src registry stack file ds)) : d'.OpenOutside src outer := by
  -- An END closes what is open, and all blocks behind it are opened at lines of the files inside.
  induction hr generalizing p l with
  | done =>
    refine h.resolve_right ?_
    rintro ⟨line, hmem⟩
    rw [Event.ofDirectives] at hmem
    cases hmem
  | @plain stack file x ds i d next d' hx hno ha _ ih =>
    have hline : SourceLine.IsOutside src outer ⟨file, x.line⟩ := ⟨p, l, hfile, hp, hl⟩
    refine ih hstack hfile hp hl ?_
    rcases h with h | h
    · exact .inl (apply_openOutside hline h ha)
    · rw [Event.ofDirectives_plain hx hno, Event.hasEnd_cons_iff] at h
      rcases h with ⟨_, heq⟩ | h
      · obtain rfl := (Event.instruction.inj heq).2
        exact .inl fun c hc => by cases (block_of_closeBlock ha).symm.trans hc
      · exact .inr h
  | @included stack file x ds d start inside left d' i hs _ hleft _ inFile inRest =>
    cases hs
    obtain ⟨rfl, -⟩ := feed_leave_ok hleft
    have hopened : ∀ l ∈ outer, l ∈ i.opened := fun l hl => List.mem_append_left _ (hstack l hl)
    have hfresh : i.location ∉ outer := fun hm => i.fresh (hstack _ hm)
    refine inRest hstack hfile hp hl ?_
    rcases h with h | h
    · exact .inl (inFile hopened rfl i.located hfresh (.inl h))
    · rw [i.events, List.cons_append, Event.hasEnd_cons_iff, Event.hasEnd_append_iff,
        Event.hasEnd_cons_iff] at h
      rcases h with ⟨_, heq⟩ | h | ⟨_, heq⟩ | h
      · cases heq
      · exact .inl (inFile hopened rfl i.located hfresh (.inr h))
      · cases heq
      · exact .inr h

/-! ## An INCLUDE as a whole -/

/-- What an included file with these events makes of the block that is open around it. -/
structure AroundFile (src : Sources) (stack : List Location) (events : List Event)
    (d d' : Draft) : Prop where
  /-- The file leaves no block of its own open. -/
  closed : d.block = none → d'.block = none
  /-- The block that is open behind the file counts as the one that was open before it. -/
  line : ∀ b c, d.block = some b → d'.block = some c → (b.line == c.line) = true
  /-- Without an END it is that block, with more steps. -/
  kept : ∀ b, d.block = some b → ¬Event.HasEnd events → d.KeepsBlock d' b
  /-- With an END no block is open, if the block was opened in a file that is open. -/
  ended : ∀ b, d.block = some b → Event.HasEnd events → b.line.IsWithin src stack → d'.block = none

theorem aroundFile {x : Directive} (i : Inclusion src stack file x) {start inside : Draft}
    (hs : d.feed .enter = .ok start)
    (hr : Reads src registry i.opened (some i.path) (i.directives registry) start inside)
    (hl : inside.feed .leave = .ok d') :
    AroundFile src stack
      (Event.ofDirectives src registry i.opened (some i.path) (i.directives registry)) d d' := by
  have hentered := hr.entered
  cases hs
  obtain ⟨rfl, hcheck⟩ := feed_leave_ok hl
  have hline (c : OpenBlock) (hc : inside.block = some c) :
      (d.block.map (·.line) == some c.line) = true := by
    have h := hcheck c hc
    rwa [hentered] at h
  have hlines (b c : OpenBlock) (hb : d.block = some b) (hc : inside.block = some c) :
      (b.line == c.line) = true := by
    have h := hline c hc
    rwa [hb] at h
  refine ⟨fun hb => ?_, hlines, fun b hb hno => ?_, fun b hb hend hwithin => ?_⟩
  · cases hc : inside.block with
    | none => rfl
    | some c =>
      have h := hline c hc
      rw [hb] at h
      cases h
  · have hkept : KeepsBlock { d with entered := d.block.map (·.line) :: d.entered } inside b :=
      run_keepsBlock hb hno hr.run
    exact hkept
  · cases hc : inside.block with
    | none => rfl
    | some c =>
      have houtside : inside.OpenOutside src stack :=
        hr.openOutside (fun l hl => List.mem_append_left _ hl) rfl i.located i.fresh (.inr hend)
      exact absurd (hlines b c hb hc) ((houtside c hc).not_beq hwithin)

/-- On a compile the block that is open was opened in a file that is open: the compiler opens it at
the line that it reads, and a file that is included gives back the block or no block. -/
theorem Reads.within (hr : Reads src registry stack file ds d d')
    (hfile : ∀ p, file = some p → ∃ l ∈ stack, src.locate p = .ok l)
    (h : ∀ b, d.block = some b → b.line.IsWithin src stack) :
    ∀ b, d'.block = some b → b.line.IsWithin src stack := by
  induction hr with
  | done => exact h
  | @plain stack file x ds i d next d' hx hno ha _ ih =>
    refine ih hfile fun c hc => ?_
    rcases apply_block_line ha hc with hopened | ⟨b, hb, hopened⟩ <;> rw [hopened]
    · exact hfile
    · exact h b hb
  | @included stack file x ds d start inside left d' i hs hr hl _ _ ih =>
    have haround := aroundFile i hs hr hl
    refine ih hfile fun c hc => ?_
    cases hb : d.block with
    | none => cases (haround.closed hb).symm.trans hc
    | some b =>
      by_cases hend : Event.HasEnd
          (Event.ofDirectives src registry i.opened (some i.path) (i.directives registry))
      · cases (haround.ended b hb hend (h b hb)).symm.trans hc
      · obtain ⟨steps, hblock, -, -⟩ := haround.kept b hb hend
        cases hblock.symm.trans hc
        exact h b hb

/-- An INCLUDE that succeeds, of any draft: no block is open behind it that was not open before it,
a block that was open before it is the open one if no END is among the events of the file, and
is closed if one is. -/
theorem include_block {x : Directive} {target : Text}
    (hx : x.instruction file = .ok (.includeFile target))
    (h : d.run (Event.ofDirectives src registry stack file [x]) = .ok d') :
    ∃ i : Inclusion src stack file x, AroundFile src stack
      (Event.ofDirectives src registry i.opened (some i.path) (i.directives registry)) d d' := by
  cases reads_of_run h with
  | plain hx' hno => exact absurd (Except.ok.inj (hx'.symm.trans hx)) (hno target)
  | included i hs hr hl hrest =>
    cases hrest
    exact ⟨i, aroundFile i hs hr hl⟩

/-- A step with a block that is open. -/
def halved : Draft :=
  { steps := [.run { command := "make".toList } [] []], block := some ⟨.onFailure, [], ⟨none, 2⟩⟩ }

/-- A file that ends a block before its step. -/
def ending : FileSystem :=
  ⟨[], [(["b".toList], .file (Text.toBytes "END\nPROMPT after".toList))], [], []⟩

/-- The INCLUDE succeeds, and no block is open behind it. -/
theorem included_end_closes_block : ∃ d', halved.run (Event.ofDirectives ending .empty [] none
      [⟨.builtin .includeFile, "b".toList, 3⟩]) = .ok d' ∧
    halved.block.isSome = true ∧ d'.block = none := by
  have hincluded : Directive.ofDocument .empty "END\nPROMPT after".toList =
      [⟨.builtin .endBlock, [], 1⟩, ⟨.builtin .prompt, "after".toList, 2⟩] := rfl
  have htext : ending.textAt ["b".toList] = .ok "END\nPROMPT after".toList := rfl
  let i : Inclusion ending [] none ⟨.builtin .includeFile, "b".toList, 3⟩ :=
    ⟨"b".toList, ["b".toList], _, rfl, rfl, List.not_mem_nil, htext⟩
  have hevents : Event.ofDirectives ending .empty i.opened (some i.path) (i.directives .empty) =
      [.instruction ⟨some i.path, 1⟩ .closeBlock,
        .instruction ⟨some i.path, 2⟩ (.step (.prompt "after".toList) id)] := by
    unfold Inclusion.directives
    rw [hincluded]
    iterate 2 rw [Event.ofDirectives_plain rfl fun _ => Instruction.noConfusion]
    rw [Event.ofDirectives]
  have hrun : halved.run (Event.ofDirectives ending .empty [] none
      [⟨.builtin .includeFile, "b".toList, 3⟩]) = .ok { steps :=
        [.run { command := "make".toList } [] [], .prompt "after".toList] } := by
    rw [i.events, hevents, Event.ofDirectives]
    rfl
  obtain ⟨j, haround⟩ := include_block rfl hrun
  obtain rfl := j.unique i
  rw [hevents] at haround
  have hclosed := haround.ended _ rfl ⟨_, List.mem_cons_self⟩ fun p hp => by cases hp
  exact ⟨_, hrun, rfl, hclosed⟩

end Draft

end ConversationFlow

import ConversationFlow.Proofs.Compilation.Balance

/-!
# Blocks that are declared twice

A block may be declared once for a step. The compiler has no note of a declaration but the steps
that it left with its owner, so a second one is refused if the first holds a step, and taken if it
holds none: changes of settings, pauses and marks of files leave nothing there. Values that are
refused inside a block, and a block that is open at the second declaration, are errors of their own
and are not looked at.
-/

namespace ConversationFlow

namespace Event

/-- Some directive among the events gives a step. -/
def HasStep (events : List Event) : Prop :=
  ∃ line s change, .instruction line (.step s change) ∈ events

/-- A block of this kind is opened among the events. -/
def HasOpening (kind : BlockKind) (events : List Event) : Prop :=
  ∃ line, .instruction line (.openBlock kind) ∈ events

end Event

/-! ## The blocks that steps are given to -/

namespace Placement

variable {p : Placement} {kind : BlockKind}

theorem steps_prefix (p : Placement) (events : List Event) (l : StepList) :
    p.steps l <+: (events.foldl feed p).steps l :=
  ((given_foldl p events).filter _).map _

theorem steps_give_block (h : p.openBlock ≠ some kind) (s : Step) (owner : Nat) :
    (p.give s).steps (.block owner kind) = p.steps (.block owner kind) := by
  have hnext : p.next ≠ .block owner kind := by
    unfold next
    cases ho : p.openBlock with
    | none => exact StepList.noConfusion
    | some other =>
      rintro he
      exact h (ho.trans (congrArg some (StepList.block.inj he).2))
  rw [steps_give, if_neg hnext, List.append_nil]

/-- One event gives no step to the blocks of a kind, if none is open and it opens none. -/
theorem feed_spares_blocks {e : Event} (h : p.openBlock ≠ some kind)
    (he : ∀ line, e ≠ .instruction line (.openBlock kind)) :
    (p.feed e).openBlock ≠ some kind ∧
      ∀ owner, (p.feed e).steps (.block owner kind) = p.steps (.block owner kind) := by
  cases e with
  | instruction line i =>
    cases i with
    | step s change => exact ⟨h, steps_give_block h s⟩
    | human consult message =>
      unfold feed read
      dsimp only
      split
      · exact ⟨h, steps_give_block h _⟩
      · exact ⟨h, fun _ => rfl⟩
    | openBlock other =>
      refine ⟨fun ho => he line ?_, fun _ => rfl⟩
      rw [Option.some.inj ho]
    | closeBlock => exact ⟨nofun, fun _ => rfl⟩
    | _ => exact ⟨h, fun _ => rfl⟩
  | _ => exact ⟨h, fun _ => rfl⟩

/-- Steps go to blocks of a kind only where such a block is opened before. -/
theorem steps_block_of_no_opening {events : List Event} (h : p.openBlock ≠ some kind)
    (hno : ¬Event.HasOpening kind events) (owner : Nat) :
    (events.foldl feed p).steps (.block owner kind) = p.steps (.block owner kind) := by
  induction events generalizing p with
  | nil => rfl
  | cons e events ih =>
    have he : ∀ line, e ≠ .instruction line (.openBlock kind) := by
      rintro line rfl
      exact hno ⟨line, List.mem_cons_self⟩
    have hrest : ¬Event.HasOpening kind events := by
      rintro ⟨line, hl⟩
      exact hno ⟨line, List.mem_cons_of_mem e hl⟩
    obtain ⟨hopen, hsteps⟩ := feed_spares_blocks h he
    rw [List.foldl_cons, ih hopen hrest, hsteps]

end Placement

namespace Step

theorem canOwnBlocks_bare (s : Step) : s.bare.canOwnBlocks = s.canOwnBlocks := by
  cases s <;> rfl

end Step

namespace Draft

variable {d d' : Draft} {kind : BlockKind} {line first close : SourceLine}
  {events inside : List Event} {before : List Step} {owner : Step}

/-! ## One declaration -/

/-- A block that is empty stays so without a step directive: a pause gives no step in it, as no
ELIDE is there, and retries have no command there. -/
theorem run_empty_block (hb : d.block = some ⟨kind, [], first⟩) (hend : ¬Event.HasEnd events)
    (hstep : ¬Event.HasStep events) (h : d.run events = .ok d') :
    d'.block = some ⟨kind, [], first⟩ := by
  refine run_keeps (P := fun e => e.block = some ⟨kind, [], first⟩) (fun _ _ he => he) ?_ hb h
  intro e e' line i hmem hb ha
  have htarget : e.target = [] := target_some hb
  cases i with
  | configure change | includeFile target =>
    cases ha
    exact hb
  | prologue text | epilogue text =>
    simp only [apply] at ha
    split at ha <;> cases ha <;> exact hb
  | step s change => exact absurd ⟨line, s, change, hmem⟩ hstep
  | retry count prompt =>
    obtain ⟨before, c, f, s, ht, -⟩ := retry_ok ha
    rw [htarget] at ht
    exact absurd ht.symm (List.append_ne_nil_of_right_ne_nil before (List.cons_ne_nil _ []))
  | human consult message =>
    cases ha
    unfold human
    rw [htarget, List.getLast?_nil, Option.any_none, if_neg Bool.false_ne_true]
    cases consult <;> exact hb
  | openBlock other =>
    obtain ⟨hnone, -⟩ := openBlock_ok ha
    cases hb.symm.trans hnone
  | closeBlock => exact absurd ⟨line, hmem⟩ hend

/-- The open block has steps behind a step directive. -/
theorem run_block_ne_nil {b : OpenBlock} (hb : d.block = some b) (hend : ¬Event.HasEnd events)
    (hstep : Event.HasStep events) (h : d.run events = .ok d') :
    ∃ steps, d'.block = some { b with steps } ∧ steps ≠ [] := by
  obtain ⟨line, s, change, hmem⟩ := hstep
  obtain ⟨earlier, later, rfl⟩ := List.append_of_mem hmem
  rw [Event.hasEnd_append_iff, Event.hasEnd_cons_iff, not_or, not_or] at hend
  obtain ⟨e, hearlier, h⟩ := run_append_ok h
  obtain ⟨steps, hopen, -, -⟩ := run_keepsBlock hb hend.1 hearlier
  obtain ⟨next, hf, hlater⟩ := run_cons_ok h
  cases feed_instruction_ok hf
  have hpush := block_push (d := { e with settings := change e.settings }) hopen s
  obtain ⟨more, hblock, -, hprefix⟩ := run_keepsBlock hpush hend.2.2 hlater
  refine ⟨more, hblock, ?_⟩
  rintro rfl
  have hlength := hprefix.length_le
  rw [List.length_map, List.length_append] at hlength
  cases hlength

theorem Holds.blockOf_last {p : Placement} (h : d.Holds p) (hb : d.block = none)
    (hs : d.steps = before ++ [owner]) (kind : BlockKind) :
    (blockOf kind owner).map Step.bare = p.steps (.block before.length kind) := by
  rw [← h.lists_steps hb, hs, StepList.of_concat, if_pos rfl]

/-- The last step stays in its place while no step is given to the list outside blocks; only its
retries and its blocks may change. -/
theorem Holds.last_of_top {p q : Placement} (h : d.Holds p) (h' : d'.Holds q)
    (hb : d.block = none) (hb' : d'.block = none) (htop : q.steps .top = p.steps .top)
    (hs : d.steps = before ++ [owner]) :
    ∃ before' last, d'.steps = before' ++ [last] ∧ before'.length = before.length ∧
      last.bare = owner.bare := by
  have hbare : d'.steps.map Step.bare = d.steps.map Step.bare :=
    (h'.lists_steps hb' .top).trans (htop.trans (h.lists_steps hb .top).symm)
  rw [hs, List.map_append, List.map_singleton, List.map_eq_append_iff] at hbare
  obtain ⟨before', rest, hs', hmap, hrest⟩ := hbare
  obtain ⟨last, rfl, hlast⟩ := List.map_eq_singleton_iff.mp hrest
  exact ⟨before', last, hs', by rw [← List.length_map Step.bare, hmap, List.length_map], hlast⟩

/-- A declaration that is taken gives the last step a block, which is empty if there is no step
directive in it. -/
theorem run_declaration (hend : ¬Event.HasEnd inside)
    (h : d.run (.instruction first (.openBlock kind) ::
      (inside ++ [.instruction close .closeBlock])) = .ok d') :
    d.block = none ∧ d'.block = none ∧ ∃ before owner steps, d.steps = before ++ [owner] ∧
      owner.canOwnBlocks = true ∧ d'.steps = before ++ [attach kind steps owner] ∧
      (steps = [] ↔ ¬Event.HasStep inside) := by
  obtain ⟨opened, hopen, h⟩ := run_cons_ok h
  obtain ⟨hnone, rfl, before, owner, hs, hown, -⟩ := openBlock_ok (feed_instruction_ok hopen)
  obtain ⟨filled, hinside, h⟩ := run_append_ok h
  obtain ⟨steps, hblock, hsteps, -⟩ := run_keepsBlock rfl hend hinside
  have hempty : steps = [] ↔ ¬Event.HasStep inside := by
    constructor
    · rintro rfl hstep
      obtain ⟨steps, hfull, hne⟩ := run_block_ne_nil rfl hend hstep hinside
      cases hblock.symm.trans hfull
      exact hne rfl
    · intro hstep
      cases hblock.symm.trans (run_empty_block rfl hend hstep hinside)
      rfl
  obtain ⟨next, hclose, hnil⟩ := run_cons_ok h
  cases hnil
  obtain ⟨b, hb, hclosed⟩ := closeBlock_ok (feed_instruction_ok hclose)
  cases hblock.symm.trans hb
  rcases hclosed with ⟨before', owner', hs', rfl⟩ | ⟨hs', -⟩
  · obtain ⟨rfl, he⟩ := List.append_inj' (hs.symm.trans (hsteps.symm.trans hs')) rfl
    cases he
    exact ⟨hnone, rfl, before, owner, steps, hs, hown, rfl, hempty⟩
  · exact absurd (hs.symm.trans (hsteps.symm.trans hs'))
      (List.append_ne_nil_of_right_ne_nil before (List.cons_ne_nil owner []))

end Draft

/-! ## Two declarations -/

/-- A block that is opened, and closed by the next END. -/
structure Declaration where
  kind : BlockKind
  first : SourceLine
  inside : List Event
  close : SourceLine
  ended : ¬Event.HasEnd inside

def Declaration.events (b : Declaration) : List Event :=
  .instruction b.first (.openBlock b.kind) :: (b.inside ++ [.instruction b.close .closeBlock])

/-- A stream in which a block is declared and then opened again for the same step: no block is
open there, and no step was given to the list outside blocks in between. -/
structure Redeclaration where
  before : List Event
  declaration : Declaration
  between : List Event
  second : SourceLine
  after : List Event
  shut : (Placement.ofEvents (before ++ (declaration.events ++ between))).openBlock = none
  same : (Placement.ofEvents (before ++ (declaration.events ++ between))).steps .top =
    (Placement.ofEvents before).steps .top

namespace Redeclaration

variable {src : Sources} {registry : Registry} {stack : List Location} {file : Option Path}
  {ds : List Directive} {d : Draft}

/-- The events up to the second declaration. -/
def earlier (r : Redeclaration) : List Event := r.before ++ (r.declaration.events ++ r.between)

def events (r : Redeclaration) : List Event :=
  r.earlier ++ .instruction r.second (.openBlock r.declaration.kind) :: r.after

/-- At the second declaration no block is open, and the block of the last step has steps if there
is a step directive in the first declaration, and only then if no other block of the kind is opened
in between. -/
theorem block_at_second (r : Redeclaration)
    (hbare : ∀ line i, .instruction line i ∈ r.earlier → i.GivesBare)
    (h : Draft.run {} r.earlier = .ok d) :
    d.block = none ∧ ∃ before owner, d.steps = before ++ [owner] ∧ owner.canOwnBlocks = true ∧
      (Event.HasStep r.declaration.inside → Draft.blockOf r.declaration.kind owner ≠ []) ∧
      (¬Event.HasStep r.declaration.inside → ¬Event.HasOpening r.declaration.kind r.between →
        Draft.blockOf r.declaration.kind owner = []) := by
  obtain ⟨start, hbefore, h⟩ := Draft.run_append_ok h
  obtain ⟨declared, hdeclared, hbetween⟩ := Draft.run_append_ok h
  obtain ⟨hstart, hclosed, before, owner, steps, hs, hown, hattached, hsteps⟩ :=
    Draft.run_declaration r.declaration.ended hdeclared
  -- What the lists hold before the first declaration, behind it, and at the second one.
  have hearlier : Placement.ofEvents r.earlier = r.between.foldl Placement.feed
      (Placement.ofEvents (r.before ++ r.declaration.events)) := by
    unfold earlier
    rw [← List.append_assoc, Placement.ofEvents_append]
  have hp : start.Holds (Placement.ofEvents r.before) := Draft.holds_start.run
    (fun line i hm => hbare line i (List.mem_append_left _ hm)) hbefore
  have hq : declared.Holds (Placement.ofEvents (r.before ++ r.declaration.events)) := by
    rw [Placement.ofEvents_append]
    exact hp.run (fun line i hm =>
      hbare line i (List.mem_append_right _ (List.mem_append_left _ hm))) hdeclared
  have hr : d.Holds (Placement.ofEvents r.earlier) := by
    rw [hearlier]
    exact hq.run (fun line i hm =>
      hbare line i (List.mem_append_right _ (List.mem_append_right _ hm))) hbetween
  have hshut : d.block = none := Option.map_eq_none_iff.mp (hr.opened.trans r.shut)
  obtain ⟨before', last, hs', hlength, hlast⟩ := hp.last_of_top hr hstart hshut r.same hs
  refine ⟨hshut, before', last, hs', ?_, ?_⟩
  · rw [← Step.canOwnBlocks_bare, hlast, Step.canOwnBlocks_bare]
    exact hown
  have hgiven := hq.blockOf_last hclosed hattached r.declaration.kind
  rw [Draft.blockOf_attach hown, if_pos rfl] at hgiven
  have hblock := hr.blockOf_last hshut hs' r.declaration.kind
  rw [hlength] at hblock
  constructor
  · intro hstep hnil
    have hprefix := Placement.steps_prefix (Placement.ofEvents (r.before ++ r.declaration.events))
      r.between (.block before.length r.declaration.kind)
    rw [← hearlier, ← hgiven, ← hblock, hnil] at hprefix
    exact hsteps.mp (List.map_eq_nil_iff.mp (List.prefix_nil.mp hprefix)) hstep
  · intro hstep hno
    have hopened : (Placement.ofEvents (r.before ++ r.declaration.events)).openBlock ≠
        some r.declaration.kind := by
      rw [← hq.opened, hclosed]
      exact nofun
    refine List.map_eq_nil_iff.mp (hblock.trans ?_)
    rw [hearlier, Placement.steps_block_of_no_opening hopened hno, ← hgiven, hsteps.mpr hstep]
    rfl

/-- The second declaration is refused if a step directive is in the first one, which is the end of
every such compilation; if none is there, and no other block of the kind is opened in between, the
compilation goes on with the second block open. What goes wrong earlier is the result. -/
theorem empty_declaration_is_forgotten (r : Redeclaration)
    (h : Event.ofDirectives src registry stack file ds = r.events) (source : Option Path) :
    (∀ e, Draft.run {} r.earlier = .error e → Compiled.ofEvents source r.events = .error e) ∧
      ∀ d, Draft.run {} r.earlier = .ok d →
        (Event.HasStep r.declaration.inside → Compiled.ofEvents source r.events =
          .error (.parse (.duplicateBlock r.second r.declaration.kind))) ∧
        (¬Event.HasStep r.declaration.inside → ¬Event.HasOpening r.declaration.kind r.between →
          Compiled.ofEvents source r.events =
            (Draft.run { d with block := some ⟨r.declaration.kind, [], r.second⟩ } r.after).bind
              (·.finish source)) := by
  have hbare : ∀ line i, .instruction line i ∈ r.earlier → i.GivesBare := by
    intro line i hm
    have hin : .instruction line i ∈ r.events := List.mem_append_left _ hm
    rw [← h] at hin
    exact Event.givesBare_of_mem hin
  refine ⟨fun e he => ?_, fun d hd => ?_⟩
  · unfold Compiled.ofEvents events Draft.run
    rw [List.foldlM_append, show r.earlier.foldlM Draft.feed {} = .error e from he]
    rfl
  obtain ⟨hb, before, owner, hs, hown, hfull, hempty⟩ := r.block_at_second hbare hd
  have hopen := Draft.openBlock_eq hb hs hown r.second r.declaration.kind
  have hrun : Draft.run {} r.events =
      (d.feed (.instruction r.second (.openBlock r.declaration.kind))).bind (·.run r.after) := by
    unfold events
    rw [Draft.run_append_of_ok hd]
    rfl
  unfold Compiled.ofEvents
  rw [hrun]
  constructor
  · intro hstep
    rw [if_neg (hfull hstep)] at hopen
    simp only [Draft.feed, Draft.apply, hopen]
    rfl
  · intro hstep hno
    rw [if_pos (hempty hstep hno)] at hopen
    simp only [Draft.feed, Draft.apply, hopen]
    rfl

/-- An empty block behind a command, and a block of the same kind with a step. -/
def emptyFirst : Redeclaration where
  before := [.instruction ⟨none, 1⟩ (.step (.run { command := "a".toList } [] []) id)]
  declaration := ⟨.onFailure, ⟨none, 2⟩, [], ⟨none, 3⟩, by rintro ⟨_, h⟩; cases h⟩
  between := []
  second := ⟨none, 4⟩
  after := [.instruction ⟨none, 5⟩ (.step (.prompt "fix".toList) id),
    .instruction ⟨none, 6⟩ .closeBlock]
  shut := rfl
  same := rfl

/-- The text with both declarations compiles, and the command has the block of the second one. -/
theorem second_declaration_is_taken : Compiled.ofText FileSystem.empty .empty
    "RUN a\nON-FAILURE\nEND\nON-FAILURE\nPROMPT fix\nEND".toList =
      .ok ⟨{}, [.run { command := "a".toList } [.prompt "fix".toList] []], none⟩ := by
  have hdoc : Directive.ofDocument .empty
      "RUN a\nON-FAILURE\nEND\nON-FAILURE\nPROMPT fix\nEND".toList =
        [⟨.builtin .run, "a".toList, 1⟩, ⟨.builtin .onFailure, [], 2⟩, ⟨.builtin .endBlock, [], 3⟩,
          ⟨.builtin .onFailure, [], 4⟩, ⟨.builtin .prompt, "fix".toList, 5⟩,
          ⟨.builtin .endBlock, [], 6⟩] := rfl
  have hevents : Event.ofDirectives FileSystem.empty .empty [] none (Directive.ofDocument .empty
      "RUN a\nON-FAILURE\nEND\nON-FAILURE\nPROMPT fix\nEND".toList) = emptyFirst.events := by
    rw [hdoc]
    iterate 6 rw [Event.ofDirectives_plain rfl fun _ => Instruction.noConfusion]
    rw [Event.ofDirectives]
    rfl
  have hno : ¬Event.HasStep emptyFirst.declaration.inside := by
    rintro ⟨_, _, _, h⟩
    cases h
  have hnone : ¬Event.HasOpening emptyFirst.declaration.kind emptyFirst.between := by
    rintro ⟨_, h⟩
    cases h
  unfold Compiled.ofText
  rw [hevents, ((empty_declaration_is_forgotten emptyFirst hevents none).2 _ rfl).2 hno hnone]
  rfl

end Redeclaration

end ConversationFlow

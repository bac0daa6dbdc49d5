import ConversationFlow.Proofs.Compilation.Drafts
import Mathlib.Data.List.Basic

/-!
# The lists of a compiled conversation

A conversation has one list of steps outside blocks and two for each of these steps. Every
directive that gives a step gives it to one of the lists: to that outside blocks, or, while a block
is open, to that block of the last step outside blocks. `Placement` follows the stream of
directives and notes which step goes to which list; it changes and drops nothing that it noted. The
lists of the compiled conversation hold just that, each in the order of the stream. Retries are not
looked at.
-/

namespace ConversationFlow

/-- A list of steps in a conversation: that outside blocks, or a block of one of its steps. -/
inductive StepList where
  | top
  | block (owner : Nat) (kind : BlockKind)
deriving DecidableEq

/-- The steps that stand in a list. -/
def StepList.of (steps : List Step) : StepList → List Step
  | .top => steps
  | .block owner kind => (steps[owner]?.map (Draft.blockOf kind)).getD []

/-- What the directives so far give: every step with its list, and the block that is open. -/
structure Placement where
  given : List (StepList × Step) := []
  openBlock : Option BlockKind := none

namespace Placement

/-- The steps that were given to a list, in order. -/
def steps (p : Placement) (l : StepList) : List Step :=
  (p.given.filter fun e => e.1 = l).map (·.2)

/-- The list that the next step goes to. -/
def next (p : Placement) : StepList :=
  match p.openBlock with
  | none => .top
  | some kind => .block ((p.steps .top).length - 1) kind

def give (p : Placement) (s : Step) : Placement := { p with given := p.given ++ [(p.next, s)] }

/-- Every step directive gives its step; a pause and a consultation give one directly after ELIDE. -/
def read (p : Placement) : Instruction → Placement
  | .step s _ => p.give s
  | .human consult message =>
    if (p.steps p.next).getLast?.any Step.isElide then
      p.give (if consult then .consult message else .pause message)
    else p
  | .openBlock kind => { p with openBlock := some kind }
  | .closeBlock => { p with openBlock := none }
  | _ => p

def feed (p : Placement) : Event → Placement
  | .instruction _ i => p.read i
  | _ => p

def ofEvents (events : List Event) : Placement := events.foldl feed {}

theorem given_give (p : Placement) (s : Step) : (p.give s).given = p.given ++ [(p.next, s)] := rfl

theorem steps_give (p : Placement) (s : Step) (l : StepList) :
    (p.give s).steps l = p.steps l ++ if p.next = l then [s] else [] := by
  unfold steps give
  rw [List.filter_append, List.map_append]
  congr 1
  by_cases h : p.next = l
  · rw [if_pos h, List.filter_cons, if_pos (decide_eq_true h)]
    rfl
  · rw [if_neg h, List.filter_cons, if_neg (by simpa using h)]
    rfl

/-- A step that is given does not move the place of the next one. -/
theorem next_give (p : Placement) (s : Step) : (p.give s).next = p.next := by
  have hopen : (p.give s).openBlock = p.openBlock := rfl
  unfold next
  rw [hopen]
  cases ho : p.openBlock with
  | none => rfl
  | some kind =>
    have hne : p.next ≠ .top := by
      unfold next
      rw [ho]
      exact StepList.noConfusion
    dsimp only
    rw [steps_give, if_neg hne, List.append_nil]

theorem read_human_after_elide (p : Placement) (consult : Bool) (message : Text) :
    (p.give .elide).read (.human consult message) =
      (p.give .elide).give (if consult then .consult message else .pause message) := by
  unfold read
  rw [next_give, steps_give, if_pos rfl, List.getLast?_concat]
  exact if_pos rfl

/-! ### What is given stays given -/

theorem given_feed (p : Placement) (e : Event) : p.given <+: (p.feed e).given := by
  cases e with
  | instruction line i =>
    cases i with
    | step s change => exact List.prefix_append _ _
    | human consult message =>
      unfold feed read
      dsimp only
      split
      · exact List.prefix_append _ _
      · exact List.prefix_refl _
    | _ => exact List.prefix_refl _
  | _ => exact List.prefix_refl _

theorem given_foldl (p : Placement) (events : List Event) :
    p.given <+: (events.foldl feed p).given := by
  induction events generalizing p with
  | nil => exact List.prefix_refl _
  | cons e events ih => exact (p.given_feed e).trans (ih (p.feed e))

theorem ofEvents_append (before after : List Event) :
    ofEvents (before ++ after) = after.foldl feed (ofEvents before) := List.foldl_append

/-- Every step directive gives one step, and it is the next to be given. -/
theorem given_step (before after : List Event) (line : SourceLine) (s : Step)
    (change : Settings → Settings) :
    (ofEvents before).given ++ [((ofEvents before).next, s)] <+:
      (ofEvents (before ++ .instruction line (.step s change) :: after)).given := by
  rw [ofEvents_append, List.foldl_cons]
  exact given_foldl ((ofEvents before).give s) after

/-- Marks of files give nothing. -/
theorem foldl_marks {marks : List Event} (h : ∀ e ∈ marks, e = .enter ∨ e = .leave)
    (p : Placement) : marks.foldl feed p = p := by
  induction marks generalizing p with
  | nil => rfl
  | cons e marks ih =>
    rw [List.foldl_cons, ih fun e he => h e (List.mem_cons_of_mem _ he)]
    rcases h e List.mem_cons_self with rfl | rfl <;> rfl

/-- A pause or a consultation directly after ELIDE gives one step, to the list of the ELIDE. -/
theorem given_human (before after : List Event) {marks : List Event}
    (h : ∀ e ∈ marks, e = .enter ∨ e = .leave) (line line' : SourceLine)
    (change : Settings → Settings) (consult : Bool) (message : Text) :
    (ofEvents before).given ++ [((ofEvents before).next, .elide),
        ((ofEvents before).next, if consult then .consult message else .pause message)] <+:
      (ofEvents (before ++ .instruction line (.step .elide change) ::
        (marks ++ .instruction line' (.human consult message) :: after))).given := by
  rw [ofEvents_append, List.foldl_cons, List.foldl_append, foldl_marks h, List.foldl_cons]
  have hread : feed (feed (ofEvents before) (.instruction line (.step .elide change)))
      (.instruction line' (.human consult message)) =
        ((ofEvents before).give .elide).give
          (if consult then .consult message else .pause message) :=
    read_human_after_elide (ofEvents before) consult message
  have hgiven : (((ofEvents before).give .elide).give
      (if consult then .consult message else .pause message)).given =
        (ofEvents before).given ++ [((ofEvents before).next, .elide),
          ((ofEvents before).next, if consult then .consult message else .pause message)] := by
    rw [given_give, next_give, given_give, List.append_assoc]
    rfl
  rw [hread, ← hgiven]
  exact given_foldl _ after

end Placement

/-! ## Steps as their directives give them -/

theorem Step.isElide_bare (s : Step) : s.bare.isElide = s.isElide := by
  cases s <;> rfl

/-- The step of a directive has no retries and no blocks. -/
def Instruction.GivesBare : Instruction → Prop
  | .step s _ => s.bare = s
  | _ => True

theorem Instruction.SaidBy.givesBare {n : DirectiveName} {i : Instruction} (h : i.SaidBy n) :
    i.GivesBare := by
  cases i with
  | step s change => exact h.1
  | _ => trivial

theorem Event.givesBare_of_mem {src : Sources} {registry : Registry} {stack : List Location}
    {file : Option Path} {ds : List Directive} {line : SourceLine} {i : Instruction}
    (h : .instruction line i ∈ ofDirectives src registry stack file ds) : i.GivesBare := by
  obtain ⟨_, d, hd, -⟩ := instruction_of_mem h
  exact (Directive.instruction_saidBy hd).givesBare

/-! ## The last step and its blocks -/

namespace StepList

variable {before : List Step} {s : Step}

/-- The lists of steps that end with a step. -/
theorem of_concat (kind : BlockKind) (owner : Nat) :
    StepList.of (before ++ [s]) (.block owner kind) =
      if owner = before.length then Draft.blockOf kind s
      else StepList.of before (.block owner kind) := by
  unfold StepList.of
  dsimp only
  split
  · next h => rw [h, List.getElem?_concat_length]; rfl
  · next h =>
    rcases Nat.lt_or_gt_of_ne h with hlt | hgt
    · rw [List.getElem?_append_left hlt]
    · rw [List.getElem?_eq_none (Nat.le_of_lt hgt), List.getElem?_eq_none]
      rw [List.length_append]
      exact hgt

end StepList

namespace Draft

variable {before : List Step} {s : Step}

theorem blockOf_of_bare (h : s.bare = s) (kind : BlockKind) : blockOf kind s = [] := by
  cases s with
  | run c f t =>
    obtain ⟨-, rfl, rfl⟩ := Step.run.inj h
    cases kind <;> rfl
  | verify c f t =>
    obtain ⟨-, rfl, rfl⟩ := Step.verify.inj h
    cases kind <;> rfl
  | _ => cases kind <;> rfl

theorem bare_attach (kind : BlockKind) (block : List Step) :
    (attach kind block s).bare = s.bare := by
  cases s with
  | run c f t | verify c f t => cases kind <;> rfl
  | _ => rfl

theorem blockOf_attach {kind : BlockKind} {block : List Step} (h : s.canOwnBlocks = true)
    (other : BlockKind) :
    blockOf other (attach kind block s) = if other = kind then block else blockOf other s := by
  cases s with
  | run c f t | verify c f t => cases kind <;> cases other <;> rfl
  | _ => cases h

/-- The steps outside blocks as they are when the open block ends here. -/
def whole (d : Draft) : List Step :=
  match d.block, d.steps.getLast? with
  | some b, some owner => d.steps.dropLast ++ [attach b.kind b.steps owner]
  | _, _ => d.steps

/-- The lists of a draft hold what was given to them, and the open block is one that its owner may
have and does not have yet. -/
structure Holds (d : Draft) (p : Placement) : Prop where
  lists : ∀ l : StepList, (l.of d.whole).map Step.bare = p.steps l
  opened : d.block.map (·.kind) = p.openBlock
  owner : ∀ b, d.block = some b → ∃ before owner, d.steps = before ++ [owner] ∧
    owner.canOwnBlocks = true ∧ blockOf b.kind owner = []

theorem holds_start : Holds {} {} where
  lists l := by cases l <;> rfl
  opened := rfl
  owner b h := by cases h

theorem whole_none {d : Draft} (h : d.block = none) : d.whole = d.steps := by
  unfold whole
  rw [h]

theorem whole_some {d : Draft} {b : OpenBlock} {owner : Step} (h : d.block = some b)
    (hs : d.steps = before ++ [owner]) : d.whole = before ++ [attach b.kind b.steps owner] := by
  unfold whole
  rw [h, hs, List.getLast?_concat, List.dropLast_concat]

namespace Holds

variable {d d' : Draft} {p : Placement}

/-- Where no block is open, the lists are those of the steps. -/
theorem lists_steps (h : d.Holds p) (hb : d.block = none) (l : StepList) :
    (l.of d.steps).map Step.bare = p.steps l := by
  rw [← h.lists, whole_none hb]

theorem next_none (h : d.Holds p) (hb : d.block = none) : p.next = .top := by
  unfold Placement.next
  rw [← h.opened, hb]
  rfl

theorem next_some (h : d.Holds p) {b : OpenBlock} {owner : Step} (hb : d.block = some b)
    (hs : d.steps = before ++ [owner]) : p.next = .block before.length b.kind := by
  have hlength : (p.steps .top).length = before.length + 1 := by
    rw [← h.lists .top, List.length_map, StepList.of, whole_some hb hs, List.length_append]
    rfl
  unfold Placement.next
  rw [← h.opened, hb, Option.map_some, hlength, Nat.add_sub_cancel]

/-- The next step goes where the placement says. -/
theorem target_eq (h : d.Holds p) : d.target.map Step.bare = p.steps p.next := by
  rw [← h.lists]
  unfold target
  cases hb : d.block with
  | none =>
    rw [h.next_none hb, whole_none hb]
    rfl
  | some b =>
    obtain ⟨before, owner, hs, hown, -⟩ := h.owner b hb
    rw [h.next_some hb hs, whole_some hb hs, StepList.of_concat, if_pos rfl, blockOf_attach hown,
      if_pos rfl]

/-- Other steps in the place where the next step goes, which leave the blocks there as they are. -/
theorem withTarget (h : d.Holds p) {steps : List Step} {q : Placement}
    (hblocks : ∀ owner kind, StepList.of steps (.block owner kind) =
      StepList.of d.target (.block owner kind))
    (hopen : q.openBlock = p.openBlock)
    (hq : ∀ l, q.steps l = if p.next = l then steps.map Step.bare else p.steps l) :
    (d.withTarget steps).Holds q := by
  cases hb : d.block with
  | none =>
    rw [withTarget_none hb]
    have hwhole : whole { d with steps } = steps := whole_none hb
    refine ⟨fun l => ?_, h.opened.trans hopen.symm, fun b hb' => (by cases hb.symm.trans hb')⟩
    rw [hwhole, hq, h.next_none hb]
    cases l with
    | top =>
      rw [if_pos rfl]
      rfl
    | block owner kind =>
      have htarget : d.target = d.whole := (target_none hb).trans (whole_none hb).symm
      rw [if_neg StepList.noConfusion, hblocks, htarget, h.lists]
  | some b =>
    obtain ⟨before, owner, hs, hown, hfree⟩ := h.owner b hb
    rw [withTarget_some hb]
    have hwhole : whole { d with block := some { b with steps } } =
        before ++ [attach b.kind steps owner] :=
      whole_some (d := { d with block := some { b with steps } }) rfl hs
    refine ⟨fun l => ?_, ?_, fun c hc => ?_⟩
    · rw [hwhole, hq, h.next_some hb hs, ← h.lists, whole_some hb hs]
      cases l with
      | top =>
        rw [if_neg StepList.noConfusion, StepList.of, StepList.of, List.map_append,
          List.map_append, List.map_singleton, List.map_singleton, bare_attach, bare_attach]
      | block i kind =>
        rw [StepList.of_concat, StepList.of_concat, blockOf_attach hown, blockOf_attach hown]
        by_cases hi : i = before.length
        · by_cases hk : kind = b.kind
          · rw [if_pos hi, if_pos hk, if_pos (by rw [hi, hk])]
          · rw [if_pos hi, if_pos hi, if_neg hk, if_neg hk, if_neg]
            exact fun he => hk (StepList.block.inj he).2.symm
        · rw [if_neg hi, if_neg hi, if_neg]
          exact fun he => hi (StepList.block.inj he).1.symm
    · rw [hopen, ← h.opened, hb]
      rfl
    · cases hc
      exact ⟨before, owner, hs, hown, hfree⟩

/-- A step that is given goes to the end of its list, and to no other list. -/
theorem push (h : d.Holds p) {s : Step} (hs : s.bare = s) : (d.push s).Holds (p.give s) := by
  refine h.withTarget (fun owner kind => ?_) rfl fun l => ?_
  · rw [StepList.of_concat]
    split
    · next howner =>
      rw [blockOf_of_bare hs, howner, StepList.of, List.getElem?_eq_none (Nat.le_refl _)]
      rfl
    · rfl
  · rw [Placement.steps_give, List.map_append, List.map_singleton, hs]
    split
    · next hl => rw [h.target_eq, hl]
    · exact List.append_nil _

/-- What is no step leaves the lists as they are. -/
theorem change (h : d.Holds p) (hs : d'.steps = d.steps) (hb : d'.block = d.block) :
    d'.Holds p where
  lists l := by
    have hwhole : d'.whole = d.whole := by
      unfold whole
      rw [hs, hb]
    rw [hwhole]
    exact h.lists l
  opened := by
    rw [hb]
    exact h.opened
  owner := by
    rw [hs, hb]
    exact h.owner

theorem human (h : d.Holds p) (consult : Bool) (message : Text) :
    (d.human consult message).Holds (p.read (.human consult message)) := by
  have hlast : (p.steps p.next).getLast?.any Step.isElide = d.target.getLast?.any Step.isElide := by
    rw [← h.target_eq, List.getLast?_map, Option.any_map]
    congr 1
    funext s
    exact s.isElide_bare
  unfold Draft.human Placement.read
  rw [hlast]
  split
  · refine h.push ?_
    cases consult <;> rfl
  · cases consult <;> exact h.change rfl rfl

theorem retry (h : d.Holds p) {line : SourceLine} {count : Nat} {prompt : Option Text}
    (hr : d.retry line count prompt = .ok d') : d'.Holds p := by
  obtain ⟨before, c, onFailure, onSuccess, ht, rfl⟩ := retry_ok hr
  refine h.withTarget (fun owner kind => ?_) rfl fun l => ?_
  · rw [ht, StepList.of_concat, StepList.of_concat]
    cases kind <;> rfl
  · split
    · next hnext =>
      rw [← hnext, ← h.target_eq, ht, List.map_append, List.map_append]
      rfl
    · rfl

theorem openBlock (h : d.Holds p) {line : SourceLine} {kind : BlockKind}
    (ho : d.openBlock line kind = .ok d') : d'.Holds { p with openBlock := some kind } := by
  obtain ⟨hnone, rfl, before, owner, hs, hown, hempty⟩ := openBlock_ok ho
  have hwhole : whole { d with block := some ⟨kind, [], line⟩ } = d.whole := by
    rw [whole_none hnone, whole_some (d := { d with block := some ⟨kind, [], line⟩ }) rfl hs,
      attach_empty hempty, hs]
  refine ⟨fun l => ?_, rfl, fun b hb => ?_⟩
  · rw [hwhole]
    exact h.lists l
  · cases hb
    exact ⟨before, owner, hs, hown, hempty⟩

theorem closeBlock (h : d.Holds p) {line : SourceLine} (hc : d.closeBlock line = .ok d') :
    d'.Holds { p with openBlock := none } := by
  obtain ⟨b, hb, ⟨before, owner, hs, rfl⟩ | ⟨hs, rfl⟩⟩ := closeBlock_ok hc
  · have hwhole : whole { d with
        steps := before ++ [attach b.kind b.steps owner], block := none } = d.whole := by
      rw [whole_none rfl, whole_some hb hs]
    refine ⟨fun l => ?_, rfl, fun b hb => by cases hb⟩
    rw [hwhole]
    exact h.lists l
  · obtain ⟨before, owner, howner, -⟩ := h.owner b hb
    rw [hs] at howner
    cases List.append_ne_nil_of_right_ne_nil before (List.cons_ne_nil owner []) howner.symm

/-- One instruction puts its step where the placement says. -/
theorem apply (h : d.Holds p) {line : SourceLine} {i : Instruction} (hi : i.GivesBare)
    (ha : d.apply line i = .ok d') : d'.Holds (p.read i) := by
  cases i with
  | configure change =>
    cases ha
    exact h.change rfl rfl
  | prologue text | epilogue text =>
    simp only [Draft.apply] at ha
    split at ha <;> cases ha <;> exact h.change rfl rfl
  | step s change =>
    cases ha
    have hc : Holds { d with settings := change d.settings } p := h.change rfl rfl
    exact hc.push hi
  | retry count prompt => exact h.retry ha
  | human consult message =>
    cases ha
    exact h.human consult message
  | openBlock kind => exact h.openBlock ha
  | closeBlock => exact h.closeBlock ha
  | includeFile target =>
    cases ha
    exact h

/-- At every place of the stream the draft holds what the directives before it give. -/
theorem run {events : List Event} (hb : ∀ line i, .instruction line i ∈ events → i.GivesBare)
    (h : d.Holds p) (hr : d.run events = .ok d') : d'.Holds (events.foldl Placement.feed p) := by
  induction events generalizing d p with
  | nil =>
    cases hr
    exact h
  | cons e events ih =>
    obtain ⟨next, hf, hr⟩ := run_cons_ok hr
    have hn : next.Holds (p.feed e) := by
      rcases feed_ok hf with ⟨line, i, rfl, ha⟩ | ⟨rfl | rfl, es, rfl⟩
      · exact h.apply (hb line i List.mem_cons_self) ha
      · exact h.change rfl rfl
      · exact h.change rfl rfl
    exact ih (fun line i hi => hb line i (List.mem_cons_of_mem e hi)) hn hr

end Holds

end Draft

/-! ## Compiled conversations -/

namespace StepList

variable {registry : Registry} {c : Compiled}

/-- In every list of a compiled conversation the steps are in form, and those for humans linked. -/
theorem formed_of (h : c.WellFormed registry) (l : StepList) :
    Step.Formed (Step.HeadWellFormed registry) (l.of c.steps) := by
  cases l with
  | top => exact ⟨fun s hs => (h.steps.each s hs).head, h.steps.linked⟩
  | block owner kind =>
    unfold StepList.of
    dsimp only
    cases hs : c.steps[owner]? with
    | none => exact Step.formed_nil
    | some s =>
      have hw := h.steps.each s (List.mem_of_getElem? hs)
      cases kind with
      | onFailure => exact ⟨fun t ht => (hw.onFailure.each t ht).head, hw.onFailure.linked⟩
      | onSuccess => exact ⟨fun t ht => (hw.onSuccess.each t ht).head, hw.onSuccess.linked⟩

end StepList

namespace Step

variable {registry : Registry} {s t : Step}

theorem WellFormed.not_ownsBlocks (h : s.WellFormed registry) {kind : BlockKind}
    (ht : t ∈ Draft.blockOf kind s) : t.ownsBlocks = false := by
  have hbare : t.blocks = ([], []) := by
    cases kind with
    | onFailure => exact (h.onFailure.each t ht).bare
    | onSuccess => exact (h.onSuccess.each t ht).bare
  unfold ownsBlocks
  rw [hbare]
  rfl

theorem canOwnBlocks_of_ownsBlocks (h : s.ownsBlocks = true) : s.canOwnBlocks = true := by
  cases s <;> first | rfl | cases h

end Step

/-- The conversation is what the compiler makes of this stream of events, which is that of a text
or that of a file. -/
inductive Compiled.IsMadeOf (src : Sources) (registry : Registry) (c : Compiled) :
    List Event → Prop where
  | text {text : Text} : ofText src registry text = .ok c →
      IsMadeOf src registry c
        (Event.ofDirectives src registry [] none (Directive.ofDocument registry text))
  | file {path : Path} {l : Location} {text : Text} : src.locate path = .ok l →
      src.textAt l = .ok text → ofFile src registry path = .ok c →
      IsMadeOf src registry c
        (Event.ofDirectives src registry [l] (some path) (Directive.ofDocument registry text))

namespace Compiled

variable {src : Sources} {registry : Registry} {c : Compiled} {events : List Event}

theorem IsMadeOf.isResult (h : c.IsMadeOf src registry events) : c.IsResult := by
  cases h with
  | text hc => exact .inl ⟨src, registry, _, hc⟩
  | file hl ht hc => exact .inr ⟨src, registry, _, hc⟩

theorem IsMadeOf.events_eq (h : c.IsMadeOf src registry events) :
    ∃ stack file text source,
      events = Event.ofDirectives src registry stack file (Directive.ofDocument registry text) ∧
      ofEvents source events = .ok c := by
  cases h with
  | text hc => exact ⟨[], none, _, none, rfl, hc⟩
  | @file path l text hl ht hc =>
    exact ⟨[l], some path, text, some path, rfl, (ofFile_eq hl ht).symm.trans hc⟩

theorem IsMadeOf.wellFormed (h : c.IsMadeOf src registry events) : c.WellFormed registry := by
  obtain ⟨stack, file, text, source, rfl, hc⟩ := h.events_eq
  exact wellFormed_ofEvents hc

/-- The lists of the conversation hold what the directives of the stream give. -/
theorem IsMadeOf.holds (h : c.IsMadeOf src registry events) (l : StepList) :
    (l.of c.steps).map Step.bare = (Placement.ofEvents events).steps l := by
  obtain ⟨stack, file, text, source, rfl, hc⟩ := h.events_eq
  obtain ⟨d, hr, hf⟩ := ofEvents_ok hc
  have hd := Draft.holds_start.run (fun _ _ hm => Event.givesBare_of_mem hm) hr
  obtain ⟨hb, rfl⟩ := Draft.finish_ok hf
  exact hd.lists_steps hb l

/-- A compiled conversation is in form and loses no step. Only commands and checks outside blocks
own steps; in every list each pause and each consultation has an ELIDE directly before it, and
nothing is merged yet; the points stand in order, each behind a step other than ELIDE; and every
list holds exactly the steps that the directives of the expanded stream give to it, in their order,
where every step directive, and every pause or consultation directly after ELIDE, gives one. -/
theorem loses_no_step (h : c.IsMadeOf src registry events) :
    (∀ s ∈ c.steps, (s.ownsBlocks = true → s.canOwnBlocks = true) ∧
      ∀ kind, ∀ t ∈ Draft.blockOf kind s, t.ownsBlocks = false) ∧
    (∀ l : StepList, (∀ s ∈ l.of c.steps, ∀ prompt, s ≠ .merged prompt) ∧
      ∀ before s after, l.of c.steps = before ++ s :: after → s.isHuman = true →
        before.getLast?.any Step.isElide = true) ∧
    (∀ points ∈ [c.settings.pausePoints, c.settings.consultPoints],
      (points.Pairwise fun p q => p.place ≤ q.place) ∧ ∀ p ∈ points, p.Follows c.steps) ∧
    (∀ l : StepList, (l.of c.steps).map Step.bare = (Placement.ofEvents events).steps l) ∧
    (∀ before after line s change, events = before ++ .instruction line (.step s change) :: after →
      (Placement.ofEvents before).given ++ [((Placement.ofEvents before).next, s)] <+:
        (Placement.ofEvents events).given) ∧
    ∀ before marks after line line' change consult message,
      events = before ++ .instruction line (.step .elide change) ::
        (marks ++ .instruction line' (.human consult message) :: after) →
      (∀ e ∈ marks, e = .enter ∨ e = .leave) →
      (Placement.ofEvents before).given ++ [((Placement.ofEvents before).next, .elide),
          ((Placement.ofEvents before).next, if consult then .consult message else .pause message)]
        <+: (Placement.ofEvents events).given := by
  have hw := h.wellFormed
  have hp := points_follow h.isResult
  refine ⟨fun s hs => ⟨Step.canOwnBlocks_of_ownsBlocks, fun kind t ht =>
    (hw.steps.each s hs).not_ownsBlocks ht⟩, fun l => ?_, fun points hpoints => ?_, h.holds, ?_, ?_⟩
  · have hl := StepList.formed_of hw l
    refine ⟨fun s hs prompt he => ?_, fun before s after he hh => ?_⟩
    · rw [he] at hs
      exact hl.each _ hs
    · have hlinked := hl.linked
      rw [he] at hlinked
      have hlast := hlinked.elide_before hh
      cases hb : before.getLast? <;> rw [hb] at hlast <;> exact hlast
  · rcases List.mem_cons.mp hpoints with rfl | hpoints
    · exact ⟨hw.pauses.sorted, hp.1⟩
    · rw [List.mem_singleton.mp hpoints]
      exact ⟨hw.consults.sorted, hp.2⟩
  · rintro before after line s change rfl
    exact Placement.given_step before after line s change
  · rintro before marks after line line' change consult message rfl hmarks
    exact Placement.given_human before after hmarks line line' change consult message

/-- A block whose steps stand in another file, and a pause that is linked behind it. -/
def repairing : Text := "RUN a\nON-FAILURE\nINCLUDE b\nEND\nELIDE\nPAUSE look".toList

/-- The file with the steps of the block. -/
def repairs : FileSystem :=
  ⟨[], [(["b".toList], .file (Text.toBytes "PROMPT fix\nELIDE\nCONSULT why".toList))], [], []⟩

/-- The steps of an included file go to the block that is open. -/
theorem included_steps_stand_in_block :
    (Placement.ofEvents (Event.ofDirectives repairs .empty [] none
      (Directive.ofDocument .empty repairing))).steps (.block 0 .onFailure) =
        [.prompt "fix".toList, .elide, .consult "why".toList] := by
  have hdoc : Directive.ofDocument .empty repairing =
      [⟨.builtin .run, "a".toList, 1⟩, ⟨.builtin .onFailure, [], 2⟩,
        ⟨.builtin .includeFile, "b".toList, 3⟩, ⟨.builtin .endBlock, [], 4⟩,
        ⟨.builtin .elide, [], 5⟩, ⟨.builtin .pause, "look".toList, 6⟩] := rfl
  have hincluded : Directive.ofDocument .empty "PROMPT fix\nELIDE\nCONSULT why".toList =
      [⟨.builtin .prompt, "fix".toList, 1⟩, ⟨.builtin .elide, [], 2⟩,
        ⟨.builtin .consult, "why".toList, 3⟩] := rfl
  have htext : repairs.textAt ["b".toList] = .ok "PROMPT fix\nELIDE\nCONSULT why".toList := rfl
  have hc : ofText repairs .empty repairing = .ok ⟨{}, [.run { command := "a".toList }
      [.prompt "fix".toList, .elide, .consult "why".toList] [],
      .elide, .pause "look".toList], none⟩ := by
    unfold ofText
    rw [hdoc]
    iterate 2 rw [Event.ofDirectives_plain rfl fun _ => Instruction.noConfusion]
    rw [Event.ofDirectives_include rfl rfl rfl htext, hincluded]
    iterate 6 rw [Event.ofDirectives_plain rfl fun _ => Instruction.noConfusion]
    rw [Event.ofDirectives, Event.ofDirectives]
    rfl
  exact ((loses_no_step (.text hc)).2.2.2.1 (.block 0 .onFailure)).symm

end Compiled

end ConversationFlow

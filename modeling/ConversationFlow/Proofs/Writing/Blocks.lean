import ConversationFlow.Proofs.Writing.Steps

/-!
# Blocks that are written and read again

A block is opened behind the step that owns it, takes in the steps that are written in it, and is given
to the owner where it ends. So a step with its blocks is read as one step, and what the steps of
its blocks list stands behind what it lists itself.
-/

namespace ConversationFlow

/-! ## Owners -/

namespace Draft

/-- The draft in which the last step owns a block. -/
def own (kind : BlockKind) (block : List Step) (d : Draft) : Draft :=
  { d with
    settings := Step.listing block d.settings
    steps := match d.steps.getLast? with
      | some owner => d.steps.dropLast ++ [attach kind block owner]
      | none => d.steps }

/-- The last step has no block of a kind, and may own one if steps are written for it. -/
structure Offers (kind : BlockKind) (steps : List Step) (d : Draft) : Prop where
  closed : d.block = none
  owner : ∃ owner, d.steps.getLast? = some owner ∧ blockOf kind owner = [] ∧
    (steps ≠ [] → owner.canOwnBlocks = true)

theorem own_nil {kind : BlockKind} {d : Draft} (h : d.Offers kind []) : d.own kind [] = d := by
  obtain ⟨owner, hlast, hempty, -⟩ := h.owner
  obtain ⟨before, hsteps⟩ := List.getLast?_eq_some_iff.mp hlast
  unfold own
  rw [Step.listing_nil, hlast]
  dsimp only
  rw [attach_empty hempty, hsteps, List.dropLast_concat, ← hsteps]

/-- Opening a block, adding its steps and closing it gives the block to the last step. -/
theorem close_open {kind : BlockKind} {steps : List Step} {d : Draft} (h : d.Offers kind steps)
    (hne : steps ≠ []) (block : List Step) :
    (d.openBlock .nowhere kind >>= fun e => (e.extend block).closeBlock .nowhere) =
      .ok (d.own kind block) := by
  obtain ⟨owner, hlast, hempty, hown⟩ := h.owner
  obtain ⟨before, hsteps⟩ := List.getLast?_eq_some_iff.mp hlast
  rw [openBlock_eq h.closed hsteps (hown hne), if_pos hempty]
  unfold own
  rw [hlast]
  change Draft.closeBlock { d with
    settings := Step.listing block d.settings
    block := some ⟨kind, [] ++ block, .nowhere⟩ } .nowhere = _
  unfold closeBlock
  dsimp only
  rw [hlast, List.nil_append, h.closed]

end Draft

namespace Step

variable {registry : Registry}

/-! ## Steps in a row -/

/-- A step is written as its own lines and its blocks. -/
theorem written_eq (s : Step) : s.written = s.heading ++
    (blockText "ON-FAILURE" (writtenAll s.blocks.1) s.blocks.1 ++
      blockText "ON-SUCCESS" (writtenAll s.blocks.2) s.blocks.2) := by
  cases s with
  | run c f t =>
    rw [written, heading, List.append_assoc, List.append_assoc]
    rfl
  | verify c f t =>
    rw [written, heading, List.append_assoc]
    rfl
  | _ =>
    rw [written, heading, List.append_assoc]
    · rfl
    all_goals
      intro c f t h
      cases h

/-- Steps without blocks that are written one behind the other. -/
theorem compiles_row {linked : Bool} {steps : List Step} (hs : ∀ s ∈ steps, s.InBlock registry)
    (hl : Linked linked steps) :
    Compiles registry (fun d => linked = true → d.target.getLast?.any isElide = true)
      (writtenAll steps) fun d => (steps.mapM rereadHead).map d.extend := by
  induction steps generalizing linked with
  | nil => exact Compiles.nil.congr fun d _ => congrArg some d.extend_nil.symm
  | cons s rest ih =>
    have hs' := hs s List.mem_cons_self
    have hone : s.written = s.heading := by
      rw [written_eq, hs'.bare]
      exact List.append_nil _
    rw [writtenAll, hone]
    have hhead : Compiles registry (fun d => linked = true → d.target.getLast?.any isElide = true)
        s.heading fun d => s.rereadHead.map fun s' => d.extend [s'] :=
      (compiles_heading hs'.head).weaken fun d hd hh => hd (hl.1 hh)
    have hrest := ih (fun t ht => hs t (List.mem_cons_of_mem s ht)) hl.2
    refine (hhead.append hrest fun d _ d' hr he => ?_).congr fun d _ => ?_
    · obtain ⟨s', hs', rfl⟩ := Option.map_eq_some_iff.mp hr
      rw [Draft.target_extend, List.getLast?_concat]
      exact (rereadHead_keeps_kind hs').1.trans he
    · rw [List.mapM_cons]
      cases s.rereadHead with
      | none => rfl
      | some s' =>
        change (rest.mapM rereadHead).map (d.extend [s']).extend = _
        cases rest.mapM rereadHead with
        | none => rfl
        | some rest' => exact congrArg some (d.extend_extend [s'] rest')

/-! ## Blocks -/

/-- A block is given to the last step. -/
theorem compiles_block {kind : BlockKind} {k : Keyword} (hk : k ≠ .includeFile)
    (hx : Instruction.ofKeyword k [] = .ok (.openBlock kind)) {steps : List Step}
    (hs : Formed (InBlock registry) steps) :
    Compiles registry (fun d => d.Offers kind steps)
      (blockText k.spelling (writtenAll steps) steps) fun d =>
        (steps.mapM rereadHead).map (d.own kind) := by
  by_cases hne : steps = []
  · subst hne
    exact Compiles.nil.congr fun d hd => congrArg some (Draft.own_nil hd).symm
  · have hopen : Compiles registry (fun d => d.Offers kind steps) (k.name ++ ['\n'])
        fun d => (d.openBlock .nowhere kind).toOption :=
      Compiles.single (lays_name k) (fun h => hk (DirectiveName.builtin.inj h)) fun d _ => by
        rw [Draft.carry_builtin, hx]
        rfl
    have hclose : Compiles registry (fun _ => True) (Keyword.endBlock.name ++ ['\n'])
        fun d => (d.closeBlock .nowhere).toOption :=
      Compiles.single (lays_name .endBlock) nofun fun d _ => by
        rw [Draft.carry_builtin]
        rfl
    have ht : blockText k.spelling (writtenAll steps) steps =
        k.name ++ ['\n'] ++ writtenAll steps ++ (Keyword.endBlock.name ++ ['\n']) := by
      unfold blockText
      rw [if_neg (by simpa using hne), List.append_assoc, List.append_assoc]
      rfl
    rw [ht]
    refine ((hopen.append (compiles_row hs.each hs.linked) fun _ _ _ _ => nofun).append hclose
      fun _ _ _ _ => trivial).congr fun d hd => ?_
    have hall (block : List Step) := Draft.close_open hd hne block
    cases ho : d.openBlock .nowhere kind with
    | error e =>
      rw [ho] at hall
      cases hall []
    | ok e =>
      rw [ho] at hall
      cases steps.mapM rereadHead with
      | none => rfl
      | some block => exact congrArg Except.toOption (hall block)

/-! ## Steps with their blocks -/

/-- A step and the steps of its blocks, in the order in which they are written. -/
def family (s : Step) : List Step := s :: (s.blocks.1 ++ s.blocks.2)

/-- Blocks are there only where a step may own them. -/
def Takes (s : Step) (f t : List Step) : Prop := s.canOwnBlocks = true ∨ f = [] ∧ t = []

theorem takes_blocks (s : Step) : s.Takes s.blocks.1 s.blocks.2 := by
  cases s <;> first | exact .inl rfl | exact .inr ⟨rfl, rfl⟩

theorem takes_of_reread {s head : Step} {f t : List Step} (hs : s.rereadHead = some head)
    (hf : s.blocks.1.mapM rereadHead = some f) (ht : s.blocks.2.mapM rereadHead = some t) :
    head.Takes f t := by
  rcases s.takes_blocks with hcan | ⟨hnil, hnil'⟩
  · exact .inl ((rereadHead_keeps_kind hs).2.2.1.trans hcan)
  · rw [hnil] at hf
    rw [hnil'] at ht
    cases hf
    cases ht
    exact .inr ⟨rfl, rfl⟩

theorem attach_attach (s : Step) (f t : List Step) :
    Draft.attach .onSuccess t (Draft.attach .onFailure f s) = s.withBlocks f t := by
  cases s <;> rfl

theorem isElide_reread {s s' : Step} (h : s.reread = some s') : s'.isElide = s.isElide := by
  obtain ⟨head, hs, h⟩ := Option.bind_eq_some_iff.mp h
  obtain ⟨f, -, h⟩ := Option.bind_eq_some_iff.mp h
  obtain ⟨t, -, h⟩ := Option.bind_eq_some_iff.mp h
  cases h
  rw [← (rereadHead_keeps_kind hs).1]
  cases head <;> rfl

/-- What a step with blocks lists is what the step and the blocks list. -/
theorem listing_withBlocks {s : Step} {f t : List Step} (h : s.Takes f t) (hb : s.blocks = ([], []))
    (settings : Settings) :
    listing t (listing f (listing [s] settings)) = listing (s.withBlocks f t).family settings := by
  rw [listing_append, listing_append]
  rcases h with h | ⟨rfl, rfl⟩
  · cases s with
    | run c f' t' => rfl
    | verify check f' t' => cases check <;> rfl
    | _ => cases h
  · have hself : s.withBlocks [] [] = s := by
      cases s with
      | run c f t | verify c f t =>
        cases hb
        rfl
      | _ => rfl
    rw [hself, family, hb]
    rfl

end Step

namespace Draft

/-- The draft with one more step outside blocks, and what it and its blocks list. -/
def add (d : Draft) (s : Step) : Draft :=
  { d with settings := Step.listing s.family d.settings, steps := d.steps ++ [s] }

variable {d : Draft} {s : Step} {f t : List Step}

theorem extend_of_closed (h : d.block = none) (steps : List Step) : d.extend steps =
    { d with settings := Step.listing steps d.settings, steps := d.steps ++ steps } := by
  unfold extend withTarget target
  rw [h]

/-- The last step is without blocks and of the kind of `s`. -/
structure Awaits (s : Step) (d : Draft) : Prop where
  closed : d.block = none
  owner : ∃ owner, d.steps.getLast? = some owner ∧ owner.blocks = ([], []) ∧
    owner.canOwnBlocks = s.canOwnBlocks

theorem awaits_extend {head : Step} (h : d.block = none) (hs : s.rereadHead = some head) :
    (d.extend [head]).Awaits s := by
  obtain ⟨-, -, hown, hb⟩ := Step.rereadHead_keeps_kind hs
  rw [extend_of_closed h]
  exact ⟨h, head, List.getLast?_concat, hb, hown⟩

theorem Awaits.offers (h : d.Awaits s) : d.Offers .onFailure s.blocks.1 := by
  obtain ⟨owner, hlast, hb, hown⟩ := h.owner
  refine ⟨h.closed, owner, hlast, congrArg Prod.fst hb, fun hne => ?_⟩
  exact hown.trans (s.takes_blocks.resolve_right fun he => hne he.1)

theorem Awaits.own (h : d.Awaits s) (f : List Step) :
    (d.own .onFailure f).Offers .onSuccess s.blocks.2 := by
  obtain ⟨owner, hlast, hb, hown⟩ := h.owner
  unfold Draft.own
  rw [hlast]
  refine ⟨h.closed, attach .onFailure f owner, List.getLast?_concat, ?_, fun hne => ?_⟩
  · have ht : owner.blocks.2 = [] := congrArg Prod.snd hb
    cases owner <;> exact ht
  · have hcan := hown.trans (s.takes_blocks.resolve_right fun he => hne he.2)
    cases owner <;> exact hcan

theorem own_own (h : d.block = none) (hs : s.blocks = ([], [])) (ht : s.Takes f t) :
    own .onSuccess t (own .onFailure f (d.extend [s])) = d.add (s.withBlocks f t) := by
  rw [extend_of_closed h]
  unfold own add
  dsimp only
  rw [List.getLast?_concat]
  dsimp only
  rw [List.dropLast_concat, List.getLast?_concat]
  dsimp only
  rw [List.dropLast_concat, Step.attach_attach, Step.listing_withBlocks ht hs]

end Draft

namespace Step

/-- A written step adds the step that is read there. -/
theorem compiles_written {s : Step} (h : s.WellFormed registry) :
    Compiles registry (fun d => d.block = none ∧ s.Admits d) s.written fun d =>
      s.reread.map d.add := by
  have hhead : Compiles registry (fun d => d.block = none ∧ s.Admits d) s.heading
      fun d => s.rereadHead.map fun s' => d.extend [s'] :=
    (compiles_heading h.head).weaken fun d hd => hd.2
  have hf : Compiles registry (Draft.Awaits s)
      (blockText "ON-FAILURE" (writtenAll s.blocks.1) s.blocks.1) fun d =>
        (s.blocks.1.mapM rereadHead).map (d.own .onFailure) :=
    (compiles_block (k := .onFailure) nofun rfl h.onFailure).weaken fun _ hd => hd.offers
  have ht : Compiles registry (fun d => d.Offers .onSuccess s.blocks.2)
      (blockText "ON-SUCCESS" (writtenAll s.blocks.2) s.blocks.2) fun d =>
        (s.blocks.2.mapM rereadHead).map (d.own .onSuccess) :=
    compiles_block (k := .onSuccess) nofun rfl h.onSuccess
  rw [written_eq]
  refine (hhead.append (hf.append ht fun d hd d' hr => ?_) fun d hd d' hr => ?_).congr
    fun d hd => ?_
  · obtain ⟨f, -, rfl⟩ := Option.map_eq_some_iff.mp hr
    exact hd.own f
  · obtain ⟨head, hs, rfl⟩ := Option.map_eq_some_iff.mp hr
    exact Draft.awaits_extend hd.1 hs
  · unfold reread
    cases hs : s.rereadHead with
    | none => rfl
    | some head =>
      cases hfs : s.blocks.1.mapM rereadHead with
      | none => rfl
      | some f =>
        cases hts : s.blocks.2.mapM rereadHead with
        | none => rfl
        | some t =>
          obtain ⟨-, -, -, hb⟩ := rereadHead_keeps_kind hs
          exact congrArg some (Draft.own_own hd.1 hb (takes_of_reread hs hfs hts))

end Step

end ConversationFlow

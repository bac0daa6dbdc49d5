import ConversationFlow.Conversation

/-!
# Instructions of compiled conversations

What is said of the readings of single values carries over to the stream of instructions that
included files are expanded into, and from there, by induction over the stream, to the draft that
the compiler ends with. What each instruction does to a draft is said here once
(`Draft.retry_ok`, `Draft.openBlock_ok`, `Draft.closeBlock_ok`). What any directive means is not.
-/

namespace ConversationFlow

/-! ## Readings of one value -/

theorem exists_of_bind_ok {ε α β : Type} {x : Except ε α} {f : α → Except ε β} {b : β}
    (h : x >>= f = .ok b) : ∃ a, x = .ok a ∧ f a = .ok b := by
  cases x with
  | error e => cases h
  | ok a => exact ⟨a, rfl, h⟩

theorem ok_of_toOption {ε α : Type} {x : Except ε α} {a : α} (h : x.toOption = some a) :
    x = .ok a := by
  cases x with
  | error e => cases h
  | ok b =>
    cases h
    rfl

theorem error_of_bind {ε α β : Type} {x : Except ε α} {f : α → Except ε β} {e : ε}
    (h : x >>= f = .error e) : x = .error e ∨ ∃ a, x = .ok a ∧ f a = .error e := by
  cases x with
  | error e' =>
    cases h
    exact .inl rfl
  | ok a => exact .inr ⟨a, rfl, h⟩

theorem mapM_cons_ok {ε α β : Type} {f : α → Except ε β} {a : α} {as : List α} {bs : List β}
    (h : (a :: as).mapM f = .ok bs) :
    ∃ b rest, f a = .ok b ∧ as.mapM f = .ok rest ∧ bs = b :: rest := by
  rw [List.mapM_cons] at h
  obtain ⟨b, hb, h⟩ := exists_of_bind_ok h
  obtain ⟨rest, hrest, h⟩ := exists_of_bind_ok h
  exact ⟨b, rest, hb, hrest, (Except.ok.inj h).symm⟩

theorem exists_of_mapM_error {ε α β : Type} {f : α → Except ε β} {as : List α} {e : ε}
    (h : as.mapM f = .error e) : ∃ a ∈ as, f a = .error e := by
  induction as with
  | nil => cases h
  | cons a as ih =>
    rw [List.mapM_cons] at h
    rcases error_of_bind h with ha | ⟨b, -, h⟩
    · exact ⟨a, List.mem_cons_self, ha⟩
    rcases error_of_bind h with has | ⟨bs, -, h⟩
    · obtain ⟨a', hmem, ha'⟩ := ih has
      exact ⟨a', List.mem_cons_of_mem a hmem, ha'⟩
    · cases h

theorem forall_of_mapM_ok {ε α β : Type} {f : α → Except ε β} {P : β → Prop} {as : List α}
    {bs : List β} (hf : ∀ a ∈ as, ∀ b, f a = .ok b → P b) (h : as.mapM f = .ok bs) :
    ∀ b ∈ bs, P b := by
  induction as generalizing bs with
  | nil =>
    cases h
    exact fun b hb => by cases hb
  | cons a as ih =>
    obtain ⟨b, more, hb, hmore, rfl⟩ := mapM_cons_ok h
    intro c hc
    rcases List.mem_cons.mp hc with rfl | hc
    · exact hf a List.mem_cons_self c hb
    · exact ih (fun a ha => hf a (List.mem_cons_of_mem _ ha)) hmore c hc

namespace Instruction

/-- Every instruction that the reading may give has the property. -/
def Reads (P : Instruction → Prop) (reading : Except Refusal Instruction) : Prop :=
  ∀ i, reading = .ok i → P i

variable {P : Instruction → Prop}

theorem reads_ok {i : Instruction} (h : P i) : Reads P (.ok i) := by
  intro j hj
  cases hj
  exact h

theorem reads_bind {α : Type} {x : Except Refusal α} {f : α → Except Refusal Instruction}
    (h : ∀ a, x = .ok a → Reads P (f a)) : Reads P (x >>= f) := by
  intro i hi
  obtain ⟨a, ha, hi⟩ := exists_of_bind_ok hi
  exact h a ha i hi

end Instruction

/-- What holds of every reading of a keyword's value and of every custom step holds of what a
directive says. -/
theorem Directive.instruction_reads {P : Instruction → Prop} {file : Option Path} {d : Directive}
    {i : Instruction} (hc : ∀ name, d.name = .custom name → P (.step (.custom name d.value) id))
    (hk : ∀ k, d.name = .builtin k → Instruction.Reads P (Instruction.ofKeyword k d.value))
    (h : d.instruction file = .ok i) : P i := by
  unfold instruction at h
  split at h
  · next name hname =>
    cases h
    exact hc name hname
  · next k hname =>
    split at h
    · next hi =>
      cases h
      exact hk k hname i hi
    · cases h

/-! ## What directives say -/

/-- A change of the settings that leaves the points for humans as they are. -/
def Settings.SparesPoints (change : Settings → Settings) : Prop :=
  ∀ s, (change s).pausePoints = s.pausePoints ∧ (change s).consultPoints = s.consultPoints

/-- The step as its directive gives it, without the retries and the blocks that others add. -/
def Step.bare : Step → Step
  | .run c _ _ => .run { command := c.command } [] []
  | .verify c _ _ => .verify c [] []
  | s => s

/-- What a directive of this name may say: no settings that it changes by itself have points, a
step comes without what other directives add to it, and only INCLUDE reads a file. -/
def Instruction.SaidBy (n : DirectiveName) : Instruction → Prop
  | .configure change => Settings.SparesPoints change
  | .step s change => s.bare = s ∧ Settings.SparesPoints change
  | .includeFile _ => n = .builtin .includeFile
  | _ => True

namespace Instruction

theorem reads_saidBy_retryOf (n : DirectiveName) (value : Text) :
    Reads (SaidBy n) (retryOf value) := by
  refine reads_bind fun ws _ => ?_
  cases ws with
  | nil => intro i hi; cases hi
  | cons count rest => exact reads_bind fun n _ => reads_ok trivial

theorem reads_saidBy_ofKeyword (k : Keyword) (value : Text) :
    Reads (SaidBy (.builtin k)) (ofKeyword k value) := by
  cases k with
  | runRetry => exact reads_saidBy_retryOf _ value
  | checkpoint | compact | newConversation | elide => exact reads_ok ⟨rfl, fun _ => ⟨rfl, rfl⟩⟩
  | pause | consult | onFailure | onSuccess | endBlock => exact reads_ok trivial
  | prologue | epilogue => exact reads_bind fun _ _ => reads_ok trivial
  | includeFile => exact reads_bind fun _ _ => reads_ok rfl
  | prompt | run | verify | verifyTrace | verifyCoverage | refcat | lsp | helpInline =>
    exact reads_bind fun _ _ => reads_ok ⟨rfl, fun _ => ⟨rfl, rfl⟩⟩
  | compactPreserve => exact reads_ok fun _ => ⟨rfl, rfl⟩
  | _ => exact reads_bind fun _ _ => reads_ok fun _ => ⟨rfl, rfl⟩

end Instruction

theorem Directive.instruction_saidBy {d : Directive} {file : Option Path} {i : Instruction}
    (h : d.instruction file = .ok i) : i.SaidBy d.name := by
  refine d.instruction_reads (fun name hn => ?_) (fun k hk => ?_) h
  · exact ⟨rfl, fun _ => ⟨rfl, rfl⟩⟩
  · rw [hk]
    exact Instruction.reads_saidBy_ofKeyword k d.value

/-! ## Where the instructions of a conversation come from -/

namespace Event

variable {src : Sources} {registry : Registry} {stack : List Location} {file : Option Path}

theorem ofDirectives_include {d : Directive} {ds : List Directive} {target : Text} {l : Location}
    {opened : List Location} {text : Text} (hd : d.instruction file = .ok (.includeFile target))
    (hl : src.locate (includePath file target) = .ok l) (hp : IncludeStack.push stack l = .ok opened)
    (ht : src.textAt l = .ok text) :
    ofDirectives src registry stack file (d :: ds) =
      .enter :: ofDirectives src registry opened (some (includePath file target))
          (Directive.ofDocument registry text)
        ++ .leave :: ofDirectives src registry stack file ds := by
  rw [ofDirectives, hd]
  simp only [hl]
  split
  · next hc => rw [hp] at hc; cases hc
  · next ho =>
    obtain rfl := Except.ok.inj (hp.symm.trans ho)
    split
    · next he => rw [ht] at he; cases he
    · next ht' => rw [Except.ok.inj (ht.symm.trans ht')]

theorem ofDirectives_plain {d : Directive} {ds : List Directive} {i : Instruction}
    (hd : d.instruction file = .ok i) (hi : ∀ target, i ≠ .includeFile target) :
    ofDirectives src registry stack file (d :: ds) =
      .instruction ⟨file, d.line⟩ i :: ofDirectives src registry stack file ds := by
  rw [ofDirectives, hd]
  split
  · next h => cases h
  · next target h => exact absurd (Except.ok.inj h) (hi target)
  · next h => rw [Except.ok.inj h]

/-- Every instruction of the expanded stream is what a directive says: one of the file itself or
one of an included file. -/
theorem instruction_of_mem {ds : List Directive} {line : SourceLine} {i : Instruction}
    (h : .instruction line i ∈ ofDirectives src registry stack file ds) :
    ∃ (origin : Option Path) (d : Directive), d.instruction origin = .ok i ∧
      (d ∈ ds ∨ ∃ text, d ∈ Directive.ofDocument registry text) := by
  induction stack, file, ds using ofDirectives.induct src registry with
  | case1 stack file =>
    rw [ofDirectives] at h
    cases h
  | case2 stack file d ds e hd =>
    rw [ofDirectives, hd] at h
    simp at h
  | case3 stack file d ds target hd path e hl =>
    rw [ofDirectives, hd] at h
    simp [path, hl] at h
  | case4 stack file d ds target hd path l hl cycle hp =>
    rw [ofDirectives, hd] at h
    simp only [path, hl] at h
    split at h <;> simp_all
  | case5 stack file d ds target hd path l hl opened hp e ht =>
    rw [ofDirectives, hd] at h
    simp only [path, hl] at h
    split at h
    · simp at h
    · split at h <;> simp_all
  | case6 stack file d ds target hd path l hl opened hp text ht inFile inRest =>
    rw [ofDirectives_include hd hl hp ht] at h
    rcases List.mem_append.mp h with hm | hm
    · obtain ⟨origin, e, he, hin⟩ := inFile ((List.mem_cons.mp hm).resolve_left (by simp))
      exact ⟨origin, e, he, .inr (hin.elim (fun hd => ⟨text, hd⟩) id)⟩
    · obtain ⟨origin, e, he, hin⟩ := inRest ((List.mem_cons.mp hm).resolve_left (by simp))
      exact ⟨origin, e, he, hin.imp_left (List.mem_cons_of_mem d)⟩
  | case7 stack file d ds j hj hd inRest =>
    rw [ofDirectives_plain hd fun target ht => hj target ht] at h
    rcases List.mem_cons.mp h with heq | hm
    · obtain ⟨rfl, rfl⟩ := Event.instruction.inj heq
      exact ⟨file, d, hd, .inl List.mem_cons_self⟩
    · obtain ⟨origin, e, he, hin⟩ := inRest hm
      exact ⟨origin, e, he, hin.imp_left (List.mem_cons_of_mem d)⟩

end Event

/-! ## What instructions do to a draft -/

namespace Draft

variable {d d' : Draft} {b : OpenBlock} {line : SourceLine}

theorem target_none (h : d.block = none) : d.target = d.steps := by
  unfold target
  rw [h]

theorem target_some (h : d.block = some b) : d.target = b.steps := by
  unfold target
  rw [h]

theorem withTarget_none (h : d.block = none) (steps : List Step) :
    d.withTarget steps = { d with steps } := by
  unfold withTarget
  rw [h]

theorem withTarget_some (h : d.block = some b) (steps : List Step) :
    d.withTarget steps = { d with block := some { b with steps } } := by
  unfold withTarget
  rw [h]

theorem block_push (h : d.block = some b) (s : Step) :
    (d.push s).block = some { b with steps := b.steps ++ [s] } := by
  unfold push
  rw [withTarget_some h, target_some h]

/-- Retries go to a command that was the last step. -/
theorem retry_ok {count : Nat} {prompt : Option Text} (h : d.retry line count prompt = .ok d') :
    ∃ before c onFailure onSuccess, d.target = before ++ [.run c onFailure onSuccess] ∧
      d' = d.withTarget (before ++ [.run { c with
        retries := count
        retryPrompt := some (prompt.getD RunCommand.defaultRetryPrompt) } onFailure onSuccess]) := by
  unfold retry at h
  split at h
  · next c onFailure onSuccess hl =>
    cases h
    obtain ⟨before, hbefore⟩ := List.getLast?_eq_some_iff.mp hl
    refine ⟨before, c, onFailure, onSuccess, hbefore, ?_⟩
    rw [hbefore, List.dropLast_concat]
  · cases h

/-- A block is opened where none is open, and belongs to the last step. -/
theorem openBlock_ok {kind : BlockKind} (h : d.openBlock line kind = .ok d') :
    d.block = none ∧ d' = { d with block := some ⟨kind, [], line⟩ } ∧
      ∃ before owner, d.steps = before ++ [owner] ∧ owner.canOwnBlocks = true ∧
        blockOf kind owner = [] := by
  unfold openBlock at h
  split at h
  · cases h
  · next hb =>
    split at h
    · next owner hl =>
      split at h
      · cases h
      · next hown =>
        split at h
        · cases h
        · next hfree =>
          cases h
          obtain ⟨before, hs⟩ := List.getLast?_eq_some_iff.mp hl
          exact ⟨by simpa using hb, rfl, before, owner, hs, by simpa using hown,
            by simpa using hfree⟩
    · cases h

/-- Where no block is open, the steps of a block of the last step decide whether it is opened. -/
theorem openBlock_eq {before : List Step} {owner : Step} (hb : d.block = none)
    (hs : d.steps = before ++ [owner]) (hown : owner.canOwnBlocks = true) (line : SourceLine)
    (kind : BlockKind) :
    d.openBlock line kind =
      if blockOf kind owner = [] then .ok { d with block := some ⟨kind, [], line⟩ }
      else .error (.duplicateBlock line kind) := by
  unfold openBlock
  rw [hb, hs, List.getLast?_concat]
  dsimp only [Option.isSome_none]
  rw [hown]
  cases blockOf kind owner <;> rfl

theorem attach_empty {kind : BlockKind} {s : Step} (h : blockOf kind s = []) :
    attach kind [] s = s := by
  cases s with
  | run c f t | verify c f t => cases kind <;> cases h <;> rfl
  | _ => rfl

/-- The block that is closed goes to the last step, if there is one. -/
theorem closeBlock_ok (h : d.closeBlock line = .ok d') :
    ∃ b, d.block = some b ∧
      ((∃ before owner, d.steps = before ++ [owner] ∧
        d' = { d with steps := before ++ [attach b.kind b.steps owner], block := none }) ∨
      d.steps = [] ∧ d' = { d with block := none }) := by
  unfold closeBlock at h
  split at h
  · cases h
  · next b hb =>
    refine ⟨b, hb, ?_⟩
    split at h
    · next owner hl =>
      cases h
      obtain ⟨before, hs⟩ := List.getLast?_eq_some_iff.mp hl
      exact .inl ⟨before, owner, hs, by rw [hs, List.dropLast_concat]⟩
    · next hl =>
      cases h
      exact .inr ⟨List.getLast?_eq_none_iff.mp hl, rfl⟩

theorem finish_ok {source : Option Path} {c : Compiled} (h : d.finish source = .ok c) :
    d.block = none ∧ c = {
      settings := { d.settings with
        prologues := d.includedPrologues ++ d.settings.prologues
        epilogues := d.includedEpilogues ++ d.settings.epilogues }
      steps := d.steps
      source } := by
  unfold finish at h
  split at h
  · cases h
  · next hb =>
    cases h
    exact ⟨hb, rfl⟩

end Draft

/-! ## Runs of the compiler -/

namespace Draft

/-- An event that the compiler takes carries out an instruction, or is a mark of a file and then
changes nothing but the files that are entered. -/
theorem feed_ok {d d' : Draft} {e : Event} (h : d.feed e = .ok d') :
    (∃ line i, e = .instruction line i ∧ d.apply line i = .ok d') ∨
      (e = .enter ∨ e = .leave) ∧ ∃ es, d' = { d with entered := es } := by
  cases e with
  | instruction line i =>
    simp only [feed] at h
    split at h
    · next ha =>
      cases h
      exact .inl ⟨line, i, rfl, ha⟩
    · cases h
  | enter =>
    cases h
    exact .inr ⟨.inl rfl, _, rfl⟩
  | leave =>
    refine .inr ⟨.inr rfl, ?_⟩
    simp only [feed] at h
    split at h
    · split at h
      · cases h
        exact ⟨_, rfl⟩
      · cases h
    · cases h
      exact ⟨_, rfl⟩
  | fail e => cases h

theorem run_cons_ok {d d' : Draft} {e : Event} {events : List Event}
    (h : d.run (e :: events) = .ok d') :
    ∃ next, d.feed e = .ok next ∧ next.run events = .ok d' := by
  rw [run, List.foldlM_cons] at h
  exact exists_of_bind_ok h

/-- What no instruction of the stream breaks and what does not look at the files that are entered
holds of the draft at the end. -/
theorem run_keeps {P : Draft → Prop} (hentered : ∀ d es, P d → P { d with entered := es })
    {events : List Event}
    (happly : ∀ d d' line i, .instruction line i ∈ events → P d → d.apply line i = .ok d' → P d')
    {d d' : Draft} (h : P d) (hr : d.run events = .ok d') : P d' := by
  induction events generalizing d with
  | nil =>
    cases hr
    exact h
  | cons e events ih =>
    obtain ⟨next, hf, hr⟩ := run_cons_ok hr
    have hn : P next := by
      rcases feed_ok hf with ⟨line, i, rfl, ha⟩ | ⟨-, es, rfl⟩
      · exact happly d next line i List.mem_cons_self h ha
      · exact hentered d es h
    exact ih (fun d d' line i hi => happly d d' line i (List.mem_cons_of_mem e hi)) hn hr

end Draft

/-! ## Compiled conversations -/

namespace Compiled

/-- What the compiler makes of some text or of some file. -/
def IsResult (c : Compiled) : Prop :=
  (∃ src registry text, ofText src registry text = .ok c) ∨
    ∃ src registry path, ofFile src registry path = .ok c

theorem ofEvents_ok {source : Option Path} {events : List Event} {c : Compiled}
    (h : ofEvents source events = .ok c) :
    ∃ d : Draft, Draft.run {} events = .ok d ∧ d.finish source = .ok c := by
  unfold ofEvents at h
  cases hr : Draft.run {} events with
  | error e =>
    rw [hr] at h
    cases h
  | ok d =>
    rw [hr] at h
    exact ⟨d, rfl, h⟩

section

variable {src : Sources} {registry : Registry} {path : Path} {l : Location} {text : Text}

theorem ofFile_eq (hl : src.locate path = .ok l) (ht : src.textAt l = .ok text) :
    ofFile src registry path = ofEvents (some path)
      (Event.ofDirectives src registry [l] (some path) (Directive.ofDocument registry text)) := by
  unfold ofFile
  rw [hl]
  dsimp only
  rw [ht]

/-- A file has a text, or it is refused for not being there or not being readable. -/
theorem ofFile_cases (src : Sources) (registry : Registry) (path : Path) :
    (∃ l text, src.locate path = .ok l ∧ src.textAt l = .ok text) ∨
      ofFile src registry path = .error (.fileNotFound path none) ∨
      ∃ e, ofFile src registry path = .error (.io path e) := by
  unfold ofFile
  cases hl : src.locate path with
  | error e => exact .inr (.inl rfl)
  | ok l =>
    dsimp only
    cases ht : src.textAt l with
    | error e => exact .inr (.inr ⟨e, rfl⟩)
    | ok text => exact .inl ⟨l, text, rfl, ht⟩

theorem ofFile_ok {c : Compiled} (h : ofFile src registry path = .ok c) :
    ∃ l text, src.locate path = .ok l ∧ src.textAt l = .ok text ∧
      ofEvents (some path) (Event.ofDirectives src registry [l] (some path)
        (Directive.ofDocument registry text)) = .ok c := by
  rcases ofFile_cases src registry path with ⟨l, text, hl, ht⟩ | he | ⟨e, he⟩
  · exact ⟨l, text, hl, ht, (ofFile_eq hl ht).symm.trans h⟩
  · cases he.symm.trans h
  · cases he.symm.trans h

end

theorem events_of_isResult {c : Compiled} (h : c.IsResult) :
    ∃ src registry stack file text source,
      ofEvents source (Event.ofDirectives src registry stack file
        (Directive.ofDocument registry text)) = .ok c := by
  rcases h with ⟨src, registry, text, h⟩ | ⟨src, registry, path, h⟩
  · exact ⟨src, registry, [], none, text, none, h⟩
  · obtain ⟨l, text, -, -, hevents⟩ := ofFile_ok h
    exact ⟨src, registry, [l], some path, text, some path, hevents⟩

end Compiled

end ConversationFlow

import ConversationFlow.Proofs.Writing.Settings

/-!
# Steps that are written and read again

What is read where a step is written is given kind by kind (`Step.reread`). A step is read in
pieces: first its own lines, which make a step without blocks the last one, then its blocks, each
of which is given to the last step where it ends. Arrows and references are listed in the settings
in the order in which they are written.
-/

namespace ConversationFlow

/-! ## What is read -/

/-- The check that is read where a check is written. -/
def Check.reread : Check → Option Check
  | .named kind options =>
    (Instruction.namedCheck (Words.quote kind ++ Directive.writtenOptions options)).toOption
  | .trace source target => some (.trace source target)
  | .coverage c => (Instruction.rereadCoverage c).map .coverage

/-- The command that is read where a command and its retries are written. -/
def RunCommand.reread (c : RunCommand) : Option RunCommand :=
  match c.retryPrompt with
  | none => some c
  | some p => (Words.split? (Words.quote p)).map fun ws =>
    { c with retryPrompt := some (Text.join [' '] ws) }

namespace Step

/-- The step without blocks that is read where the own lines of a step are written. -/
def rereadHead : Step → Option Step
  | .prompt text => some (.prompt (Directive.reread text))
  | .run c _ _ => c.reread.map fun c => .run c [] []
  | .verify check _ _ => check.reread.map fun check => .verify check [] []
  | .refcat refs => (Words.reread refs).map .refcat
  | .lsp q options => (Instruction.query (queryText q options)).toOption.map fun e => .lsp e.1 e.2
  | .custom name content => some (.custom name (Directive.reread content))
  | .consult text => some (.consult (Directive.reread text))
  | .pause text => some (.pause (Directive.reread text))
  | s => some s

/-- The step that is read where a step is written. -/
def reread (s : Step) : Option Step := do
  let head ← s.rereadHead
  let onFailure ← s.blocks.1.mapM rereadHead
  let onSuccess ← s.blocks.2.mapM rereadHead
  return head.withBlocks onFailure onSuccess

/-- The link that a step lists. -/
def ownLinks : Step → List (Text × Text)
  | .verify (.trace source target) _ _ => [(source, target)]
  | _ => []

/-- The references that a step lists. -/
def ownRefs : Step → List Text
  | .refcat refs => refs
  | _ => []

/-- The settings with what steps list of their own. -/
def listing (steps : List Step) (t : Settings) : Settings :=
  { t with
    traceLinks := t.traceLinks ++ steps.flatMap ownLinks
    refcatRefs := t.refcatRefs ++ steps.flatMap ownRefs }

theorem listing_nil (t : Settings) : listing [] t = t := by
  unfold listing
  rw [List.flatMap_nil, List.flatMap_nil, List.append_nil, List.append_nil]

theorem listing_append (a b : List Step) (t : Settings) :
    listing b (listing a t) = listing (a ++ b) t := by
  unfold listing
  rw [List.flatMap_append, List.flatMap_append, ← List.append_assoc, ← List.append_assoc]

/-- Reading again keeps the kind of a step. -/
theorem rereadHead_keeps_kind {s s' : Step} (h : s.rereadHead = some s') :
    s'.isElide = s.isElide ∧ s'.isHuman = s.isHuman ∧ s'.canOwnBlocks = s.canOwnBlocks ∧
      s'.blocks = ([], []) := by
  cases s with
  | run | verify | refcat | lsp =>
    obtain ⟨a, -, rfl⟩ := Option.map_eq_some_iff.mp h
    exact ⟨rfl, rfl, rfl, rfl⟩
  | _ =>
    cases h
    exact ⟨rfl, rfl, rfl, rfl⟩

end Step

/-! ## Drafts with further steps -/

namespace Draft

theorem target_withTarget (d : Draft) (steps : List Step) : (d.withTarget steps).target = steps := by
  unfold withTarget
  split
  · rfl
  · next h =>
    unfold target
    rw [h]

theorem withTarget_withTarget (d : Draft) (a b : List Step) :
    (d.withTarget a).withTarget b = d.withTarget b := by
  unfold withTarget
  cases d with
  | mk settings includedPrologues includedEpilogues steps block entered => cases block <;> rfl

/-- The draft with further steps where the next step goes, and what they list. -/
def extend (d : Draft) (steps : List Step) : Draft :=
  ({ d with settings := Step.listing steps d.settings }).withTarget (d.target ++ steps)

theorem target_extend (d : Draft) (steps : List Step) :
    (d.extend steps).target = d.target ++ steps := target_withTarget _ _

theorem extend_nil (d : Draft) : d.extend [] = d := by
  unfold extend
  rw [Step.listing_nil, List.append_nil]
  unfold withTarget target
  cases d with
  | mk settings includedPrologues includedEpilogues steps block entered => cases block <;> rfl

theorem extend_extend (d : Draft) (a b : List Step) :
    (d.extend a).extend b = d.extend (a ++ b) := by
  have hs : (d.extend a).settings = Step.listing a d.settings := by
    unfold extend withTarget
    split <;> rfl
  unfold extend
  rw [target_withTarget, ← Step.listing_append, ← List.append_assoc]
  unfold withTarget
  cases d with
  | mk settings includedPrologues includedEpilogues steps block entered => cases block <;> rfl

/-- A step is pushed, and the settings list what the step lists. -/
theorem push_eq_extend {d : Draft} {s : Step} {settings : Settings}
    (h : settings = Step.listing [s] d.settings) : { d with settings }.push s = d.extend [s] := by
  rw [h]
  rfl

end Draft

/-! ## The own lines of a step -/

namespace Step

/-- The own lines of a step: its directive and, of a command, its retries. -/
def heading (s : Step) : Text := directive s ++ '\n' :: retryLine s

/-- A step for a human is written only behind ELIDE. -/
def Admits (s : Step) (d : Draft) : Prop :=
  s.isHuman = true → d.target.getLast?.any isElide = true

variable {registry : Registry} {P : Draft → Prop} {α : Type} {k : Keyword} {v text : Text}

/-- A step that lists nothing. -/
theorem listing_none {s : Step} (hl : s.ownLinks = []) (hr : s.ownRefs = []) (t : Settings) :
    id t = listing [s] t := by
  unfold listing
  rw [List.flatMap_singleton, List.flatMap_singleton, hl, hr, List.append_nil, List.append_nil]
  rfl

/-- One directive that makes a step. -/
theorem compiles_step {x : Except Refusal α} {step : α → Step} {change : α → Settings → Settings}
    (hl : Directive.Lays registry text [(.builtin k, v)]) (hk : k ≠ .includeFile)
    (hx : Instruction.ofKeyword k v = x >>= fun a => .ok (.step (step a) (change a)))
    (hc : ∀ a, x = .ok a → ∀ t, change a t = listing [step a] t) :
    Compiles registry P text fun d => x.toOption.map fun a => d.extend [step a] := by
  refine Compiles.single hl (fun h => hk (DirectiveName.builtin.inj h)) fun d _ => ?_
  rw [Draft.carry_builtin, hx, Draft.toOption_bind]
  cases x with
  | error e => rfl
  | ok a => exact congrArg some (Draft.push_eq_extend (hc a rfl d.settings))

/-- One directive that makes a certain step. -/
theorem compiles_certain {s : Step} {change : Settings → Settings}
    (hl : Directive.Lays registry text [(.builtin k, v)]) (hk : k ≠ .includeFile)
    (hx : Instruction.ofKeyword k v = .ok (.step s change)) (hc : ∀ t, change t = listing [s] t) :
    Compiles registry P text fun d => some (d.extend [s]) :=
  Compiles.single hl (fun h => hk (DirectiveName.builtin.inj h)) fun d _ => by
    rw [Draft.carry_builtin, hx]
    exact congrArg some (Draft.push_eq_extend (hc d.settings))

/-- A directive without a value. -/
theorem lays_name (k : Keyword) :
    Directive.Lays registry (k.name ++ ['\n']) [(.builtin k, [])] :=
  Directive.Lays.name (Directive.isName_builtin k)

/-- A directive with the rest of its line. -/
theorem lays_rest {start : Text} (hs : start = k.name ++ [' ']) (hk : k.takesText = false)
    (hv : '\n' ∉ v) :
    Directive.Lays registry (start ++ v ++ ['\n']) [(.builtin k, Text.trim v)] := by
  rw [hs, List.append_assoc k.name]
  exact Directive.Lays.line (Directive.isName_builtin k) hk hv

/-- A directive with a value on its line. -/
theorem lays_value {start : Text} (hs : start = k.name ++ [' ']) (hk : k.takesText = false)
    (hv : Text.IsLine v) : Directive.Lays registry (start ++ v ++ ['\n']) [(.builtin k, v)] := by
  have h : Directive.Lays registry (start ++ v ++ ['\n']) [(.builtin k, Text.trim v)] :=
    lays_rest hs hk hv.single
  rwa [hv.trimmed] at h

theorem compiles_prompt (hv : Directive.IsPassage text) :
    Compiles registry P (Directive.written "PROMPT" text ++ ['\n']) fun d =>
      some (d.extend [.prompt (Directive.reread text)]) := by
  have hl : Directive.Lays registry (Directive.written Keyword.prompt.name text ++ ['\n'])
      [(.builtin .prompt, Directive.reread text)] :=
    Directive.Lays.text (Directive.isName_builtin .prompt) rfl hv.toIsBlock
  refine compiles_certain hl nofun ?_ (listing_none rfl rfl)
  rw [Instruction.ofKeyword, Instruction.required_reread hv]
  rfl

theorem compiles_checkpoint {name : Option Text} (hv : ∀ v ∈ name, Text.IsValue v) :
    Compiles registry P (directive (.checkpoint name) ++ ['\n']) fun d =>
      some (d.extend [.checkpoint name]) := by
  cases name with
  | none => exact compiles_certain (lays_name .checkpoint) nofun rfl (listing_none rfl rfl)
  | some v =>
    have hv := hv v rfl
    refine compiles_certain (lays_value (k := .checkpoint) rfl rfl hv.toIsLine) nofun ?_
      (listing_none rfl rfl)
    rw [Instruction.ofKeyword, hv.trimmed, if_neg (by simpa using hv.nonempty)]

theorem compiles_compact {preserve : List Text} (hv : ∀ t ∈ preserve, Instruction.IsTag t) :
    Compiles registry P (directive (.compact preserve) ++ ['\n']) fun d =>
      some (d.extend [.compact preserve]) := by
  cases preserve with
  | nil => exact compiles_certain (lays_name .compact) nofun rfl (listing_none rfl rfl)
  | cons t ts =>
    have hjoin : Text.IsValue (Text.join ", " (t :: ts)) :=
      Text.isValue_join (by decide) (List.cons_ne_nil t ts) fun t ht => (hv t ht).isValue
    have htags : Instruction.tags (Text.join ", " (t :: ts)) = t :: ts :=
      Text.pieces_join hv (List.all_eq_true.mp rfl) (by decide)
    refine compiles_certain (lays_value (k := .compact) rfl rfl hjoin.toIsLine) nofun ?_
      (listing_none rfl rfl)
    rw [Instruction.ofKeyword, htags]

theorem compiles_helpInline {topics : List Text} (hne : topics ≠ [])
    (hv : ∀ t ∈ topics, Instruction.IsTopic t) :
    Compiles registry P (directive (.helpInline topics true) ++ ['\n']) fun d =>
      some (d.extend [.helpInline topics true]) := by
  have hjoin : Text.IsValue (Text.join [' '] topics) :=
    Text.isValue_join (by decide) hne fun t ht => (hv t ht).tag.isValue
  refine compiles_certain (lays_value (k := .helpInline) rfl rfl hjoin.toIsLine) nofun ?_
    (listing_none rfl rfl)
  rw [Instruction.ofKeyword, Settings.helpTopics_join hne hv]
  rfl

theorem compiles_refcat {refs : List Text} (hne : refs ≠ []) (hv : ∀ w ∈ refs, '\n' ∉ w) :
    Compiles registry P (directive (.refcat refs) ++ ['\n']) fun d =>
      (Words.reread refs).map fun refs => d.extend [.refcat refs] := by
  refine (compiles_step (k := .refcat) (lays_value rfl rfl (Words.isValue_join hne hv).toIsLine)
    nofun rfl fun refs _ t => ?_).congr fun d _ => ?_
  · unfold listing
    rw [List.flatMap_singleton, List.flatMap_singleton,
      show ownLinks (.refcat refs) = [] from rfl, List.append_nil]
    rfl
  · rw [Words.reread, if_neg hne]

theorem single_queryText {query : Text} {options : Dictionary Text} (hq : '\n' ∉ query)
    (ho : Instruction.OnLine options) : '\n' ∉ queryText query options := fun hm =>
  (List.mem_append.mp hm).elim hq (Instruction.single_writtenOptions ho)

theorem compiles_lsp {query : Text} {options : Dictionary Text} (hq : '\n' ∉ query)
    (ho : Instruction.OnLine options) :
    Compiles registry P (directive (.lsp query options) ++ ['\n']) fun d =>
      (Instruction.query (queryText query options)).toOption.map fun e =>
        d.extend [.lsp e.1 e.2] := by
  refine (compiles_step (lays_rest (k := .lsp) rfl rfl (single_queryText hq ho)) nofun rfl
    fun e _ => listing_none rfl rfl).congr fun d _ => ?_
  rw [Instruction.query_trim, Settings.toOption_refuse]

/-- A check, without the blocks of its step. -/
theorem compiles_check {check : Check} (hc : check.WellFormed) (f s : List Step) :
    Compiles registry P (directive (.verify check f s) ++ ['\n']) fun d =>
      check.reread.map fun check => d.extend [.verify check [] []] := by
  cases check with
  | named kind options =>
    have hv : Text.IsValue (Words.quote kind ++ Directive.writtenOptions options) :=
      Instruction.isValue_writtenOptions (Words.isValue_quote hc.1) hc.2
    have hl : Directive.Lays registry _ _ := lays_value (k := .verify) rfl rfl hv.toIsLine
    rw [← List.append_assoc] at hl
    refine (compiles_step hl (by decide) rfl fun check hx => listing_none ?_ rfl).congr fun d _ => ?_
    · obtain ⟨e, -, he⟩ := exists_of_bind_ok (Instruction.refuse_ok hx)
      cases he
      rfl
    · rw [Settings.toOption_refuse]
      rfl
  | trace source target =>
    have hl : Directive.Lays registry
        ("VERIFY-TRACE ".toList ++ Instruction.arrowText source target ++ ['\n'])
        [(.builtin .verifyTrace, Instruction.arrowText source target)] :=
      lays_value rfl rfl (Instruction.isValue_arrowText hc).toIsLine
    have ht : "VERIFY-TRACE ".toList ++ source ++ " -> ".toList ++ target =
        "VERIFY-TRACE ".toList ++ Instruction.arrowText source target := by
      unfold Instruction.arrowText
      rw [List.append_assoc, List.append_assoc, List.append_assoc]
      rfl
    change Compiles registry P ("VERIFY-TRACE ".toList ++ source ++ " -> ".toList ++ target ++ ['\n']) _
    rw [ht]
    have hx : Instruction.ofKeyword .verifyTrace (Instruction.arrowText source target) =
        .ok (.step (.verify (.trace source target) [] []) fun t =>
          { t with traceLinks := t.traceLinks ++ [(source, target)] }) := by
      rw [Instruction.ofKeyword, Instruction.traceCheck_arrowText hc]
      rfl
    refine compiles_certain hl (by decide) hx fun t => ?_
    unfold listing
    rw [List.flatMap_singleton, List.flatMap_singleton,
      show ownRefs (.verify (.trace source target) [] []) = [] from rfl, List.append_nil]
    rfl
  | coverage c =>
    have hone (hl : Directive.Lays registry (directive (.verify (.coverage c) f s) ++ ['\n'])
        [(.builtin .verifyCoverage, Instruction.coverageText c)]) :
        Compiles registry P (directive (.verify (.coverage c) f s) ++ ['\n']) fun d =>
          (Check.coverage c).reread.map fun check => d.extend [.verify check [] []] := by
      refine (compiles_step hl (by decide) rfl fun c _ => listing_none rfl rfl).congr fun d _ => ?_
      rw [Settings.toOption_refuse, Instruction.coverageCheck_coverageText hc, Check.reread,
        Option.map_map]
      rfl
    have hvalue : Directive.Lays registry
        ("VERIFY-COVERAGE ".toList ++ Instruction.coverageText c ++ ['\n'])
        [(.builtin .verifyCoverage, Instruction.coverageText c)] :=
      lays_value rfl rfl (Instruction.isLine_coverageText hc)
    cases hc with
    | report => exact hone (lays_name .verifyCoverage)
    | @measure m hm =>
      refine hone ?_
      have ht : "VERIFY-COVERAGE".toList ++ ' ' :: m ++ [] = "VERIFY-COVERAGE ".toList ++ m := by
        rw [List.append_nil]
        rfl
      change Directive.Lays registry ("VERIFY-COVERAGE".toList ++ ' ' :: m ++ [] ++ ['\n']) _
      rw [ht]
      exact hvalue
    | @bound m hm comparison x =>
      refine hone ?_
      have ht : "VERIFY-COVERAGE".toList ++ ' ' :: m ++
          ' ' :: (comparison.sign ++ ' ' :: Decimal.ofFloat x) =
          "VERIFY-COVERAGE ".toList ++ Text.join [' '] [m, comparison.sign, Decimal.ofFloat x] := by
        unfold Text.join
        rw [List.intercalate_cons_cons, List.intercalate_cons_cons, List.intercalate_singleton,
          List.append_assoc, List.append_assoc, List.append_assoc]
        rfl
      change Directive.Lays registry ("VERIFY-COVERAGE".toList ++ ' ' :: m ++
        ' ' :: (comparison.sign ++ ' ' :: Decimal.ofFloat x) ++ ['\n']) _
      rw [ht]
      exact hvalue

theorem compiles_custom {name content : Text} (hn : Directive.IsName registry (.custom name))
    (hv : Directive.HasForm registry (.custom name) content) :
    Compiles registry P (Directive.written name content ++ ['\n']) fun d =>
      some (d.extend [.custom name (Directive.reread content)]) := by
  have hone {v : Text} (hl : Directive.Lays registry (Directive.written name content ++ ['\n'])
      [(.custom name, v)]) : Compiles registry P (Directive.written name content ++ ['\n'])
        fun d => some (d.extend [.custom name v]) :=
    Compiles.single hl nofun fun d _ => by
      rw [Draft.carry_custom]
      exact congrArg some (Draft.push_eq_extend (listing_none rfl rfl d.settings))
  unfold Directive.HasForm at hv
  split at hv
  · next ht => exact hone (Directive.Lays.text hn ht hv)
  · next ht =>
    rw [Directive.reread_of_isLine hv]
    exact hone (Directive.Lays.written_line hn (by simpa using ht) hv)

/-- A pause or a consultation behind ELIDE is a step. -/
theorem compiles_human {k : Keyword} {consult : Bool} {make : Text → Step} (hk : k ≠ .includeFile)
    (ht : k.takesText = true) (hx : ∀ v, Instruction.ofKeyword k v = .ok (.human consult v))
    (hmake : ∀ v, make v = if consult then .consult v else .pause v) (hv : Directive.IsBlock text) :
    Compiles registry (fun d => d.target.getLast?.any isElide = true)
      (Directive.written k.name text ++ ['\n']) fun d =>
        some (d.extend [make (Directive.reread text)]) := by
  refine Compiles.single (Directive.Lays.text (Directive.isName_builtin k) ht hv)
    (fun h => hk (DirectiveName.builtin.inj h)) fun d hd => ?_
  rw [Draft.carry_builtin, hx]
  change some (d.human consult _) = _
  rw [Draft.human, if_pos hd, hmake]
  refine congrArg some (Draft.push_eq_extend (listing_none ?_ ?_ d.settings)) <;>
    cases consult <;> rfl

/-- Retries go to the command that was made last. -/
theorem retry_extend (d : Draft) (command : Text) (retries : Nat) (p : Text) :
    (d.extend [.run { command } [] []]).retry .nowhere retries (some p) =
      .ok (d.extend [.run { command, retries, retryPrompt := some p } [] []]) := by
  unfold Draft.retry
  rw [Draft.target_extend, List.getLast?_concat]
  dsimp only
  rw [List.dropLast_concat]
  exact congrArg Except.ok (Draft.withTarget_withTarget _ _ _)

/-- The text of retries is read by its words. -/
theorem retryOf_written (n : Nat) (hn : n < wordSize 32) (p : Text) :
    (Instruction.retryOf (Text.ofNat n ++ ' ' :: Words.quote p)).toOption =
      (Words.split? (Words.quote p)).map fun ws => .retry n (some (Text.join [' '] ws)) := by
  have hplain : ∀ c ∈ Text.ofNat n, ¬Words.IsQuote c ∧ Text.isBlank c = false := by
    intro c hc
    have hd := Text.isDigit_of_mem_ofNat hc
    refine ⟨?_, Text.isBlank_of_isDigit hd⟩
    rintro (rfl | rfl) <;> exact absurd hd (by decide)
  unfold Instruction.retryOf Words.split
  rw [Words.split_plain_append (Text.ofNat_ne_nil n) hplain]
  cases hs : Words.split? (Words.quote p) with
  | none => rfl
  | some ws =>
    have hne := Words.ne_nil_of_split_quote hs
    change Except.toOption (Instruction.refuse (Count.read (Text.ofNat n)) >>= fun n => _) = _
    rw [Count.read_ofNat hn]
    change some (Instruction.retry n (if ws.isEmpty then none else some (Text.join [' '] ws))) = _
    rw [if_neg (by simpa using hne)]
    rfl

/-- A command and its retries. -/
theorem compiles_run {c : RunCommand} (hc : c.WellFormed) (f s : List Step) :
    Compiles registry P (heading (.run c f s)) fun d =>
      c.reread.map fun c => d.extend [.run c [] []] := by
  have hrun : Compiles registry P ("RUN ".toList ++ c.command ++ ['\n']) fun d =>
      some (d.extend [.run { command := c.command } [] []]) := by
    refine compiles_certain (lays_value (k := .run) rfl rfl hc.command.toIsLine) (by decide) ?_
      (listing_none rfl rfl)
    rw [Instruction.ofKeyword, Instruction.required_of_isValue hc.command]
    rfl
  have ht : heading (.run c f s) =
      "RUN ".toList ++ c.command ++ ['\n'] ++ retryLine (.run c f s) := by
    rw [heading, List.append_assoc _ ['\n']]
    rfl
  rw [ht]
  obtain ⟨command, retries, prompt⟩ := c
  cases prompt with
  | none =>
    obtain rfl : retries = 0 := by
      by_contra hn
      exact Bool.false_ne_true (hc.asked (Nat.pos_of_ne_zero hn))
    have hnone : retryLine (.run { command } f s) = [] := rfl
    rw [hnone, List.append_nil]
    exact hrun
  | some p =>
    have hvalue : Text.IsValue (Text.ofNat retries ++ [' '] ++ Words.quote p) :=
      (Text.isValue_ofNat retries).append (Words.isValue_quote (hc.prompt p rfl)) (by decide)
    have hline : retryLine (.run ⟨command, retries, some p⟩ f s) =
        "RUN-RETRY ".toList ++ (Text.ofNat retries ++ [' '] ++ Words.quote p) ++ ['\n'] := by
      have hasks : (decide (0 < retries) || (some p).isSome) = true := Bool.or_true _
      rw [List.append_assoc (Text.ofNat retries), ← List.append_assoc]
      exact if_pos hasks
    have hretry : Compiles registry (fun _ => True)
        ("RUN-RETRY ".toList ++ (Text.ofNat retries ++ [' '] ++ Words.quote p) ++ ['\n'])
        fun d => (Words.split? (Words.quote p)).bind fun ws =>
          (d.retry .nowhere retries (some (Text.join [' '] ws))).toOption := by
      refine Compiles.single (lays_value (k := .runRetry) rfl rfl hvalue.toIsLine) (by decide)
        fun d _ => ?_
      rw [Draft.carry_builtin, List.append_assoc]
      change (Instruction.retryOf (Text.ofNat retries ++ ' ' :: Words.quote p)).toOption.bind _ = _
      rw [retryOf_written retries hc.retries]
      cases Words.split? (Words.quote p) <;> rfl
    rw [hline]
    refine (hrun.append hretry fun _ _ _ _ => trivial).congr fun d _ => ?_
    rw [Option.bind_some, RunCommand.reread]
    simp only [retry_extend]
    cases Words.split? (Words.quote p) <;> rfl

/-! ## Steps in a row -/

/-- The own lines of a step make the step that is read there. -/
theorem compiles_heading {s : Step} (h : s.HeadWellFormed registry) :
    Compiles registry s.Admits s.heading fun d => s.rereadHead.map fun s' => d.extend [s'] := by
  cases s with
  | prompt text => exact compiles_prompt h
  | run c f s => exact (compiles_run h f s).congr fun d _ => by rw [rereadHead, Option.map_map]; rfl
  | checkpoint name => exact compiles_checkpoint h
  | compact preserve => exact compiles_compact h
  | newConversation =>
    exact compiles_certain (lays_name .newConversation) nofun rfl (listing_none rfl rfl)
  | elide => exact compiles_certain (lays_name .elide) nofun rfl (listing_none rfl rfl)
  | verify check f s => exact (compiles_check h f s).congr fun d _ => by rw [rereadHead, Option.map_map]; rfl
  | refcat refs =>
    exact (compiles_refcat h.1 h.2).congr fun d _ => by rw [rereadHead, Option.map_map]; rfl
  | lsp query options =>
    exact (compiles_lsp h.1 h.2).congr fun d _ => by rw [rereadHead, Option.map_map]; rfl
  | helpInline topics mergeWithNext =>
    obtain ⟨hne, hv, rfl⟩ := h
    exact compiles_helpInline hne hv
  | custom name content => exact compiles_custom h.1 h.2
  | consult text =>
    exact (compiles_human (k := .consult) nofun rfl (fun _ => rfl) (fun _ => rfl) h).weaken
      fun d hd => hd rfl
  | pause text =>
    exact (compiles_human (k := .pause) nofun rfl (fun _ => rfl) (fun _ => rfl) h).weaken
      fun d hd => hd rfl
  | merged m => cases h

end Step

end ConversationFlow

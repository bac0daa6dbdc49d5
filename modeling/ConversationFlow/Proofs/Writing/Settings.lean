import ConversationFlow.Proofs.Writing.Compiling

/-!
# Settings that are written and read again

What is read where settings are written is given field by field (`Settings.reread`). Most fields are
read as they were; lists of words, fractions, durations, variables and texts need not be. The
points for humans and the lists of links and references are not written with the settings.
-/

namespace ConversationFlow

/-- The assignments that are read where variables are written. -/
def Settings.rereadVariables (env : Dictionary Text) : Option (List (Text × Text)) :=
  if env.entries = [] then some []
  else (Instruction.assignments
    (Words.join (env.entries.map fun (k, v) => k ++ '=' :: v))).toOption

/-- The time limit of commands, if it is not the default. -/
def Settings.ownTimeout (s : Settings) : Option Duration :=
  if s.run.timeout == RunSettings.defaultTimeout then none else some s.run.timeout

/-- The settings that are read where settings are written, without points, links and references. -/
def Settings.reread (s : Settings) : Option Settings := do
  let context ← Words.reread s.context
  let contextOptional ← Words.reread s.contextOptional
  let contextExclude ← Words.reread s.contextExclude
  let allowFiles ← Words.reread s.allowFiles
  let denyFiles ← Words.reread s.denyFiles
  let allowDirs ← Words.reread s.allowDirs
  let denyDirs ← Words.reread s.denyDirs
  let requirements ← Words.reread s.requirements
  let modelRequirements ← Words.reread s.modelRequirements
  let modelPreferences ← Words.reread s.modelPreferences
  let contextLimit ← s.contextLimit.mapM Percent.reread
  let compactionMin ← s.compactionMin.mapM Percent.reread
  let compactionThreshold ← s.compactionThreshold.mapM Percent.reread
  let compactionMax ← s.compactionMax.mapM Percent.reread
  let consultTimeout ← s.consultTimeout.mapM Duration.reread
  let timeout ← s.ownTimeout.mapM Duration.reread
  let env ← rereadVariables s.run.env
  return { s with
    context, contextOptional, contextExclude, allowFiles, denyFiles, allowDirs, denyDirs
    requirements, modelRequirements, modelPreferences
    contextLimit, compactionMin, compactionThreshold, compactionMax, consultTimeout
    onContextLimitPrompt := s.onContextLimitPrompt.map Directive.reread
    compactSummary := s.compactSummary.map Directive.reread
    continuationPrompt := s.continuationPrompt.map Directive.reread
    prologues := s.prologues.map Directive.reread
    epilogues := s.epilogues.map Directive.reread
    headers := s.headers.map Directive.reread
    footers := s.footers.map Directive.reread
    run := { s.run with
      timeout := timeout.getD RunSettings.defaultTimeout
      env := Dictionary.ofList env }
    pausePoints := [], consultPoints := [], traceLinks := [], refcatRefs := [] }

namespace Settings

variable {registry : Registry} {s : Settings}

/-- `t` is read where `s` is written. -/
structure RereadAs (s t : Settings) : Prop where
  context : Words.reread s.context = some t.context
  contextOptional : Words.reread s.contextOptional = some t.contextOptional
  contextExclude : Words.reread s.contextExclude = some t.contextExclude
  allowFiles : Words.reread s.allowFiles = some t.allowFiles
  denyFiles : Words.reread s.denyFiles = some t.denyFiles
  allowDirs : Words.reread s.allowDirs = some t.allowDirs
  denyDirs : Words.reread s.denyDirs = some t.denyDirs
  requirements : Words.reread s.requirements = some t.requirements
  modelRequirements : Words.reread s.modelRequirements = some t.modelRequirements
  modelPreferences : Words.reread s.modelPreferences = some t.modelPreferences
  contextLimit : s.contextLimit.mapM Percent.reread = some t.contextLimit
  compactionMin : s.compactionMin.mapM Percent.reread = some t.compactionMin
  compactionThreshold : s.compactionThreshold.mapM Percent.reread = some t.compactionThreshold
  compactionMax : s.compactionMax.mapM Percent.reread = some t.compactionMax
  consultTimeout : s.consultTimeout.mapM Duration.reread = some t.consultTimeout
  timeout : (s.ownTimeout.mapM Duration.reread).map (·.getD RunSettings.defaultTimeout) =
    some t.run.timeout
  env : (rereadVariables s.run.env).map Dictionary.ofList = some t.run.env
  rest : t = { s with
    context := t.context, contextOptional := t.contextOptional
    contextExclude := t.contextExclude, allowFiles := t.allowFiles, denyFiles := t.denyFiles
    allowDirs := t.allowDirs, denyDirs := t.denyDirs, requirements := t.requirements
    modelRequirements := t.modelRequirements, modelPreferences := t.modelPreferences
    contextLimit := t.contextLimit, compactionMin := t.compactionMin
    compactionThreshold := t.compactionThreshold, compactionMax := t.compactionMax
    consultTimeout := t.consultTimeout
    onContextLimitPrompt := s.onContextLimitPrompt.map Directive.reread
    compactSummary := s.compactSummary.map Directive.reread
    continuationPrompt := s.continuationPrompt.map Directive.reread
    prologues := s.prologues.map Directive.reread
    epilogues := s.epilogues.map Directive.reread
    headers := s.headers.map Directive.reread
    footers := s.footers.map Directive.reread
    run := { s.run with timeout := t.run.timeout, env := t.run.env }
    pausePoints := [], consultPoints := [], traceLinks := [], refcatRefs := [] }

theorem reread_eq_some_iff {t : Settings} : s.reread = some t ↔ s.RereadAs t := by
  constructor
  · intro h
    obtain ⟨context, hcontext, h⟩ := Option.bind_eq_some_iff.mp h
    obtain ⟨contextOptional, hcontextOptional, h⟩ := Option.bind_eq_some_iff.mp h
    obtain ⟨contextExclude, hcontextExclude, h⟩ := Option.bind_eq_some_iff.mp h
    obtain ⟨allowFiles, hallowFiles, h⟩ := Option.bind_eq_some_iff.mp h
    obtain ⟨denyFiles, hdenyFiles, h⟩ := Option.bind_eq_some_iff.mp h
    obtain ⟨allowDirs, hallowDirs, h⟩ := Option.bind_eq_some_iff.mp h
    obtain ⟨denyDirs, hdenyDirs, h⟩ := Option.bind_eq_some_iff.mp h
    obtain ⟨requirements, hrequirements, h⟩ := Option.bind_eq_some_iff.mp h
    obtain ⟨modelRequirements, hmodelRequirements, h⟩ := Option.bind_eq_some_iff.mp h
    obtain ⟨modelPreferences, hmodelPreferences, h⟩ := Option.bind_eq_some_iff.mp h
    obtain ⟨contextLimit, hcontextLimit, h⟩ := Option.bind_eq_some_iff.mp h
    obtain ⟨compactionMin, hcompactionMin, h⟩ := Option.bind_eq_some_iff.mp h
    obtain ⟨compactionThreshold, hcompactionThreshold, h⟩ := Option.bind_eq_some_iff.mp h
    obtain ⟨compactionMax, hcompactionMax, h⟩ := Option.bind_eq_some_iff.mp h
    obtain ⟨consultTimeout, hconsultTimeout, h⟩ := Option.bind_eq_some_iff.mp h
    obtain ⟨timeout, htimeout, h⟩ := Option.bind_eq_some_iff.mp h
    obtain ⟨env, henv, h⟩ := Option.bind_eq_some_iff.mp h
    cases h
    exact ⟨hcontext, hcontextOptional, hcontextExclude, hallowFiles, hdenyFiles, hallowDirs,
      hdenyDirs, hrequirements, hmodelRequirements, hmodelPreferences, hcontextLimit,
      hcompactionMin, hcompactionThreshold, hcompactionMax, hconsultTimeout,
      Option.map_eq_some_iff.mpr ⟨timeout, htimeout, rfl⟩,
      Option.map_eq_some_iff.mpr ⟨env, henv, rfl⟩, rfl⟩
  · intro h
    obtain ⟨timeout, htimeout, ht⟩ := Option.map_eq_some_iff.mp h.timeout
    obtain ⟨env, henv, he⟩ := Option.map_eq_some_iff.mp h.env
    unfold reread
    simp only [h.context, h.contextOptional, h.contextExclude, h.allowFiles, h.denyFiles,
      h.allowDirs, h.denyDirs, h.requirements, h.modelRequirements, h.modelPreferences,
      h.contextLimit, h.compactionMin, h.compactionThreshold, h.compactionMax, h.consultTimeout,
      htimeout, henv, Option.bind_eq_bind, Option.bind_some, Option.pure_def, ht, he]
    exact congrArg some h.rest.symm

theorem compiles_session (h : s.WellFormed) : Compiles registry
    (optional "MODEL" s.model ++ optional "ADAPTER" s.adapter ++ optional "MODE" s.mode ++
      nonDefault (s.sessionMode == .accumulate) "SESSION-MODE" s.sessionMode.text ++
      optional "MAX-CYCLES" (s.maxCycles.map Text.ofNat) ++ optional "CWD" s.cwd)
    fun t => some { t with
      model := s.model.or t.model
      adapter := s.adapter.or t.adapter
      mode := s.mode.or t.mode
      sessionMode := if s.sessionMode == .accumulate then t.sessionMode else s.sessionMode
      maxCycles := s.maxCycles.or t.maxCycles
      cwd := s.cwd.or t.cwd } := by
  have model : Compiles registry (optional "MODEL" s.model)
      fun t => some { t with model := s.model.or t.model } :=
    (compiles_value (k := .model) ⟨nofun, fun _ => rfl⟩ rfl h.model).congr
      fun t => by cases s.model <;> rfl
  have adapter : Compiles registry (optional "ADAPTER" s.adapter)
      fun t => some { t with adapter := s.adapter.or t.adapter } :=
    (compiles_value (k := .adapter) ⟨nofun, fun _ => rfl⟩ rfl h.adapter).congr
      fun t => by cases s.adapter <;> rfl
  have mode : Compiles registry (optional "MODE" s.mode)
      fun t => some { t with mode := s.mode.or t.mode } :=
    (compiles_value (k := .mode) ⟨nofun, fun _ => rfl⟩ rfl h.mode).congr
      fun t => by cases s.mode <;> rfl
  have sessionMode : Compiles registry
      (nonDefault (s.sessionMode == .accumulate) "SESSION-MODE" s.sessionMode.text)
      fun t => some { t with sessionMode :=
        if s.sessionMode == .accumulate then t.sessionMode else s.sessionMode } :=
    (compiles_nonDefault (k := .sessionMode) (some s.sessionMode) ⟨nofun, fun _ => rfl⟩ rfl
      (fun _ => by cases s.sessionMode <;> exact ⟨by decide, by decide⟩)
      (fun _ => by cases s.sessionMode <;> rfl)).congr fun t => by cases s.sessionMode <;> rfl
  have maxCycles : Compiles registry (optional "MAX-CYCLES" (s.maxCycles.map Text.ofNat))
      fun t => some { t with maxCycles := s.maxCycles.or t.maxCycles } :=
    (compiles_exact (k := .maxCycles) ⟨nofun, fun _ => rfl⟩ rfl
      (fun n _ => (Text.isValue_ofNat n).toIsLine) fun n hn => by
        obtain ⟨hne, hlt⟩ := h.maxCycles n hn
        rw [Count.read_ofNat hlt]
        change Instruction.refuse (Instruction.atLeastOne n) = _
        rw [Instruction.atLeastOne, if_neg hne]
        rfl).congr
      fun t => by cases s.maxCycles <;> rfl
  have cwd : Compiles registry (optional "CWD" s.cwd)
      fun t => some { t with cwd := s.cwd.or t.cwd } :=
    (compiles_value (k := .cwd) ⟨nofun, fun _ => rfl⟩ rfl h.cwd).congr
      fun t => by cases s.cwd <;> rfl
  exact (((((model.append adapter).append mode).append sessionMode).append maxCycles).append
    cwd).congr fun _ => rfl

theorem compiles_wordLists (h : s.WellFormed) : Compiles registry
    (wordList "CONTEXT" s.context ++
      wordList "CONTEXT-OPTIONAL" s.contextOptional ++
      wordList "CONTEXT-EXCLUDE" s.contextExclude ++
      wordList "ALLOW-FILES" s.allowFiles ++
      wordList "DENY-FILES" s.denyFiles ++
      wordList "ALLOW-DIR" s.allowDirs ++
      wordList "DENY-DIR" s.denyDirs ++
      wordList "REQUIRE" s.requirements ++
      wordList "MODEL-REQUIRES" s.modelRequirements ++
      wordList "MODEL-PREFERS" s.modelPreferences)
    fun t => do
      let context ← Words.reread s.context
      let contextOptional ← Words.reread s.contextOptional
      let contextExclude ← Words.reread s.contextExclude
      let allowFiles ← Words.reread s.allowFiles
      let denyFiles ← Words.reread s.denyFiles
      let allowDirs ← Words.reread s.allowDirs
      let denyDirs ← Words.reread s.denyDirs
      let requirements ← Words.reread s.requirements
      let modelRequirements ← Words.reread s.modelRequirements
      let modelPreferences ← Words.reread s.modelPreferences
      return { t with
        context := t.context ++ context
        contextOptional := t.contextOptional ++ contextOptional
        contextExclude := t.contextExclude ++ contextExclude
        allowFiles := t.allowFiles ++ allowFiles
        denyFiles := t.denyFiles ++ denyFiles
        allowDirs := t.allowDirs ++ allowDirs
        denyDirs := t.denyDirs ++ denyDirs
        requirements := t.requirements ++ requirements
        modelRequirements := t.modelRequirements ++ modelRequirements
        modelPreferences := t.modelPreferences ++ modelPreferences } := by
  have context : Compiles registry (wordList "CONTEXT" s.context)
      fun t => (Words.reread s.context).map fun ws => { t with context := t.context ++ ws } :=
    compiles_wordList (k := .context) ⟨nofun, fun _ => rfl⟩ rfl
      (fun t => by rw [List.append_nil]) h.context
  have contextOptional : Compiles registry (wordList "CONTEXT-OPTIONAL" s.contextOptional)
      fun t => (Words.reread s.contextOptional).map fun ws =>
        { t with contextOptional := t.contextOptional ++ ws } :=
    compiles_wordList (k := .contextOptional) ⟨nofun, fun _ => rfl⟩ rfl
      (fun t => by rw [List.append_nil]) h.contextOptional
  have contextExclude : Compiles registry (wordList "CONTEXT-EXCLUDE" s.contextExclude)
      fun t => (Words.reread s.contextExclude).map fun ws =>
        { t with contextExclude := t.contextExclude ++ ws } :=
    compiles_wordList (k := .contextExclude) ⟨nofun, fun _ => rfl⟩ rfl
      (fun t => by rw [List.append_nil]) h.contextExclude
  have allowFiles : Compiles registry (wordList "ALLOW-FILES" s.allowFiles)
      fun t => (Words.reread s.allowFiles).map fun ws =>
        { t with allowFiles := t.allowFiles ++ ws } :=
    compiles_wordList (k := .allowFiles) ⟨nofun, fun _ => rfl⟩ rfl
      (fun t => by rw [List.append_nil]) h.allowFiles
  have denyFiles : Compiles registry (wordList "DENY-FILES" s.denyFiles)
      fun t => (Words.reread s.denyFiles).map fun ws => { t with denyFiles := t.denyFiles ++ ws } :=
    compiles_wordList (k := .denyFiles) ⟨nofun, fun _ => rfl⟩ rfl
      (fun t => by rw [List.append_nil]) h.denyFiles
  have allowDirs : Compiles registry (wordList "ALLOW-DIR" s.allowDirs)
      fun t => (Words.reread s.allowDirs).map fun ws => { t with allowDirs := t.allowDirs ++ ws } :=
    compiles_wordList (k := .allowDir) ⟨nofun, fun _ => rfl⟩ rfl
      (fun t => by rw [List.append_nil]) h.allowDirs
  have denyDirs : Compiles registry (wordList "DENY-DIR" s.denyDirs)
      fun t => (Words.reread s.denyDirs).map fun ws => { t with denyDirs := t.denyDirs ++ ws } :=
    compiles_wordList (k := .denyDir) ⟨nofun, fun _ => rfl⟩ rfl
      (fun t => by rw [List.append_nil]) h.denyDirs
  have requirements : Compiles registry (wordList "REQUIRE" s.requirements)
      fun t => (Words.reread s.requirements).map fun ws =>
        { t with requirements := t.requirements ++ ws } :=
    compiles_wordList (k := .require) ⟨nofun, fun _ => rfl⟩ rfl
      (fun t => by rw [List.append_nil]) h.requirements
  have modelRequirements : Compiles registry (wordList "MODEL-REQUIRES" s.modelRequirements)
      fun t => (Words.reread s.modelRequirements).map fun ws =>
        { t with modelRequirements := t.modelRequirements ++ ws } :=
    compiles_wordList (k := .modelRequires) ⟨nofun, fun _ => rfl⟩ rfl
      (fun t => by rw [List.append_nil]) h.modelRequirements
  have modelPreferences : Compiles registry (wordList "MODEL-PREFERS" s.modelPreferences)
      fun t => (Words.reread s.modelPreferences).map fun ws =>
        { t with modelPreferences := t.modelPreferences ++ ws } :=
    compiles_wordList (k := .modelPrefers) ⟨nofun, fun _ => rfl⟩ rfl
      (fun t => by rw [List.append_nil]) h.modelPreferences
  have all := context.append contextOptional
    |>.append contextExclude |>.append allowFiles |>.append denyFiles |>.append allowDirs
    |>.append denyDirs |>.append requirements |>.append modelRequirements
    |>.append modelPreferences
  refine all.congr fun t => ?_
  simp only [Option.map_eq_bind, Option.bind_assoc, Option.bind_some, Function.comp_apply]
  rfl

/-! ## Limits of the context -/

theorem toOption_refuse {α : Type} (x : Except ValueError α) :
    (Instruction.refuse x).toOption = x.toOption := by
  cases x <;> rfl

theorem map_elim {α : Type} {x : Option (Option α)} {f g : Option α → Settings}
    (h : ∀ o, f o = g o) : x.map f = x.map g := by
  rw [show f = g from funext h]

theorem compiles_limits (h : s.WellFormed) : Compiles registry
    (percent "CONTEXT-LIMIT" s.contextLimit ++
      nonDefault (s.onContextLimit == .compact) "ON-CONTEXT-LIMIT" s.onContextLimit.text ++
      optional "ON-CONTEXT-LIMIT-PROMPT" s.onContextLimitPrompt)
    fun t => do
      let contextLimit ← s.contextLimit.mapM Percent.reread
      return { t with
        contextLimit := contextLimit.or t.contextLimit
        onContextLimit :=
          if s.onContextLimit == .compact then t.onContextLimit else s.onContextLimit
        onContextLimitPrompt :=
          (s.onContextLimitPrompt.map Directive.reread).or t.onContextLimitPrompt } := by
  have contextLimit : Compiles registry (percent "CONTEXT-LIMIT" s.contextLimit)
      fun t => (s.contextLimit.mapM Percent.reread).map fun x =>
        { t with contextLimit := x.or t.contextLimit } :=
    (compiles_optional (k := .contextLimit) Percent.reread ⟨nofun, fun _ => rfl⟩ rfl
      (fun x _ => (Percent.isValue_text x).toIsLine) fun x _ => toOption_refuse _).congr
      fun t => map_elim fun x => by cases x <;> rfl
  have onContextLimit : Compiles registry
      (nonDefault (s.onContextLimit == .compact) "ON-CONTEXT-LIMIT" s.onContextLimit.text)
      fun t => some { t with onContextLimit :=
        if s.onContextLimit == .compact then t.onContextLimit else s.onContextLimit } :=
    (compiles_nonDefault (k := .onContextLimit) (some s.onContextLimit) ⟨nofun, fun _ => rfl⟩ rfl
      (fun _ => by cases s.onContextLimit <;> exact ⟨by decide, by decide⟩)
      (fun _ => by cases s.onContextLimit <;> rfl)).congr fun t => by cases s.onContextLimit <;> rfl
  have onContextLimitPrompt : Compiles registry
      (optional "ON-CONTEXT-LIMIT-PROMPT" s.onContextLimitPrompt)
      fun t => some { t with
        onContextLimitPrompt :=
          (s.onContextLimitPrompt.map Directive.reread).or t.onContextLimitPrompt } :=
    (compiles_passage (k := .onContextLimitPrompt) ⟨nofun, fun _ => rfl⟩ rfl
      h.onContextLimitPrompt).congr fun t => by cases s.onContextLimitPrompt <;> rfl
  refine ((contextLimit.append onContextLimit).append onContextLimitPrompt).congr fun t => ?_
  simp only [Option.map_eq_bind, Option.bind_assoc, Option.bind_some, Function.comp_apply]
  rfl

/-! ## Texts around prompts -/

theorem helpTopics_join {ts : List Text} (hne : ts ≠ []) (ht : ∀ t ∈ ts, Instruction.IsTopic t) :
    Instruction.helpTopics (Text.join [' '] ts) = .ok ts := by
  have htags : Instruction.tags (Text.join [' '] ts) = ts :=
    Text.pieces_join (fun t hm => (ht t hm).tag) (List.all_eq_true.mp rfl) (by decide)
  unfold Instruction.helpTopics
  dsimp only
  rw [htags, if_neg (by simpa using hne), List.find?_eq_none.mpr]
  intro t hm
  rw [(ht t hm).known]
  exact nofun

theorem compiles_texts (h : s.WellFormed) : Compiles registry
    (each "PROLOGUE" s.prologues ++ each "EPILOGUE" s.epilogues ++ each "HEADER" s.headers ++
      each "FOOTER" s.footers ++
      nonDefault s.helpTopics.isEmpty "HELP" (Text.join [' '] s.helpTopics))
    fun t => some { t with
      prologues := t.prologues ++ s.prologues.map Directive.reread
      epilogues := t.epilogues ++ s.epilogues.map Directive.reread
      headers := t.headers ++ s.headers.map Directive.reread
      footers := t.footers ++ s.footers.map Directive.reread
      helpTopics := t.helpTopics ++ s.helpTopics } := by
  have prologues : Compiles registry (each "PROLOGUE" s.prologues)
      fun t => some { t with prologues := t.prologues ++ s.prologues.map Directive.reread } :=
    compiles_each Settings.prologues (fun vs t => { t with prologues := vs }) (fun _ => rfl)
      (fun _ _ => rfl) (fun _ _ _ => rfl) fun v hv =>
        compiles_frame (k := .prologue) .prologue
          (fun w t => { t with prologues := t.prologues ++ [w] })
          (by decide) rfl (fun _ => rfl)
          (fun d w hd => by rw [Draft.apply, hd]; rfl) (h.prologues v hv)
  have epilogues : Compiles registry (each "EPILOGUE" s.epilogues)
      fun t => some { t with epilogues := t.epilogues ++ s.epilogues.map Directive.reread } :=
    compiles_each Settings.epilogues (fun vs t => { t with epilogues := vs }) (fun _ => rfl)
      (fun _ _ => rfl) (fun _ _ _ => rfl) fun v hv =>
        compiles_frame (k := .epilogue) .epilogue
          (fun w t => { t with epilogues := t.epilogues ++ [w] })
          (by decide) rfl (fun _ => rfl)
          (fun d w hd => by rw [Draft.apply, hd]; rfl) (h.epilogues v hv)
  have headers : Compiles registry (each "HEADER" s.headers)
      fun t => some { t with headers := t.headers ++ s.headers.map Directive.reread } :=
    compiles_each Settings.headers (fun vs t => { t with headers := vs }) (fun _ => rfl)
      (fun _ _ => rfl) (fun _ _ _ => rfl) fun v hv =>
        compiles_text (k := .header) ⟨by decide, fun _ => rfl⟩ rfl (h.headers v hv)
  have footers : Compiles registry (each "FOOTER" s.footers)
      fun t => some { t with footers := t.footers ++ s.footers.map Directive.reread } :=
    compiles_each Settings.footers (fun vs t => { t with footers := vs }) (fun _ => rfl)
      (fun _ _ => rfl) (fun _ _ _ => rfl) fun v hv =>
        compiles_text (k := .footer) ⟨by decide, fun _ => rfl⟩ rfl (h.footers v hv)
  have helpTopics : Compiles registry
      (nonDefault s.helpTopics.isEmpty "HELP" (Text.join [' '] s.helpTopics))
      fun t => some { t with helpTopics := t.helpTopics ++ s.helpTopics } := by
    refine (compiles_nonDefault (k := .help) (some s.helpTopics) ⟨by decide, fun _ => rfl⟩ rfl
      (fun hne => ?_) fun hne => ?_).congr fun t => ?_
    · exact (Text.isValue_join (by decide) (by simpa using hne)
        fun t ht => (h.helpTopics t ht).tag.isValue).toIsLine
    · rw [helpTopics_join (by simpa using hne) h.helpTopics]
      rfl
    · cases s.helpTopics with
      | nil => exact congrArg some (by rw [List.append_nil])
      | cons t ts => rfl
  exact ((((prologues.append epilogues).append headers).append footers).append helpTopics).congr
    fun _ => rfl

/-! ## Compaction -/

theorem compiles_compaction (h : s.WellFormed) : Compiles registry
    (percent "COMPACTION-MIN" s.compactionMin ++
      percent "COMPACTION-THRESHOLD" s.compactionThreshold ++
      percent "COMPACTION-MAX" s.compactionMax ++
      nonDefault s.compactPreserve.isEmpty "COMPACT-PRESERVE" (Text.join ", " s.compactPreserve) ++
      optional "COMPACT-SUMMARY" s.compactSummary)
    fun t => do
      let compactionMin ← s.compactionMin.mapM Percent.reread
      let compactionThreshold ← s.compactionThreshold.mapM Percent.reread
      let compactionMax ← s.compactionMax.mapM Percent.reread
      return { t with
        compactionMin := compactionMin.or t.compactionMin
        compactionThreshold := compactionThreshold.or t.compactionThreshold
        compactionMax := compactionMax.or t.compactionMax
        compactPreserve := t.compactPreserve ++ s.compactPreserve
        compactSummary := (s.compactSummary.map Directive.reread).or t.compactSummary } := by
  have compactionMin : Compiles registry (percent "COMPACTION-MIN" s.compactionMin)
      fun t => (s.compactionMin.mapM Percent.reread).map fun x =>
        { t with compactionMin := x.or t.compactionMin } :=
    (compiles_optional (k := .compactionMin) Percent.reread ⟨nofun, fun _ => rfl⟩ rfl
      (fun x _ => (Percent.isValue_text x).toIsLine) fun x _ => toOption_refuse _).congr
      fun t => map_elim fun x => by cases x <;> rfl
  have compactionThreshold : Compiles registry
      (percent "COMPACTION-THRESHOLD" s.compactionThreshold)
      fun t => (s.compactionThreshold.mapM Percent.reread).map fun x =>
        { t with compactionThreshold := x.or t.compactionThreshold } :=
    (compiles_optional (k := .compactionThreshold) Percent.reread ⟨nofun, fun _ => rfl⟩ rfl
      (fun x _ => (Percent.isValue_text x).toIsLine) fun x _ => toOption_refuse _).congr
      fun t => map_elim fun x => by cases x <;> rfl
  have compactionMax : Compiles registry (percent "COMPACTION-MAX" s.compactionMax)
      fun t => (s.compactionMax.mapM Percent.reread).map fun x =>
        { t with compactionMax := x.or t.compactionMax } :=
    (compiles_optional (k := .compactionMax) Percent.reread ⟨nofun, fun _ => rfl⟩ rfl
      (fun x _ => (Percent.isValue_text x).toIsLine) fun x _ => toOption_refuse _).congr
      fun t => map_elim fun x => by cases x <;> rfl
  have compactPreserve : Compiles registry
      (nonDefault s.compactPreserve.isEmpty "COMPACT-PRESERVE" (Text.join ", " s.compactPreserve))
      fun t => some { t with compactPreserve := t.compactPreserve ++ s.compactPreserve } := by
    by_cases hne : s.compactPreserve = []
    · rw [hne]
      exact compiles_nil.congr fun t => by rw [List.append_nil]
    · rw [nonDefault, if_neg (by simpa using hne)]
      have hvalue : Text.IsValue (Text.join ", " s.compactPreserve) :=
        Text.isValue_join (by decide) hne fun t ht => (h.compactPreserve t ht).isValue
      have htags : Instruction.tags (Text.join ", " s.compactPreserve) = s.compactPreserve :=
        Text.pieces_join h.compactPreserve (List.all_eq_true.mp rfl) (by decide)
      refine ConversationFlow.Compiles.single (Directive.Lays.written_line
        (Directive.isName_builtin .compactPreserve) rfl hvalue.toIsLine) nofun fun d _ => ?_
      rw [Draft.carry_builtin, Instruction.ofKeyword, htags]
      rfl
  have compactSummary : Compiles registry (optional "COMPACT-SUMMARY" s.compactSummary)
      fun t => some { t with
        compactSummary := (s.compactSummary.map Directive.reread).or t.compactSummary } :=
    (compiles_passage (k := .compactSummary) ⟨nofun, fun _ => rfl⟩ rfl h.compactSummary).congr
      fun t => by cases s.compactSummary <;> rfl
  have all := compactionMin.append compactionThreshold
    |>.append compactionMax |>.append compactPreserve |>.append compactSummary
  refine all.congr fun t => ?_
  simp only [Option.map_eq_bind, Option.bind_assoc, Option.bind_some, Function.comp_apply]
  rfl

/-! ## Policies -/

theorem compiles_policies (h : s.WellFormed) : Compiles registry
    (nonDefault (s.validationMode == .strict) "VALIDATION-MODE" s.validationMode.text ++
      optional "MODEL-POLICY" s.modelPolicy ++
      optional "CONSULT-TIMEOUT" (s.consultTimeout.map Duration.text))
    fun t => do
      let consultTimeout ← s.consultTimeout.mapM Duration.reread
      return { t with
        validationMode :=
          if s.validationMode == .strict then t.validationMode else s.validationMode
        modelPolicy := s.modelPolicy.or t.modelPolicy
        consultTimeout := consultTimeout.or t.consultTimeout } := by
  have validationMode : Compiles registry
      (nonDefault (s.validationMode == .strict) "VALIDATION-MODE" s.validationMode.text)
      fun t => some { t with validationMode :=
        if s.validationMode == .strict then t.validationMode else s.validationMode } :=
    (compiles_nonDefault (k := .validationMode) (some s.validationMode) ⟨nofun, fun _ => rfl⟩ rfl
      (fun _ => by cases s.validationMode <;> exact ⟨by decide, by decide⟩)
      (fun _ => by cases s.validationMode <;> rfl)).congr fun t => by cases s.validationMode <;> rfl
  have modelPolicy : Compiles registry (optional "MODEL-POLICY" s.modelPolicy)
      fun t => some { t with modelPolicy := s.modelPolicy.or t.modelPolicy } :=
    (compiles_value (k := .modelPolicy) ⟨nofun, fun _ => rfl⟩ rfl h.modelPolicy).congr
      fun t => by cases s.modelPolicy <;> rfl
  have consultTimeout : Compiles registry
      (optional "CONSULT-TIMEOUT" (s.consultTimeout.map Duration.text))
      fun t => (s.consultTimeout.mapM Duration.reread).map fun d =>
        { t with consultTimeout := d.or t.consultTimeout } :=
    (compiles_optional (k := .consultTimeout) Duration.reread ⟨nofun, fun _ => rfl⟩ rfl
      (fun d _ => d.isValue_text.toIsLine) fun d _ => toOption_refuse _).congr
      fun t => map_elim fun d => by cases d <;> rfl
  exact ((validationMode.append modelPolicy).append consultTimeout).congr fun t => by
    simp only [Option.map_eq_bind, Option.bind_some]
    rfl

/-! ## Commands and checks -/

theorem compiles_run (h : s.WellFormed) : Compiles registry
    (nonDefault (!s.run.allowShell) "ALLOW-SHELL" [] ++
      nonDefault (s.run.onError == .stop) "RUN-ON-ERROR" s.run.onError.text ++
      nonDefault (s.run.output == .onError) "RUN-OUTPUT" s.run.output.text ++
      optional "RUN-OUTPUT-LIMIT" (s.run.outputLimit.map Text.ofNat) ++
      nonDefault (s.run.timeout == RunSettings.defaultTimeout) "RUN-TIMEOUT" s.run.timeout.text ++
      optional "RUN-CWD" s.run.cwd ++
      wordList "RUN-ENV" (s.run.env.entries.map fun (k, v) => k ++ '=' :: v))
    fun t => do
      let timeout ← s.ownTimeout.mapM Duration.reread
      let env ← rereadVariables s.run.env
      return { t with run := {
        allowShell := s.run.allowShell || t.run.allowShell
        onError := if s.run.onError == .stop then t.run.onError else s.run.onError
        output := if s.run.output == .onError then t.run.output else s.run.output
        outputLimit := s.run.outputLimit.or t.run.outputLimit
        timeout := timeout.getD t.run.timeout
        cwd := s.run.cwd.or t.run.cwd
        env := t.run.env.insertAll env } } := by
  have allowShell : Compiles registry (nonDefault (!s.run.allowShell) "ALLOW-SHELL" [])
      fun t => some { t with run :=
        { t.run with allowShell := s.run.allowShell || t.run.allowShell } } :=
    (compiles_nonDefault (k := .allowShell) (some true) ⟨nofun, fun _ => rfl⟩ rfl
      (fun _ => Text.isLine_nil) (fun _ => rfl)).congr fun t => by cases s.run.allowShell <;> rfl
  have onError : Compiles registry
      (nonDefault (s.run.onError == .stop) "RUN-ON-ERROR" s.run.onError.text)
      fun t => some { t with run := { t.run with onError :=
        if s.run.onError == .stop then t.run.onError else s.run.onError } } :=
    (compiles_nonDefault (k := .runOnError) (some s.run.onError) ⟨nofun, fun _ => rfl⟩ rfl
      (fun _ => by cases s.run.onError <;> exact ⟨by decide, by decide⟩)
      (fun _ => by cases s.run.onError <;> rfl)).congr fun t => by cases s.run.onError <;> rfl
  have output : Compiles registry
      (nonDefault (s.run.output == .onError) "RUN-OUTPUT" s.run.output.text)
      fun t => some { t with run := { t.run with output :=
        if s.run.output == .onError then t.run.output else s.run.output } } :=
    (compiles_nonDefault (k := .runOutput) (some s.run.output) ⟨nofun, fun _ => rfl⟩ rfl
      (fun _ => by cases s.run.output <;> exact ⟨by decide, by decide⟩)
      (fun _ => by cases s.run.output <;> rfl)).congr fun t => by cases s.run.output <;> rfl
  have outputLimit : Compiles registry
      (optional "RUN-OUTPUT-LIMIT" (s.run.outputLimit.map Text.ofNat))
      fun t => some { t with run :=
        { t.run with outputLimit := s.run.outputLimit.or t.run.outputLimit } } :=
    (compiles_exact (k := .runOutputLimit) ⟨nofun, fun _ => rfl⟩ rfl
      (fun n _ => (Text.isValue_ofNat n).toIsLine) fun n hn => by
        rw [Count.read_ofNat (h.outputLimit n hn)]
        rfl).congr
      fun t => by cases s.run.outputLimit <;> rfl
  have timeout : Compiles registry
      (nonDefault (s.run.timeout == RunSettings.defaultTimeout) "RUN-TIMEOUT" s.run.timeout.text)
      fun t => (s.ownTimeout.mapM Duration.reread).map fun d =>
        { t with run := { t.run with timeout := d.getD t.run.timeout } } := by
    refine (compiles_nonDefault (k := .runTimeout) s.run.timeout.reread ⟨nofun, fun _ => rfl⟩ rfl
      (fun _ => s.run.timeout.isValue_text.toIsLine) fun _ => toOption_refuse _).congr fun t => ?_
    unfold ownTimeout
    split
    · rfl
    · change _ = Option.map _ (Option.map some s.run.timeout.reread)
      rw [Option.map_map]
      rfl
  have cwd : Compiles registry (optional "RUN-CWD" s.run.cwd)
      fun t => some { t with run := { t.run with cwd := s.run.cwd.or t.run.cwd } } :=
    (compiles_value (k := .runCwd) ⟨nofun, fun _ => rfl⟩ rfl h.runCwd).congr
      fun t => by cases s.run.cwd <;> rfl
  have env : Compiles registry
      (wordList "RUN-ENV" (s.run.env.entries.map fun (k, v) => k ++ '=' :: v))
      fun t => (rereadVariables s.run.env).map fun es =>
        { t with run := { t.run with env := t.run.env.insertAll es } } := by
    refine (compiles_nonDefault (k := .runEnv)
      (Instruction.assignments (Words.join
        (s.run.env.entries.map fun (k, v) => k ++ '=' :: v))).toOption
      ⟨nofun, fun _ => rfl⟩ rfl (fun hne => ?_) fun _ => toOption_refuse _).congr fun t => ?_
    · refine (Words.isValue_join (by simpa using hne) fun w hw => ?_).toIsLine
      obtain ⟨e, he, rfl⟩ := List.mem_map.mp hw
      have hv := (h.env e he).single
      intro hm
      rcases List.mem_append.mp hm with hm | hm
      · exact hv.1 hm
      · rcases List.mem_cons.mp hm with hm | hm
        · cases hm
        · exact hv.2 hm
    · unfold rereadVariables
      cases s.run.env.entries with
      | nil => rfl
      | cons e es => rfl
  have all := allowShell.append onError
    |>.append output |>.append outputLimit |>.append timeout |>.append cwd |>.append env
  refine all.congr fun t => ?_
  simp only [Option.map_eq_bind, Option.bind_assoc, Option.bind_some, Function.comp_apply]
  rfl

theorem compiles_verify (h : s.WellFormed) : Compiles registry
    (nonDefault (s.verify.onError == .stop) "VERIFY-ON-ERROR" s.verify.onError.text ++
      nonDefault (s.verify.output == .onError) "VERIFY-OUTPUT" s.verify.output.text ++
      optional "VERIFY-LIMIT" (s.verify.limit.map Text.ofNat))
    fun t => some { t with verify := {
      onError := if s.verify.onError == .stop then t.verify.onError else s.verify.onError
      output := if s.verify.output == .onError then t.verify.output else s.verify.output
      limit := s.verify.limit.or t.verify.limit } } := by
  have onError : Compiles registry
      (nonDefault (s.verify.onError == .stop) "VERIFY-ON-ERROR" s.verify.onError.text)
      fun t => some { t with verify := { t.verify with onError :=
        if s.verify.onError == .stop then t.verify.onError else s.verify.onError } } :=
    (compiles_nonDefault (k := .verifyOnError) (some s.verify.onError) ⟨nofun, fun _ => rfl⟩ rfl
      (fun _ => by cases s.verify.onError <;> exact ⟨by decide, by decide⟩)
      (fun _ => by cases s.verify.onError <;> rfl)).congr fun t => by cases s.verify.onError <;> rfl
  have output : Compiles registry
      (nonDefault (s.verify.output == .onError) "VERIFY-OUTPUT" s.verify.output.text)
      fun t => some { t with verify := { t.verify with output :=
        if s.verify.output == .onError then t.verify.output else s.verify.output } } :=
    (compiles_nonDefault (k := .verifyOutput) (some s.verify.output) ⟨nofun, fun _ => rfl⟩ rfl
      (fun _ => by cases s.verify.output <;> exact ⟨by decide, by decide⟩)
      (fun _ => by cases s.verify.output <;> rfl)).congr fun t => by cases s.verify.output <;> rfl
  have limit : Compiles registry (optional "VERIFY-LIMIT" (s.verify.limit.map Text.ofNat))
      fun t => some { t with verify :=
        { t.verify with limit := s.verify.limit.or t.verify.limit } } :=
    (compiles_exact (k := .verifyLimit) ⟨nofun, fun _ => rfl⟩ rfl
      (fun n _ => (Text.isValue_ofNat n).toIsLine) fun n hn => by
        rw [Count.read_ofNat (h.verifyLimit n hn)]
        rfl).congr
      fun t => by cases s.verify.limit <;> rfl
  exact ((onError.append output).append limit).congr fun _ => rfl

/-! ## Output -/

theorem compiles_output (h : s.WellFormed) : Compiles registry
    (optional "OUTPUT-FORMAT" s.outputFormat ++ optional "OUTPUT-FILE" s.outputFile ++
      optional "OUTPUT-DIR" s.outputDir ++ optional "CONTINUATION-PROMPT" s.continuationPrompt ++
      optional "SESSION-NAME" s.sessionName ++ optional "EVENT-LOG" s.eventLog ++
      optional "INFINITE-SESSIONS"
        (s.infiniteSessions.map fun b => if b then "true" else "false"))
    fun t => some { t with
      outputFormat := s.outputFormat.or t.outputFormat
      outputFile := s.outputFile.or t.outputFile
      outputDir := s.outputDir.or t.outputDir
      continuationPrompt := (s.continuationPrompt.map Directive.reread).or t.continuationPrompt
      sessionName := s.sessionName.or t.sessionName
      eventLog := s.eventLog.or t.eventLog
      infiniteSessions := s.infiniteSessions.or t.infiniteSessions } := by
  have outputFormat : Compiles registry (optional "OUTPUT-FORMAT" s.outputFormat)
      fun t => some { t with outputFormat := s.outputFormat.or t.outputFormat } :=
    (compiles_value (k := .outputFormat) ⟨nofun, fun _ => rfl⟩ rfl h.outputFormat).congr
      fun t => by cases s.outputFormat <;> rfl
  have outputFile : Compiles registry (optional "OUTPUT-FILE" s.outputFile)
      fun t => some { t with outputFile := s.outputFile.or t.outputFile } :=
    (compiles_value (k := .outputFile) ⟨nofun, fun _ => rfl⟩ rfl h.outputFile).congr
      fun t => by cases s.outputFile <;> rfl
  have outputDir : Compiles registry (optional "OUTPUT-DIR" s.outputDir)
      fun t => some { t with outputDir := s.outputDir.or t.outputDir } :=
    (compiles_value (k := .outputDir) ⟨nofun, fun _ => rfl⟩ rfl h.outputDir).congr
      fun t => by cases s.outputDir <;> rfl
  have continuationPrompt : Compiles registry (optional "CONTINUATION-PROMPT" s.continuationPrompt)
      fun t => some { t with
        continuationPrompt :=
          (s.continuationPrompt.map Directive.reread).or t.continuationPrompt } :=
    (compiles_passage (k := .continuationPrompt) ⟨nofun, fun _ => rfl⟩ rfl
      h.continuationPrompt).congr
      fun t => by cases s.continuationPrompt <;> rfl
  have sessionName : Compiles registry (optional "SESSION-NAME" s.sessionName)
      fun t => some { t with sessionName := s.sessionName.or t.sessionName } :=
    (compiles_value (k := .sessionName) ⟨nofun, fun _ => rfl⟩ rfl h.sessionName).congr
      fun t => by cases s.sessionName <;> rfl
  have eventLog : Compiles registry (optional "EVENT-LOG" s.eventLog)
      fun t => some { t with eventLog := s.eventLog.or t.eventLog } :=
    (compiles_value (k := .eventLog) ⟨nofun, fun _ => rfl⟩ rfl h.eventLog).congr
      fun t => by cases s.eventLog <;> rfl
  have infiniteSessions : Compiles registry (optional "INFINITE-SESSIONS"
      (s.infiniteSessions.map fun b => if b then "true" else "false"))
      fun t => some { t with infiniteSessions := s.infiniteSessions.or t.infiniteSessions } :=
    (compiles_exact (k := .infiniteSessions) ⟨nofun, fun _ => rfl⟩ rfl
      (fun b _ => by cases b <;> exact ⟨by decide, by decide⟩)
      fun b _ => by cases b <;> rfl).congr fun t => by cases s.infiniteSessions <;> rfl
  have all := outputFormat.append outputFile
    |>.append outputDir |>.append continuationPrompt |>.append sessionName |>.append eventLog
    |>.append infiniteSessions
  exact all.congr fun _ => rfl

/-! ## All settings -/

theorem or_default {α : Type} [DecidableEq α] (a d : α) : (if a == d then d else a) = a := by
  split
  · next h => exact (eq_of_beq h).symm
  · rfl

/-- The written settings compile to what is read of them. -/
theorem compiles_written (h : s.WellFormed) :
    ConversationFlow.Compiles registry (fun d => d = {}) s.written fun _ =>
      s.reread.map fun settings => { settings } := by
  have hall := ((((((((@compiles_session registry s h).append
    (compiles_wordLists h)).append (compiles_limits h)).append (compiles_texts h)).append
    (compiles_compaction h)).append (compiles_policies h)).append (compiles_run h)).append
    (compiles_verify h)).append (compiles_output h)
  simp only [← List.append_assoc] at hall
  refine ConversationFlow.Compiles.congr (hall.weaken fun d hd => by rw [hd]) fun d hd => ?_
  subst hd
  unfold reread
  -- Where one value is not read, nothing is.
  cases Words.reread s.context
  · rfl
  cases Words.reread s.contextOptional
  · rfl
  cases Words.reread s.contextExclude
  · rfl
  cases Words.reread s.allowFiles
  · rfl
  cases Words.reread s.denyFiles
  · rfl
  cases Words.reread s.allowDirs
  · rfl
  cases Words.reread s.denyDirs
  · rfl
  cases Words.reread s.requirements
  · rfl
  cases Words.reread s.modelRequirements
  · rfl
  cases Words.reread s.modelPreferences
  · rfl
  cases s.contextLimit.mapM Percent.reread
  · rfl
  cases s.compactionMin.mapM Percent.reread
  · rfl
  cases s.compactionThreshold.mapM Percent.reread
  · rfl
  cases s.compactionMax.mapM Percent.reread
  · rfl
  cases s.consultTimeout.mapM Duration.reread
  · rfl
  cases s.ownTimeout.mapM Duration.reread
  · rfl
  cases rereadVariables s.run.env
  · rfl
  simp only [Option.bind_some, Option.bind_eq_bind, Option.pure_def, Option.map_some,
    Option.or_none, or_default, List.nil_append, Bool.or_false]
  rfl

end Settings

end ConversationFlow

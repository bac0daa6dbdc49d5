import ConversationFlow.Proofs.Writing.Conversations

/-!
# What survives being written

What is read where settings and steps are written is compared with them, value by value: words
survive if they do not hold both quotes, texts if they keep their shared blanks, durations always,
and numbers if their decimal is read as a number equal to them.
-/

namespace ConversationFlow

/-! ## Variables -/

/-- Variables are read as they were written if and only if no assignment holds both quotes. -/
theorem Settings.rereadVariables_eq_iff {env : Dictionary Text}
    (h : ∀ e ∈ env.entries, Instruction.IsVariable e) :
    (rereadVariables env).map Dictionary.ofList = some env ↔
      ∀ e ∈ env.entries, ¬Words.HoldsBothQuotes (Instruction.assignmentText e) := by
  unfold rereadVariables
  split
  · next hnil =>
    rw [hnil]
    refine iff_of_true (congrArg some ?_) fun e he => absurd he List.not_mem_nil
    rw [← env.ofList_entries, hnil]
  · next hne =>
    change ((Instruction.assignments
      (Words.join (env.entries.map Instruction.assignmentText))).toOption).map _ = _ ↔ _
    constructor
    · intro hr e he
      obtain ⟨es, hes, hof⟩ := Option.map_eq_some_iff.mp hr
      obtain ⟨vs, hvs, hread⟩ := exists_of_bind_ok (ok_of_toOption hes)
      split at hread
      · cases hread
      · have hsub : env.entries ⊆ es := fun f hf => by
          rw [← hof] at hf
          exact (Instruction.mem_entries_insertAll hf).resolve_left List.not_mem_nil
        obtain ⟨l, hperm, hl⟩ := env.nodup_entries.subperm hsub
        rw [Instruction.map_assignmentText hread] at hvs
        exact Words.single_of_subperm (Words.split_ok_iff.mp hvs) ⟨_, hperm.map _, hl.map _⟩ _
          (List.mem_map_of_mem he)
    · intro hone
      have hsplit := Words.split_join (List.forall_mem_map.mpr hone)
      unfold Instruction.assignments Words.split
      rw [hsplit]
      change (Except.toOption (if (env.entries.map Instruction.assignmentText).isEmpty then _
        else _)).map _ = _
      rw [if_neg (by simpa using hne), Instruction.mapM_assignment h]
      exact congrArg some env.ofList_entries

/-! ## Texts and numbers -/

theorem Directive.map_reread_eq_iff {vs : List Text} (h : ∀ v ∈ vs, IsBlock v) :
    vs.map reread = vs ↔ ∀ v ∈ vs, Survives v := by
  have hid : vs.map reread = vs ↔ ∀ v ∈ vs, reread v = v := by
    conv_lhs => rhs; rw [← List.map_id vs]
    exact List.map_inj_left
  exact hid.trans (forall₂_congr fun v hv => reread_eq_iff (h v hv))

theorem Directive.optionMap_reread_eq_iff {value : Option Text} (h : ∀ v ∈ value, IsBlock v) :
    value.map reread = value ↔ ∀ v ∈ value, Survives v := by
  cases value with
  | none => exact iff_of_true rfl nofun
  | some v =>
    rw [Option.map_some, Option.some.injEq, reread_eq_iff (h v rfl)]
    simp

/-- A number that may be missing is read as an equal one. -/
theorem exists_mapM_beq_iff {f : Float → Option Float} {value : Option Float} :
    (∃ x, value.mapM f = some x ∧ (x == value) = true) ↔
      ∀ x ∈ value, ∃ y, f x = some y ∧ (y == x) = true := by
  cases value with
  | none => exact iff_of_true ⟨none, rfl, rfl⟩ nofun
  | some x =>
    change (∃ y, (f x).map some = some y ∧ (y == some x) = true) ↔ _
    constructor
    · rintro ⟨y, hy, he⟩ x' ⟨⟩
      obtain ⟨z, hz, rfl⟩ := Option.map_eq_some_iff.mp hy
      exact ⟨z, hz, he⟩
    · intro h
      obtain ⟨y, hy, he⟩ := h x rfl
      exact ⟨some y, by rw [hy]; rfl, he⟩

theorem mapM_duration_eq {value : Option Duration} (h : ∀ d ∈ value, d.IsWhole) :
    value.mapM Duration.reread = some value := by
  cases value with
  | none => rfl
  | some d =>
    change (Duration.reread d).map some = some (some d)
    rw [Duration.reread_eq (h d rfl), Option.map_some]

namespace Settings

variable {s : Settings}

theorem timeout_eq (h : s.run.timeout.IsWhole) :
    (s.ownTimeout.mapM Duration.reread).map (·.getD RunSettings.defaultTimeout) =
      some s.run.timeout := by
  unfold ownTimeout
  split
  · next he =>
    rw [eq_of_beq he]
    rfl
  · change ((Duration.reread s.run.timeout).map some).map _ = _
    rw [Duration.reread_eq h]
    rfl

/-! ## Settings -/

/-- The lists of words. -/
def wordLists (s : Settings) : List (List Text) :=
  [s.context, s.contextOptional, s.contextExclude, s.allowFiles, s.denyFiles, s.allowDirs,
    s.denyDirs, s.requirements, s.modelRequirements, s.modelPreferences]

/-- The texts. -/
def passages (s : Settings) : List Text :=
  s.onContextLimitPrompt.toList ++ s.prologues ++ s.epilogues ++ s.headers ++ s.footers ++
    s.compactSummary.toList ++ s.continuationPrompt.toList

/-- The shares of the context. -/
def shares (s : Settings) : List Float :=
  s.contextLimit.toList ++ s.compactionMin.toList ++ s.compactionThreshold.toList ++
    s.compactionMax.toList

/-- Every value of the settings is read as it is written. The points for humans and what steps list
are not written with the settings. -/
structure Survives (s : Settings) : Prop where
  words : ∀ ws ∈ s.wordLists, ∀ w ∈ ws, ¬Words.HoldsBothQuotes w
  texts : ∀ v ∈ s.passages, Directive.Survives v
  shares : ∀ x ∈ s.shares, ∃ y, Percent.reread x = some y ∧ (y == x) = true
  env : ∀ e ∈ s.run.env.entries, ¬Words.HoldsBothQuotes (Instruction.assignmentText e)

/-- Settings are equal if all of their values are, where numbers are compared by value. -/
theorem beq_iff {a b : Settings} : (a == b) = true ↔
    ((a.contextLimit == b.contextLimit) = true ∧ (a.compactionMin == b.compactionMin) = true ∧
      (a.compactionThreshold == b.compactionThreshold) = true ∧
      (a.compactionMax == b.compactionMax) = true) ∧
    { a with
      contextLimit := none, compactionMin := none
      compactionThreshold := none, compactionMax := none } =
    { b with
      contextLimit := none, compactionMin := none
      compactionThreshold := none, compactionMax := none } := by
  cases a
  cases b
  change instBEqSettings.beq _ _ = true ↔ _
  simp only [instBEqSettings.beq, Bool.and_eq_true, beq_iff_eq, mk.injEq, true_and]
  tauto

/-- Settings with other points and other lists of what steps list. -/
def relisted (s t : Settings) : Settings :=
  { t with
    pausePoints := s.pausePoints, consultPoints := s.consultPoints
    traceLinks := s.traceLinks, refcatRefs := s.refcatRefs }

/-- The texts survive if and only if all of them are read as they were written. -/
theorem passages_survive_iff (h : s.WellFormed) : (∀ v ∈ s.passages, Directive.Survives v) ↔
    s.onContextLimitPrompt.map Directive.reread = s.onContextLimitPrompt ∧
      s.prologues.map Directive.reread = s.prologues ∧
      s.epilogues.map Directive.reread = s.epilogues ∧
      s.headers.map Directive.reread = s.headers ∧ s.footers.map Directive.reread = s.footers ∧
      s.compactSummary.map Directive.reread = s.compactSummary ∧
      s.continuationPrompt.map Directive.reread = s.continuationPrompt := by
  rw [Directive.optionMap_reread_eq_iff fun v hv => (h.onContextLimitPrompt v hv).toIsBlock,
    Directive.map_reread_eq_iff fun v hv => (h.prologues v hv).toIsBlock,
    Directive.map_reread_eq_iff fun v hv => (h.epilogues v hv).toIsBlock,
    Directive.map_reread_eq_iff fun v hv => (h.headers v hv).toIsBlock,
    Directive.map_reread_eq_iff fun v hv => (h.footers v hv).toIsBlock,
    Directive.optionMap_reread_eq_iff fun v hv => (h.compactSummary v hv).toIsBlock,
    Directive.optionMap_reread_eq_iff fun v hv => (h.continuationPrompt v hv).toIsBlock]
  simp only [passages, List.forall_mem_append, Option.mem_toList, and_assoc]
  exact Iff.rfl

/-- The settings survive if and only if equal ones are read where they are written. -/
theorem survives_iff (h : s.WellFormed) :
    (∃ t, s.reread = some t ∧ (s.relisted t == s) = true) ↔ s.Survives := by
  constructor
  · rintro ⟨t, ht, he⟩
    have hr := reread_eq_some_iff.mp ht
    obtain ⟨⟨hlimit, hmin, hthreshold, hmax⟩, heq⟩ := beq_iff.mp he
    have field {α : Type} {x : Option α} {y z : α} (hx : x = some y) (hy : y = z) : x = some z :=
      hx.trans (congrArg some hy)
    refine ⟨?_, (passages_survive_iff h).mpr ?_, ?_, ?_⟩
    · have hwords : ∀ ws ∈ s.wordLists, Words.reread ws = some ws := by
        simp only [wordLists, List.forall_mem_cons]
        exact ⟨field hr.context (congrArg Settings.context heq :),
          field hr.contextOptional (congrArg Settings.contextOptional heq :),
          field hr.contextExclude (congrArg Settings.contextExclude heq :),
          field hr.allowFiles (congrArg Settings.allowFiles heq :),
          field hr.denyFiles (congrArg Settings.denyFiles heq :),
          field hr.allowDirs (congrArg Settings.allowDirs heq :),
          field hr.denyDirs (congrArg Settings.denyDirs heq :),
          field hr.requirements (congrArg Settings.requirements heq :),
          field hr.modelRequirements (congrArg Settings.modelRequirements heq :),
          field hr.modelPreferences (congrArg Settings.modelPreferences heq :), nofun⟩
      exact fun ws hws => Words.reread_eq_iff.mp (hwords ws hws)
    · have hrest := hr.rest
      have kept {α : Type} (f : Settings → α) {x y : α} (hx : f t = x) (hy : f t = y) : x = y :=
        hx.symm.trans hy
      exact ⟨kept Settings.onContextLimitPrompt (by rw [hrest]) (congrArg Settings.onContextLimitPrompt heq :),
        kept Settings.prologues (by rw [hrest]) (congrArg Settings.prologues heq :),
        kept Settings.epilogues (by rw [hrest]) (congrArg Settings.epilogues heq :),
        kept Settings.headers (by rw [hrest]) (congrArg Settings.headers heq :),
        kept Settings.footers (by rw [hrest]) (congrArg Settings.footers heq :),
        kept Settings.compactSummary (by rw [hrest]) (congrArg Settings.compactSummary heq :),
        kept Settings.continuationPrompt (by rw [hrest]) (congrArg Settings.continuationPrompt heq :)⟩
    · simp only [shares, List.forall_mem_append, Option.mem_toList]
      exact ⟨⟨⟨exists_mapM_beq_iff.mp ⟨_, hr.contextLimit, hlimit⟩,
        exists_mapM_beq_iff.mp ⟨_, hr.compactionMin, hmin⟩⟩,
        exists_mapM_beq_iff.mp ⟨_, hr.compactionThreshold, hthreshold⟩⟩,
        exists_mapM_beq_iff.mp ⟨_, hr.compactionMax, hmax⟩⟩
    · exact (rereadVariables_eq_iff h.env).mp
        (field hr.env (congrArg (fun s => s.run.env) heq :))
  · intro hs
    have hwords : ∀ ws ∈ s.wordLists, Words.reread ws = some ws :=
      fun ws hws => Words.reread_eq_iff.mpr (hs.words ws hws)
    simp only [wordLists, List.forall_mem_cons] at hwords
    obtain ⟨context, contextOptional, contextExclude, allowFiles, denyFiles, allowDirs, denyDirs,
      requirements, modelRequirements, modelPreferences, -⟩ := hwords
    have hshares := hs.shares
    simp only [shares, List.forall_mem_append, Option.mem_toList] at hshares
    obtain ⟨⟨⟨hlimit, hmin⟩, hthreshold⟩, hmax⟩ := hshares
    obtain ⟨contextLimit, hlimit, elimit⟩ := exists_mapM_beq_iff.mpr hlimit
    obtain ⟨compactionMin, hmin, emin⟩ := exists_mapM_beq_iff.mpr hmin
    obtain ⟨compactionThreshold, hthreshold, ethreshold⟩ := exists_mapM_beq_iff.mpr hthreshold
    obtain ⟨compactionMax, hmax, emax⟩ := exists_mapM_beq_iff.mpr hmax
    refine ⟨{ s with
      contextLimit, compactionMin, compactionThreshold, compactionMax
      pausePoints := [], consultPoints := [], traceLinks := [], refcatRefs := [] },
      reread_eq_some_iff.mpr ?_, beq_iff.mpr ⟨⟨elimit, emin, ethreshold, emax⟩, rfl⟩⟩
    refine ⟨context, contextOptional, contextExclude, allowFiles, denyFiles, allowDirs, denyDirs,
      requirements, modelRequirements, modelPreferences, hlimit, hmin, hthreshold, hmax,
      mapM_duration_eq h.consultTimeout, timeout_eq h.runTimeout,
      (rereadVariables_eq_iff h.env).mpr hs.env, ?_⟩
    obtain ⟨hlimitPrompt, hprologues, hepilogues, hheaders, hfooters, hsummary, hcontinuation⟩ :=
      (passages_survive_iff h).mp hs.texts
    rw [hlimitPrompt, hprologues, hepilogues, hheaders, hfooters, hsummary, hcontinuation]

end Settings

end ConversationFlow

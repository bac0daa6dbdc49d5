import ConversationFlow.Proofs.Writing.Survival
import Mathlib.Data.List.Permutation

/-!
# Writing a conversation and reading it again

A compiled conversation is written as a text that compiles to an equal conversation if and only if
every value of it survives being written and its links and references are listed in the order in
which the steps are written (`Compiled.reread_equal_iff`).
-/

namespace ConversationFlow

/-! ## Checks and commands -/

/-- The check is read as it is written. A named check is read by its words, so that its options
count as they are read. -/
def Check.Survives (check : Check) : Prop :=
  match check with
  | .named .. => check.reread = some check
  | .trace .. => True
  | .coverage c => ∀ x ∈ c.threshold, ∃ y,
      Decimal.toFloat? (Decimal.ofFloat x) = some y ∧ (y == x) = true

theorem Check.beq_named_iff {check : Check} {kind : Text} {options : Dictionary Text} :
    (check == .named kind options) = true ↔ check = .named kind options := by
  cases check with
  | named k o =>
    change (k == kind && o == options) = true ↔ _
    rw [Bool.and_eq_true, beq_iff_eq, beq_iff_eq, named.injEq]
  | _ => exact iff_of_false nofun nofun

theorem Check.survives_iff {check : Check} :
    (∃ c, check.reread = some c ∧ (c == check) = true) ↔ check.Survives := by
  cases check with
  | named kind options =>
    constructor
    · rintro ⟨c, hc, he⟩
      exact hc.trans (congrArg some (beq_named_iff.mp he))
    · intro h
      exact ⟨_, h, beq_named_iff.mpr rfl⟩
  | trace source target =>
    refine iff_of_true ⟨_, rfl, ?_⟩ trivial
    change (source == source && target == target) = true
    simp
  | coverage c =>
    obtain ⟨metric, comparison, threshold⟩ := c
    have hbeq (y : Option Float) : ((coverage ⟨metric, comparison, y⟩ : Check) ==
        coverage ⟨metric, comparison, threshold⟩) = (y == threshold) := by
      change instBEqCoverageCheck.beq _ _ = _
      simp [instBEqCoverageCheck.beq]
    cases threshold with
    | none => exact iff_of_true ⟨_, rfl, hbeq none⟩ nofun
    | some x =>
      change (∃ c, ((Decimal.toFloat? (Decimal.ofFloat x)).map _).map coverage = some c ∧ _) ↔
        ∀ x' ∈ some x, _
      rw [Option.map_map]
      constructor
      · rintro ⟨c, hc, he⟩ x' ⟨⟩
        obtain ⟨y, hy, rfl⟩ := Option.map_eq_some_iff.mp hc
        exact ⟨y, hy, (hbeq (some y)).symm.trans he⟩
      · intro h
        obtain ⟨y, hy, he⟩ := h x rfl
        exact ⟨_, Option.map_eq_some_iff.mpr ⟨y, hy, rfl⟩, (hbeq (some y)).trans he⟩

/-- A named check survives if its options have plain names and neither its name nor a value holds both
quotes. -/
theorem Check.survives_of_plain {kind : Text} {options : Dictionary Text}
    (hkind : ¬Words.HoldsBothQuotes kind) (hno : Instruction.option? kind = none)
    (h : ∀ e ∈ options.entries, Instruction.IsPlain e) :
    (Check.named kind options).Survives := by
  change (Instruction.namedCheck (Words.quote kind ++ Directive.writtenOptions options)).toOption =
    some (named kind options)
  rw [Instruction.namedCheck_written hkind hno h]
  rfl

/-- The command is read as it is written if and only if the prompt of its retries does not hold both
quotes. -/
theorem RunCommand.reread_eq_iff {c : RunCommand} :
    c.reread = some c ↔ ∀ p ∈ c.retryPrompt, ¬Words.HoldsBothQuotes p := by
  obtain ⟨command, retries, prompt⟩ := c
  cases prompt with
  | none => exact iff_of_true rfl nofun
  | some p =>
    have hprompt : RunCommand.reread ⟨command, retries, some p⟩ = some ⟨command, retries, some p⟩ ↔
        (Words.split? (Words.quote p)).map (Text.join [' ']) = some p := by
      rw [reread, Option.map_eq_some_iff, Option.map_eq_some_iff]
      simp
    rw [hprompt, Words.join_split_quote_iff]
    simp

namespace Step

variable {registry : Registry}

/-! ## Steps -/

/-- What a step holds beside its blocks is read as it is written. A query is read by its words, so
that its options count as they are read. -/
def HeadSurvives : Step → Prop
  | .prompt text | .custom _ text | .consult text | .pause text => Directive.Survives text
  | .run c _ _ => ∀ p ∈ c.retryPrompt, ¬Words.HoldsBothQuotes p
  | .verify check _ _ => check.Survives
  | .refcat refs => ∀ w ∈ refs, ¬Words.HoldsBothQuotes w
  | .lsp query options =>
    (Instruction.query (queryText query options)).toOption = some (query, options)
  | _ => True

/-- A query of plain words survives if its options have plain names and no value holds both quotes. -/
theorem headSurvives_of_plain {ws : List Text} {options : Dictionary Text} (hne : ws ≠ [])
    (hw : ∀ w ∈ ws, Instruction.IsQueryWord w)
    (h : ∀ e ∈ options.entries, Instruction.IsPlain e) :
    (lsp (Text.join [' '] ws) options).HeadSurvives := by
  rw [HeadSurvives, queryText, Instruction.query_written hne hw h]
  rfl

/-- A step is read as it is written, with the steps of its blocks. -/
def Survives (s : Step) : Prop := ∀ t ∈ s.family, t.HeadSurvives

/-- The step without its blocks survives if and only if an equal one is read in its own lines. -/
theorem headSurvives_iff {s : Step} (h : s.HeadWellFormed registry) :
    (∃ t, s.rereadHead = some t ∧ t.same (s.withBlocks [] []) = true) ↔ s.HeadSurvives := by
  have htext {v : Text} (hv : Directive.IsBlock v) (make : Text → Step)
      (hsame : ∀ v w, (make v).same (make w) = (v == w)) :
      (∃ t, some (make (Directive.reread v)) = some t ∧ t.same (make v) = true) ↔
        Directive.Survives v := by
    rw [← Directive.reread_eq_iff hv, ← beq_iff_eq, ← hsame]
    simp
  have hmap {α : Type} {x : Option α} {make : α → Step} {t : Step} (P : α → Prop)
      (hsame : ∀ a, (make a).same t = true ↔ P a) :
      (∃ u, x.map make = some u ∧ u.same t = true) ↔ ∃ a, x = some a ∧ P a := by
    cases x with
    | none => simp
    | some a => simp [hsame]
  have hkept (t : Step) (hsame : t.same t = true) (hh : t.HeadSurvives) :
      (∃ u, some t = some u ∧ u.same t = true) ↔ t.HeadSurvives :=
    iff_of_true ⟨t, rfl, hsame⟩ hh
  cases s with
  | prompt text => exact htext h.toIsBlock prompt fun _ _ => rfl
  | consult text => exact htext h consult fun _ _ => rfl
  | pause text => exact htext h pause fun _ _ => rfl
  | custom name content =>
    refine htext ?_ (custom name) fun v w => ?_
    · exact h.2.isBlock
    · rw [same, beq_self_eq_true, Bool.true_and]
  | run c f t =>
    refine (hmap (fun c' => c' = c) fun c' => ?_).trans ?_
    · rw [withBlocks, same, sameAll, Bool.and_true, Bool.and_true, beq_iff_eq]
    · rw [exists_eq_right]
      exact RunCommand.reread_eq_iff
  | verify check f t =>
    refine (hmap (fun c => (c == check) = true) fun c => ?_).trans Check.survives_iff
    rw [withBlocks, same, sameAll, Bool.and_true, Bool.and_true]
  | refcat refs =>
    refine (hmap (fun r => r = refs) fun r => beq_iff_eq).trans ?_
    rw [exists_eq_right]
    exact Words.reread_eq_iff
  | lsp query options =>
    refine (hmap (fun e => e = (query, options)) fun e => ?_).trans ?_
    · change (lsp e.1 e.2).same (lsp query options) = true ↔ _
      rw [same, Bool.and_eq_true, beq_iff_eq, beq_iff_eq, Prod.ext_iff]
    · rw [exists_eq_right]
      exact Iff.rfl
  | checkpoint name => exact hkept _ (beq_self_eq_true name) trivial
  | compact preserve => exact hkept _ (beq_self_eq_true preserve) trivial
  | newConversation => exact hkept _ rfl trivial
  | elide => exact hkept _ rfl trivial
  | helpInline topics mergeWithNext => exact hkept _ (by simp [same]) trivial
  | merged m => cases h

/-- All steps survive if and only if equal ones are read for all of them. -/
theorem exists_mapM_sameAll_iff {f : Step → Option Step} {P : Step → Prop} {steps : List Step}
    (h : ∀ s ∈ steps, ((∃ t, f s = some t ∧ t.same s = true) ↔ P s)) :
    (∃ ts, steps.mapM f = some ts ∧ sameAll ts steps = true) ↔ ∀ s ∈ steps, P s := by
  induction steps with
  | nil => exact iff_of_true ⟨[], rfl, rfl⟩ nofun
  | cons s rest ih =>
    have ih := ih fun t ht => h t (List.mem_cons_of_mem s ht)
    rw [List.forall_mem_cons, ← h s List.mem_cons_self, ← ih, List.mapM_cons]
    constructor
    · rintro ⟨ts, hts, he⟩
      obtain ⟨t, ht, hts⟩ := Option.bind_eq_some_iff.mp hts
      obtain ⟨ts', hts', hts⟩ := Option.bind_eq_some_iff.mp hts
      cases hts
      obtain ⟨hone, hall⟩ := Bool.and_eq_true_iff.mp he
      exact ⟨⟨t, ht, hone⟩, ts', hts', hall⟩
    · rintro ⟨⟨t, ht, hone⟩, ts, hts, hall⟩
      refine ⟨t :: ts, ?_, Bool.and_eq_true_iff.mpr ⟨hone, hall⟩⟩
      rw [ht, hts]
      rfl

/-- Steps of a block survive if and only if equal ones are read where they are written. -/
theorem row_survives_iff {steps : List Step} (h : ∀ s ∈ steps, s.InBlock registry) :
    (∃ ts, steps.mapM rereadHead = some ts ∧ sameAll ts steps = true) ↔
      ∀ s ∈ steps, s.HeadSurvives := by
  refine exists_mapM_sameAll_iff fun s hs => ?_
  have hbare : s.withBlocks [] [] = s := by
    have hb := (h s hs).bare
    cases s with
    | run c f t | verify c f t =>
      cases hb
      rfl
    | _ => rfl
  have hone := headSurvives_iff (h s hs).head
  rwa [hbare] at hone

/-- A step with blocks equals another if it does without them and the blocks are equal. -/
theorem same_withBlocks {head s : Step} {f t : List Step} (hb : head.blocks = ([], []))
    (ht : head.Takes f t) (hown : head.canOwnBlocks = s.canOwnBlocks) :
    (head.withBlocks f t).same s =
      (head.same (s.withBlocks [] []) && (sameAll f s.blocks.1 && sameAll t s.blocks.2)) := by
  cases head with
  | run c f' t' =>
    cases hb
    cases s with
    | run c' f' t' =>
      simp only [withBlocks, blocks, same, sameAll, Bool.and_true, Bool.and_assoc]
    | verify c' f' t' => simp only [withBlocks, same, Bool.false_and]
    | _ => cases hown
  | verify c f' t' =>
    cases hb
    cases s with
    | run c' f' t' => simp only [withBlocks, same, Bool.false_and]
    | verify c' f' t' =>
      simp only [withBlocks, blocks, same, sameAll, Bool.and_true, Bool.and_assoc]
    | _ => cases hown
  | _ =>
    obtain ⟨rfl, rfl⟩ := ht.resolve_left nofun
    cases s with
    | run | verify => cases hown
    | _ => exact (Bool.and_true _).symm

/-- A step survives if and only if an equal one is read where it is written. -/
theorem survives_iff {s : Step} (h : s.WellFormed registry) :
    (∃ t, s.reread = some t ∧ t.same s = true) ↔ s.Survives := by
  unfold Survives family
  rw [List.forall_mem_cons, List.forall_mem_append, ← headSurvives_iff h.head,
    ← row_survives_iff h.onFailure.each, ← row_survives_iff h.onSuccess.each]
  constructor
  · rintro ⟨u, hu, he⟩
    obtain ⟨head, hhead, hu⟩ := Option.bind_eq_some_iff.mp hu
    obtain ⟨f, hf, hu⟩ := Option.bind_eq_some_iff.mp hu
    obtain ⟨t, ht, hu⟩ := Option.bind_eq_some_iff.mp hu
    cases hu
    obtain ⟨-, -, hown, hb⟩ := rereadHead_keeps_kind hhead
    rw [same_withBlocks hb (takes_of_reread hhead hf ht) hown, Bool.and_eq_true,
      Bool.and_eq_true] at he
    exact ⟨⟨head, hhead, he.1⟩, ⟨f, hf, he.2.1⟩, t, ht, he.2.2⟩
  · rintro ⟨⟨head, hhead, he⟩, ⟨f, hf, hef⟩, t, ht, het⟩
    obtain ⟨-, -, hown, hb⟩ := rereadHead_keeps_kind hhead
    refine ⟨head.withBlocks f t, ?_, ?_⟩
    · rw [reread, hhead, hf, ht]
      rfl
    · rw [same_withBlocks hb (takes_of_reread hhead hf ht) hown, he, hef, het]
      rfl

/-! ## Lists of links and references -/

/-- Equal steps list the same, and so do their blocks. -/
theorem listed_of_same {a b : Step} (h : a.same b = true) :
    a.ownLinks = b.ownLinks ∧ a.ownRefs = b.ownRefs ∧
      sameAll a.blocks.1 b.blocks.1 = true ∧ sameAll a.blocks.2 b.blocks.2 = true := by
  cases a with
  | run c f t =>
    cases b with
    | run c' f' t' =>
      simp only [same, Bool.and_eq_true] at h
      exact ⟨rfl, rfl, h.1.2, h.2⟩
    | _ => simp [same] at h
  | verify check f t =>
    cases b with
    | verify check' f' t' =>
      simp only [same, Bool.and_eq_true] at h
      refine ⟨?_, rfl, h.1.2, h.2⟩
      have hc := h.1.1
      cases check with
      | trace source target =>
        cases check' with
        | trace source' target' =>
          change (source == source' && target == target') = true at hc
          rw [Bool.and_eq_true, beq_iff_eq, beq_iff_eq] at hc
          rw [ownLinks, ownLinks, hc.1, hc.2]
        | _ => cases hc
      | _ => cases check' <;> first | rfl | cases hc
    | _ => simp [same] at h
  | refcat refs =>
    cases b with
    | refcat refs' =>
      simp only [same, beq_iff_eq] at h
      rw [h]
      exact ⟨rfl, rfl, rfl, rfl⟩
    | _ => simp [same] at h
  | _ =>
    cases b <;> first | exact ⟨rfl, rfl, rfl, rfl⟩ | simp [same] at h

/-- What steps list with the steps of their blocks, in the order in which they are written. -/
def links (steps : List Step) : List (Text × Text) := (steps.flatMap family).flatMap ownLinks

def refs (steps : List Step) : List Text := (steps.flatMap family).flatMap ownRefs

theorem flatMap_of_sameAll {α : Type} {list : Step → List α} {a b : List Step}
    (hlist : ∀ s t : Step, s.same t = true → list s = list t) (h : sameAll a b = true) :
    a.flatMap list = b.flatMap list := by
  induction a generalizing b with
  | nil =>
    cases b with
    | nil => rfl
    | cons t b => cases h
  | cons s a ih =>
    cases b with
    | nil => cases h
    | cons t b =>
      obtain ⟨hone, hall⟩ := Bool.and_eq_true_iff.mp h
      rw [List.flatMap_cons, List.flatMap_cons, hlist s t hone, ih hall]

/-- Equal lists of steps list the same. -/
theorem listed_of_sameAll {a b : List Step} (h : sameAll a b = true) :
    links a = links b ∧ refs a = refs b := by
  unfold links refs
  simp only [List.flatMap_assoc]
  constructor
  · refine flatMap_of_sameAll (fun s t hst => ?_) h
    obtain ⟨hl, -, hf, ht⟩ := listed_of_same hst
    rw [family, family, List.flatMap_cons, List.flatMap_cons, List.flatMap_append,
      List.flatMap_append, hl, flatMap_of_sameAll (fun _ _ h => (listed_of_same h).1) hf,
      flatMap_of_sameAll (fun _ _ h => (listed_of_same h).1) ht]
  · refine flatMap_of_sameAll (fun s t hst => ?_) h
    obtain ⟨-, hr, hf, ht⟩ := listed_of_same hst
    rw [family, family, List.flatMap_cons, List.flatMap_cons, List.flatMap_append,
      List.flatMap_append, hr, flatMap_of_sameAll (fun _ _ h => (listed_of_same h).2.1) hf,
      flatMap_of_sameAll (fun _ _ h => (listed_of_same h).2.1) ht]

theorem beq_eq_sameAll (a b : List Step) : (a == b) = sameAll a b := by
  induction a generalizing b with
  | nil => cases b <;> rfl
  | cons s a ih =>
    cases b with
    | nil => rfl
    | cons t b =>
      rw [List.cons_beq_cons, ih]
      rfl

end Step

/-! ## Conversations -/

/-- Settings are equal to others if they are with the points and lists of these, and have the same
points and lists. -/
theorem Settings.beq_iff_relisted {s t : Settings} : (t == s) = true ↔
    (s.relisted t == s) = true ∧ t.pausePoints = s.pausePoints ∧
      t.consultPoints = s.consultPoints ∧ t.traceLinks = s.traceLinks ∧
      t.refcatRefs = s.refcatRefs := by
  have hself (hp : t.pausePoints = s.pausePoints) (hc : t.consultPoints = s.consultPoints)
      (hl : t.traceLinks = s.traceLinks) (hr : t.refcatRefs = s.refcatRefs) :
      s.relisted t = t := by
    unfold relisted
    rw [← hp, ← hc, ← hl, ← hr]
  constructor
  · intro h
    have he := (beq_iff.mp h).2
    have hp : t.pausePoints = s.pausePoints := (congrArg Settings.pausePoints he :)
    have hc : t.consultPoints = s.consultPoints := (congrArg Settings.consultPoints he :)
    have hl : t.traceLinks = s.traceLinks := (congrArg Settings.traceLinks he :)
    have hr : t.refcatRefs = s.refcatRefs := (congrArg Settings.refcatRefs he :)
    rw [hself hp hc hl hr]
    exact ⟨h, hp, hc, hl, hr⟩
  · rintro ⟨h, hp, hc, hl, hr⟩
    rwa [hself hp hc hl hr] at h

theorem HumanPoint.map_reread_eq_iff {points : List HumanPoint}
    (h : ∀ p ∈ points, Directive.IsBlock p.message) :
    points.map reread = points ↔ ∀ p ∈ points, Directive.Survives p.message := by
  have hid : points.map reread = points ↔ ∀ p ∈ points, reread p = p := by
    conv_lhs => rhs; rw [← List.map_id points]
    exact List.map_inj_left
  refine hid.trans (forall₂_congr fun p hp => ?_)
  rw [← Directive.reread_eq_iff (h p hp)]
  obtain ⟨afterStep, message⟩ := p
  simp [reread]

namespace Compiled

/-- Everything in the conversation is read as it is written, and links and references are listed in
the order in which the steps are written. -/
structure Survives (c : Compiled) : Prop where
  settings : c.settings.Survives
  steps : ∀ s ∈ c.steps, s.Survives
  pauses : ∀ p ∈ c.settings.pausePoints, Directive.Survives p.message
  consults : ∀ p ∈ c.settings.consultPoints, Directive.Survives p.message
  links : c.settings.traceLinks = Step.links c.steps
  refs : c.settings.refcatRefs = Step.refs c.steps

/-- The settings of the conversation that is read, compared with those that were written. -/
theorem settings_beq_iff {c : Compiled} {settings : Settings} {steps : List Step}
    (hs : c.settings.reread = some settings) (hsteps : Step.sameAll steps c.steps = true) :
    (Step.listing (steps.flatMap Step.family) { settings with
      pausePoints := c.settings.pausePoints.map HumanPoint.reread
      consultPoints := c.settings.consultPoints.map HumanPoint.reread } == c.settings) = true ↔
    (c.settings.relisted settings == c.settings) = true ∧
      c.settings.pausePoints.map HumanPoint.reread = c.settings.pausePoints ∧
      c.settings.consultPoints.map HumanPoint.reread = c.settings.consultPoints ∧
      c.settings.traceLinks = Step.links c.steps ∧ c.settings.refcatRefs = Step.refs c.steps := by
  have hrest := (Settings.reread_eq_some_iff.mp hs).rest
  have hlinks : settings.traceLinks = [] := by rw [hrest]
  have hrefs : settings.refcatRefs = [] := by rw [hrest]
  obtain ⟨hl, hr⟩ := Step.listed_of_sameAll hsteps
  rw [Settings.beq_iff_relisted, ← hl, ← hr, eq_comm (a := c.settings.traceLinks),
    eq_comm (a := c.settings.refcatRefs)]
  unfold Step.listing
  rw [hlinks, hrefs]
  exact Iff.rfl

/-- A conversation that a text compiles to is written as a text that compiles to an equal one if and
only if it survives. -/
theorem reread_equal_iff {fs fs' : FileSystem} {registry : Registry} {text : Text} {c : Compiled}
    (h : ofText fs registry text = .ok c) :
    (∃ c', ofText fs' registry c.written = .ok c' ∧ (c'.settings == c.settings) = true ∧
      (c'.steps == c.steps) = true) ↔ c.Survives := by
  have hc : c.WellFormed registry := wellFormed_ofText h
  have hread : (ofText fs' registry c.written).toOption = c.reread :=
    toOption_ofText_written hc (.inl ⟨fs, registry, text, h⟩)
  have hsettings := Settings.survives_iff hc.settings
  have hsteps := Step.exists_mapM_sameAll_iff fun s hs => Step.survives_iff (hc.steps.each s hs)
  have hpauses := HumanPoint.map_reread_eq_iff hc.pauses.message
  have hconsults := HumanPoint.map_reread_eq_iff hc.consults.message
  constructor
  · rintro ⟨c', hok, heq, hsame⟩
    rw [hok] at hread
    obtain ⟨settings, hs, hread⟩ := Option.bind_eq_some_iff.mp hread.symm
    obtain ⟨steps, ht, hread⟩ := Option.bind_eq_some_iff.mp hread
    cases hread
    rw [Step.beq_eq_sameAll] at hsame
    obtain ⟨hself, hp, hq, hl, hr⟩ := (settings_beq_iff hs hsame).mp heq
    exact ⟨hsettings.mp ⟨settings, hs, hself⟩, hsteps.mp ⟨steps, ht, hsame⟩, hpauses.mp hp,
      hconsults.mp hq, hl, hr⟩
  · intro hsurvives
    obtain ⟨settings, hs, hself⟩ := hsettings.mpr hsurvives.settings
    obtain ⟨steps, ht, hsame⟩ := hsteps.mpr hsurvives.steps
    have heq := (settings_beq_iff hs hsame).mpr ⟨hself, hpauses.mpr hsurvives.pauses,
      hconsults.mpr hsurvives.consults, hsurvives.links, hsurvives.refs⟩
    rw [reread, hs, ht] at hread
    exact ⟨_, ok_of_toOption hread, heq, (Step.beq_eq_sameAll steps c.steps).trans hsame⟩

/-- The blanks that all lines below the first share are lost, and kept if a line has none. -/
theorem reread_loses_shared_blanks :
    (∃ c, ofText FileSystem.empty .empty "PROMPT\nfoo\n  bar".toList = .ok c ∧
      ¬∃ c', ofText FileSystem.empty .empty c.written = .ok c' ∧
        (c'.settings == c.settings) = true ∧ (c'.steps == c.steps) = true) ∧
    ∃ c, ofText FileSystem.empty .empty "PROMPT\nfoo\n  bar\nbaz".toList = .ok c ∧
      ∃ c', ofText FileSystem.empty .empty c.written = .ok c' ∧
        (c'.settings == c.settings) = true ∧ (c'.steps == c.steps) = true := by
  constructor
  · have hc : ofText FileSystem.empty .empty "PROMPT\nfoo\n  bar".toList =
        .ok ⟨{}, [.prompt "foo\n  bar".toList], none⟩ := by
      cbv
    refine ⟨_, hc, fun h => ?_⟩
    have hs := ((reread_equal_iff hc).mp h).steps _ (List.mem_singleton.mpr rfl) _
      List.mem_cons_self
    have hi : Directive.commonIndent ["  bar".toList] = [] := hs.2
    exact absurd hi (by decide)
  · have hc : ofText FileSystem.empty .empty "PROMPT\nfoo\n  bar\nbaz".toList =
        .ok ⟨{}, [.prompt "foo\n  bar\nbaz".toList], none⟩ := by
      cbv
    have hsettings : Settings.Survives {} :=
      ⟨by simp [Settings.wordLists], fun v hv => absurd hv List.not_mem_nil,
        fun x hx => absurd hx List.not_mem_nil, fun e he => absurd he List.not_mem_nil⟩
    refine ⟨_, hc, (reread_equal_iff hc).mpr ⟨hsettings, ?_,
      fun p hp => absurd hp List.not_mem_nil, fun p hp => absurd hp List.not_mem_nil, rfl, rfl⟩⟩
    intro s hs t ht
    rw [List.mem_singleton.mp hs] at ht
    rw [List.mem_singleton.mp ht]
    exact ⟨⟨'f', rfl, by decide⟩, by decide⟩

end Compiled

end ConversationFlow

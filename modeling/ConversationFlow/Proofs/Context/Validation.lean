import ConversationFlow.Context.Tracker
import ConversationFlow.Proofs.Compilation.Instructions

/-!
# What validation tells of loading

Where every file that a pattern matches can be read, a loading fails only for a pattern that cannot
be resolved or for mandatory patterns without files: a file that the filter denies, or that is there
already, is passed over. Validation resolves the mandatory patterns as loading does, and no others;
what is left to go wrong are the optional patterns and, before any loading, the filter. Where the
optional patterns can be resolved, the two give the same answer.
-/

namespace ConversationFlow

theorem isOk_iff {ε α : Type} {x : Except ε α} : x.isOk ↔ ∃ a, x = .ok a := by
  cases x with
  | error e => exact iff_of_false (fun h => by cases h) fun ⟨_, h⟩ => by cases h
  | ok a => exact iff_of_true rfl ⟨a, rfl⟩

theorem isOk_bind_iff {ε α β : Type} {x : Except ε α} {f : α → Except ε β} :
    (x >>= f).isOk ↔ ∃ a, x = .ok a ∧ (f a).isOk := by
  cases x with
  | error e => exact iff_of_false (fun h => by cases h) fun ⟨_, h, _⟩ => by cases h
  | ok a =>
    constructor
    · exact fun h => ⟨a, rfl, h⟩
    · rintro ⟨_, ⟨⟩, h⟩
      exact h

/-- What follows succeeds under a condition of its own. -/
theorem isOk_bind_iff_and {ε α β : Type} {x : Except ε α} {f : α → Except ε β} {P : Prop}
    (h : ∀ a, (f a).isOk ↔ P) : (x >>= f).isOk ↔ x.isOk ∧ P := by
  rw [isOk_bind_iff, isOk_iff, ← exists_and_right]
  exact exists_congr fun a => and_congr_right fun _ => h a

theorem isOk_mapM_iff {ε α β : Type} {f : α → Except ε β} {as : List α} :
    (as.mapM f).isOk ↔ ∀ a ∈ as, (f a).isOk := by
  induction as with
  | nil => exact ⟨fun _ a ha => absurd ha List.not_mem_nil, fun _ => rfl⟩
  | cons a as ih =>
    rw [List.mapM_cons, isOk_bind_iff, List.forall_mem_cons, ← ih]
    constructor
    · rintro ⟨b, hb, hrest⟩
      obtain ⟨bs, hbs, -⟩ := isOk_bind_iff.mp hrest
      exact ⟨isOk_iff.mpr ⟨b, hb⟩, isOk_iff.mpr ⟨bs, hbs⟩⟩
    · rintro ⟨ha, has⟩
      obtain ⟨b, hb⟩ := isOk_iff.mp ha
      obtain ⟨bs, hbs⟩ := isOk_iff.mp has
      exact ⟨b, hb, isOk_bind_iff.mpr ⟨bs, hbs, rfl⟩⟩

namespace ContextScope

/-- The patterns that match no file; an error if one cannot be resolved. -/
def unmatched (s : ContextScope) (fs : FileSystem) (patterns : List Text) :
    Except ContextError (List Text) := do
  let found ← patterns.mapM fun p => return (p, ← s.resolve fs p)
  return (found.filter fun f => f.2.isEmpty).map (·.1)

/-- Every file that the pattern matches can be read. -/
def CanRead (s : ContextScope) (fs : FileSystem) (pattern : Text) : Prop :=
  ∀ found, s.resolve fs pattern = .ok found → ∀ f ∈ found, (fs.read f).isOk

instance (s : ContextScope) (fs : FileSystem) (pattern : Text) : Decidable (s.CanRead fs pattern) :=
  match h : s.resolve fs pattern with
  | .error _ => isTrue fun _ hf => by cases h.symm.trans hf
  | .ok found => decidable_of_iff (∀ f ∈ found, (fs.read f).isOk)
      ⟨fun hall _ hf => Except.ok.inj (h.symm.trans hf) ▸ hall, fun hall => hall found h⟩

variable {s : ContextScope} {fs : FileSystem} {pattern : Text}

theorem unmatched_cons (rest : List Text) :
    s.unmatched fs (pattern :: rest) = (do
      let found ← s.resolve fs pattern
      let missing ← s.unmatched fs rest
      return if found.isEmpty then pattern :: missing else missing) := by
  unfold unmatched
  rw [List.mapM_cons]
  cases s.resolve fs pattern with
  | error e => rfl
  | ok found =>
    cases rest.mapM fun p => do return (p, ← s.resolve fs p) with
    | error e => rfl
    | ok others =>
      cases found with
      | nil => rfl
      | cons => rfl

theorem validate_eq (settings : Settings) :
    s.validate fs settings = (do
      let missing ← s.unmatched fs settings.context
      if !missing.isEmpty && !settings.isLenient then .error (.missingFiles missing)
      else .ok missing) := by
  unfold validate unmatched
  cases settings.context.mapM fun p => do return (p, ← s.resolve fs p) with
  | error e => rfl
  | ok found => rfl

end ContextScope

namespace ContextTracker

variable {t : ContextTracker} {fs : FileSystem} {path : Path} {pattern : Text}

theorem isFile_of_read (h : (fs.read path).isOk) : fs.isFile path = true := by
  obtain ⟨content, h⟩ := isOk_iff.mp h
  obtain ⟨l, hl, hbytes⟩ := exists_of_bind_ok h
  have hnode : fs.nodeAt? path = fs.node? l := by
    unfold FileSystem.nodeAt?
    rw [hl]
    rfl
  unfold FileSystem.isFile
  rw [hnode]
  unfold FileSystem.bytesAt at hbytes
  split at hbytes
  · next hfile => rw [hfile]
  · cases hbytes
  · cases hbytes

/-- A file that can be read is loaded or passed over. -/
theorem isOk_addFile (h : (fs.read path).isOk) : (t.addFile fs path).isOk := by
  unfold addFile
  split
  · rfl
  · obtain ⟨content, hread⟩ := isOk_iff.mp h
    rw [isFile_of_read h, hread]
    rfl

theorem isOk_addFiles {paths : List Path} (h : ∀ p ∈ paths, (fs.read p).isOk) :
    (t.addFiles fs paths).2.isOk := by
  induction paths generalizing t with
  | nil => rfl
  | cons p rest ih =>
    obtain ⟨hp, hrest⟩ := List.forall_mem_cons.mp h
    obtain ⟨⟨u, file⟩, hadd⟩ := isOk_iff.mp (isOk_addFile (t := t) hp)
    have hmore := ih (t := u) hrest
    unfold addFiles
    rw [hadd]
    dsimp only
    generalize u.addFiles fs rest = x at hmore ⊢
    obtain ⟨v, _ | files⟩ := x
    · cases hmore
    · rfl

/-- A pattern is loaded if it can be resolved. -/
theorem isOk_addPattern_iff (h : t.scope.CanRead fs pattern) :
    (t.addPattern fs pattern).2.isOk ↔ (t.scope.resolve fs pattern).isOk := by
  unfold addPattern
  cases hr : t.scope.resolve fs pattern with
  | error e => rfl
  | ok found => exact iff_of_true (isOk_addFiles (h found hr)) rfl

/-- The tracker that loaded a pattern looks up paths as before. -/
theorem scope_addPattern (t : ContextTracker) (fs : FileSystem) (pattern : Text) :
    (t.addPattern fs pattern).1.scope = t.scope :=
  (grows_addPattern t fs pattern).scope_eq

/-- The mandatory patterns fail to load only where one cannot be resolved. -/
theorem loadMandatory_eq {patterns : List Text} (h : ∀ p ∈ patterns, t.scope.CanRead fs p) :
    (t.loadMandatory fs patterns).2 = t.scope.unmatched fs patterns := by
  induction patterns generalizing t with
  | nil => rfl
  | cons p rest ih =>
    obtain ⟨hp, hrest⟩ := List.forall_mem_cons.mp h
    rw [ContextScope.unmatched_cons]
    unfold loadMandatory
    cases hr : t.scope.resolve fs p with
    | error e => rfl
    | ok found =>
      cases found with
      | nil =>
        have hmore := ih hrest
        dsimp only [bind, Except.bind]
        rw [← hmore]
        obtain ⟨u, _ | missing⟩ := t.loadMandatory fs rest
        · rfl
        · rfl
      | cons first others =>
        have hadd := (isOk_addPattern_iff hp).mpr (isOk_iff.mpr ⟨_, hr⟩)
        have hscope := t.scope_addPattern fs p
        dsimp only [bind, Except.bind]
        generalize t.addPattern fs p = x at hadd hscope ⊢
        obtain ⟨u, _ | files⟩ := x
        · cases hadd
        · dsimp only at hscope ⊢
          rw [← hscope] at hrest ⊢
          rw [ih hrest]
          cases u.scope.unmatched fs rest with
          | error e => rfl
          | ok missing => rfl

theorem isOk_loadOptional_iff {patterns : List Text}
    (h : ∀ p ∈ patterns, t.scope.CanRead fs p) :
    (t.loadOptional fs patterns).2.isOk ↔ ∀ p ∈ patterns, (t.scope.resolve fs p).isOk := by
  induction patterns generalizing t with
  | nil => exact ⟨fun _ p hp => absurd hp List.not_mem_nil, fun _ => rfl⟩
  | cons p rest ih =>
    obtain ⟨hp, hrest⟩ := List.forall_mem_cons.mp h
    have hadd := isOk_addPattern_iff hp
    have hscope := t.scope_addPattern fs p
    rw [List.forall_mem_cons, ← hadd]
    unfold loadOptional
    generalize t.addPattern fs p = x at hadd hscope ⊢
    obtain ⟨u, _ | files⟩ := x
    · exact iff_of_false (fun h => by cases h) fun h => by cases h.1
    · dsimp only at hscope ⊢
      rw [← hscope] at hrest ⊢
      rw [ih hrest]
      exact (and_iff_right rfl).symm

/-- The context of validated settings is loaded if the optional patterns can be resolved. -/
theorem isOk_load_iff {s : Settings} (h : ∀ p ∈ s.context ++ s.contextOptional, t.scope.CanRead fs p)
    (hv : (t.scope.validate fs s).isOk) :
    (t.load fs s s.isLenient).2.isOk ↔ ∀ p ∈ s.contextOptional, (t.scope.resolve fs p).isOk := by
  obtain ⟨hcontext, hcontextOptional⟩ := List.forall_mem_append.mp h
  have hmandatory := loadMandatory_eq hcontext
  have hscope := (grows_loadMandatory t fs s.context).scope_eq
  rw [ContextScope.validate_eq, ← hmandatory] at hv
  unfold load
  generalize t.loadMandatory fs s.context = x at hv hscope ⊢
  obtain ⟨u, _ | missing⟩ := x
  · cases hv
  · dsimp only [bind, Except.bind] at hv hscope ⊢
    rw [← hscope] at hcontextOptional ⊢
    rw [← isOk_loadOptional_iff hcontextOptional]
    obtain ⟨v, _ | _⟩ := u.loadOptional fs s.contextOptional
    · exact Iff.rfl
    · dsimp only
      split at hv
      · cases hv
      · next hfound =>
        rw [if_neg hfound]
        exact iff_of_true rfl rfl

/-- Where the optional patterns can be resolved, loading answers what validation answers. -/
theorem load_eq_validate {s : Settings}
    (h : ∀ p ∈ s.context ++ s.contextOptional, t.scope.CanRead fs p)
    (hr : ∀ p ∈ s.contextOptional, (t.scope.resolve fs p).isOk) :
    (t.load fs s s.isLenient).2 = t.scope.validate fs s := by
  obtain ⟨hcontext, hcontextOptional⟩ := List.forall_mem_append.mp h
  have hmandatory := loadMandatory_eq hcontext
  have hscope := (grows_loadMandatory t fs s.context).scope_eq
  rw [ContextScope.validate_eq, ← hmandatory]
  unfold load
  generalize t.loadMandatory fs s.context = x at hscope ⊢
  obtain ⟨u, _ | missing⟩ := x
  · rfl
  · dsimp only [bind, Except.bind] at hscope ⊢
    rw [← hscope] at hcontextOptional hr
    have hoptional := (isOk_loadOptional_iff hcontextOptional).mpr hr
    generalize u.loadOptional fs s.contextOptional = y at hoptional ⊢
    obtain ⟨v, _ | _⟩ := y
    · cases hoptional
    · dsimp only
      split <;> rfl

/-- The tracker of a conversation, without files yet, answers its loading as validation answers,
whatever its filter denies: with the same missing patterns in the same order, or the same error. -/
theorem first_load_eq_validate {s : Settings} {cwd workflowDir : Path} {maxTokens : Nat}
    (ht : ofSettings s cwd workflowDir maxTokens = .ok t)
    (readable : ∀ p ∈ s.context ++ s.contextOptional,
      (ContextScope.mk cwd (some workflowDir)).CanRead fs p)
    (resolved : ∀ p ∈ s.contextOptional,
      ((ContextScope.mk cwd (some workflowDir)).resolve fs p).isOk) :
    (t.load fs s s.isLenient).2 = (ContextScope.mk cwd (some workflowDir)).validate fs s := by
  obtain ⟨filter, -, ht⟩ := exists_of_bind_ok ht
  obtain rfl := Except.ok.inj ht
  exact load_eq_validate readable resolved

/-- A note and a locked file in the root directory. -/
def noteBesideLock : FileSystem where
  cwd := []
  nodes := [(["note.md".toList], .file (Text.toBytes "hello".toList)),
    (["a.lock".toList], .file (Text.toBytes "lock".toList))]

/-- A context of which one pattern matches no file, and one matches a file that is denied. -/
def contextWithGap : Settings where
  context := ["gone.md".toList, "a.lock".toList, "note.md".toList, "@lost".toList]
  contextOptional := ["absent.md".toList]
  denyFiles := ["*.lock".toList]

/-- A denied file is not missing: both answer with the patterns that match nothing. -/
theorem denied_file_is_not_missing :
    ∃ t, ofSettings contextWithGap "/" "/" 100 = .ok t ∧
      (t.load noteBesideLock contextWithGap contextWithGap.isLenient).2 =
        .error (.missingFiles ["gone.md".toList, "@lost".toList]) := by
  have ht : ofSettings contextWithGap "/" "/" 100 = .ok _ := rfl
  refine ⟨_, ht, (first_load_eq_validate ht ?_ ?_).trans rfl⟩
  · decide +kernel
  · decide +kernel

end ContextTracker

namespace Settings

/-- The patterns of the filter of a conversation. -/
def filterPatterns (s : Settings) : List Text :=
  s.allowFiles ++ s.denyFiles ++ s.contextExclude ++ s.allowDirs ++ s.denyDirs

end Settings

/-- A filter is made of the patterns that are all well-formed. -/
theorem PathFilter.isOk_ofSettings_iff (s : Settings) (base : Path) :
    (PathFilter.ofSettings s base).isOk ↔ ∀ p ∈ s.filterPatterns, (PathFilter.pattern p).isOk := by
  unfold PathFilter.ofSettings
  have hall := isOk_bind_iff_and (x := s.allowFiles.mapM pattern) fun allowFiles =>
    isOk_bind_iff_and (x := (s.denyFiles ++ s.contextExclude).mapM pattern) fun denyFiles =>
    isOk_bind_iff_and (x := s.allowDirs.mapM pattern) fun allowDirs =>
    isOk_bind_iff_and (x := s.denyDirs.mapM pattern) (P := True) fun denyDirs =>
    iff_of_true (a := (pure (f := Except ContextError)
      (PathFilter.mk base allowFiles denyFiles allowDirs denyDirs)).isOk) rfl trivial
  rw [hall]
  simp only [isOk_mapM_iff, Settings.filterPatterns, List.forall_mem_append, and_true, and_assoc]

end ConversationFlow

import ConversationFlow.Proofs.Files.Contents

/-!
# Two trackers that load the same context

Two trackers that differ in their counts, and in the contents of their files only, load the same
paths from file systems with the same paths, pass over the same ones and stop at the same error.
-/

namespace ConversationFlow

variable {R : Bytes → Bytes → Prop} {fs gs : FileSystem}

/-- Two files that were loaded by one path, from related contents. -/
inductive ContextFile.Alike (R : Bytes → Bytes → Prop) : ContextFile → ContextFile → Prop where
  | loaded (path : Path) {a b : Bytes} (contents : R a b) :
      Alike R ⟨path, Text.ofBytesLossy a, estimateTokens (Text.ofBytesLossy a)⟩
        ⟨path, Text.ofBytesLossy b, estimateTokens (Text.ofBytesLossy b)⟩

theorem ContextFile.Alike.path_eq {f g : ContextFile} (h : f.Alike R g) : f.path = g.path := by
  cases h
  rfl

namespace ContextTracker

/-- Two trackers that look up and allow the same paths and hold alike files. -/
structure Alike (R : Bytes → Bytes → Prop) (t u : ContextTracker) : Prop where
  scope : t.scope = u.scope
  filter : t.filter = u.filter
  files : List.Forall₂ (ContextFile.Alike R) t.files u.files

/-- Two loadings that leave alike trackers behind and end in one error or with answers that are
related. -/
inductive EndsAlike {α : Type} (R : Bytes → Bytes → Prop) (Q : α → α → Prop) :
    ContextTracker × Except ContextError α → ContextTracker × Except ContextError α → Prop where
  | error {t u : ContextTracker} (trackers : t.Alike R u) (e : ContextError) :
      EndsAlike R Q (t, .error e) (u, .error e)
  | ok {t u : ContextTracker} (trackers : t.Alike R u) {a b : α} (answers : Q a b) :
      EndsAlike R Q (t, .ok a) (u, .ok b)

namespace Alike

variable {t u : ContextTracker}

theorem paths_eq (h : t.Alike R u) : t.files.map (·.path) = u.files.map (·.path) := by
  obtain ⟨-, -, hfiles⟩ := h
  generalize t.files = ts, u.files = us at hfiles ⊢
  induction hfiles with
  | nil => rfl
  | cons hfile _ ih => rw [List.map_cons, List.map_cons, hfile.path_eq, ih]

theorem skips_iff (h : t.Alike R u) (path : Path) : t.Skips path ↔ u.Skips path := by
  have hloaded (v : ContextTracker) :
      (∃ f ∈ v.files, (f.path == path) = true) ↔ ∃ p ∈ v.files.map (·.path), (p == path) = true := by
    simp only [List.mem_map, exists_exists_and_eq_and]
  unfold Skips
  rw [hloaded, hloaded, h.filter, h.paths_eq]

/-- One more file on each side, loaded by one path. -/
theorem holding (h : t.Alike R u) {f g : ContextFile} (hfile : f.Alike R g) :
    (t.holding f).Alike R (u.holding g) :=
  ⟨h.scope, h.filter, List.rel_append h.files (.cons hfile .nil)⟩

theorem addFile_cases (h : t.Alike R u) (hfs : fs.Alike R gs) (path : Path) :
    (∃ e, t.addFile fs path = .error e ∧ u.addFile gs path = .error e) ∨
      ∃ t' f u' g, t.addFile fs path = .ok (t', f) ∧ u.addFile gs path = .ok (u', g) ∧
        t'.Alike R u' := by
  by_cases hs : t.Skips path
  · exact .inr ⟨_, _, _, _, addFile_of_skips hs, addFile_of_skips ((h.skips_iff path).mp hs), h⟩
  · unfold addFile
    rw [if_neg fun hs' => hs (ContextTracker.skips_iff.mpr hs'),
      if_neg fun hs' => hs ((h.skips_iff path).mpr (ContextTracker.skips_iff.mpr hs')), hfs.isFile_eq]
    split
    · exact .inl ⟨_, rfl, rfl⟩
    · obtain ⟨e, hm, hn⟩ | ⟨a, b, hm, hn, hcontents⟩ := hfs.read_cases path
      · rw [hm, hn]
        exact .inl ⟨_, rfl, rfl⟩
      · rw [hm, hn]
        exact .inr ⟨_, _, _, _, rfl, rfl, h.holding (.loaded path hcontents)⟩

theorem addFiles (h : t.Alike R u) (hfs : fs.Alike R gs) (paths : List Path) :
    EndsAlike R (fun _ _ => True) (t.addFiles fs paths) (u.addFiles gs paths) := by
  induction paths generalizing t u with
  | nil => exact .ok h trivial
  | cons path rest ih =>
    unfold ContextTracker.addFiles
    obtain ⟨e, ht, hu⟩ | ⟨t', f, u', g, ht, hu, h'⟩ := h.addFile_cases hfs path
    · rw [ht, hu]
      exact .error h e
    · rw [ht, hu]
      have hrest := ih h'
      dsimp only
      generalize t'.addFiles fs rest = x, u'.addFiles gs rest = y at hrest ⊢
      cases hrest with
      | error trackers e => exact .error trackers e
      | ok trackers _ => exact .ok trackers trivial

theorem addPattern (h : t.Alike R u) (hfs : fs.Alike R gs) (pattern : Text) :
    EndsAlike R (fun _ _ => True) (t.addPattern fs pattern) (u.addPattern gs pattern) := by
  unfold ContextTracker.addPattern
  rw [h.scope, ContextScope.resolve_eq hfs]
  cases u.scope.resolve gs pattern with
  | error e => exact .error h e
  | ok paths => exact h.addFiles hfs paths

theorem loadMandatory (h : t.Alike R u) (hfs : fs.Alike R gs) (patterns : List Text) :
    EndsAlike R (· = ·) (t.loadMandatory fs patterns) (u.loadMandatory gs patterns) := by
  induction patterns generalizing t u with
  | nil => exact .ok h rfl
  | cons pattern rest ih =>
    unfold ContextTracker.loadMandatory
    rw [h.scope, ContextScope.resolve_eq hfs]
    cases u.scope.resolve gs pattern with
    | error e => exact .error h e
    | ok paths =>
      cases paths with
      | nil =>
        have hrest := ih h
        dsimp only
        generalize t.loadMandatory fs rest = x, u.loadMandatory gs rest = y at hrest ⊢
        cases hrest with
        | error trackers e => exact .error trackers e
        | ok trackers answers => exact .ok trackers (congrArg (pattern :: ·) answers)
      | cons first others =>
        have hadd := h.addPattern hfs pattern
        dsimp only
        generalize t.addPattern fs pattern = x, u.addPattern gs pattern = y at hadd ⊢
        cases hadd with
        | error trackers e => exact .error trackers e
        | ok trackers _ => exact ih trackers

theorem loadOptional (h : t.Alike R u) (hfs : fs.Alike R gs) (patterns : List Text) :
    EndsAlike R (· = ·) (t.loadOptional fs patterns) (u.loadOptional gs patterns) := by
  induction patterns generalizing t u with
  | nil => exact .ok h rfl
  | cons pattern rest ih =>
    unfold ContextTracker.loadOptional
    have hadd := h.addPattern hfs pattern
    generalize t.addPattern fs pattern = x, u.addPattern gs pattern = y at hadd ⊢
    cases hadd with
    | error trackers e => exact .error trackers e
    | ok trackers _ => exact ih trackers

/-- Loading the context of a conversation has the same end for both trackers. -/
theorem load (h : t.Alike R u) (hfs : fs.Alike R gs) (s : Settings) (lenient : Bool) :
    EndsAlike R (· = ·) (t.load fs s lenient) (u.load gs s lenient) := by
  unfold ContextTracker.load
  have hmandatory := h.loadMandatory hfs s.context
  generalize t.loadMandatory fs s.context = x, u.loadMandatory gs s.context = y at hmandatory ⊢
  cases hmandatory with
  | error trackers e => exact .error trackers e
  | @ok t u trackers missing _ answers =>
    subst answers
    have hoptional := trackers.loadOptional hfs s.contextOptional
    dsimp only
    generalize t.loadOptional fs s.contextOptional = x, u.loadOptional gs s.contextOptional = y
      at hoptional ⊢
    cases hoptional with
    | error trackers e => exact .error trackers e
    | ok trackers _ =>
      dsimp only
      split
      · exact .error trackers _
      · exact .ok trackers rfl

end Alike

/-- Two trackers that look up and allow the same paths and hold the same files. -/
structure SameFiles (t u : ContextTracker) : Prop where
  scope : t.scope = u.scope
  filter : t.filter = u.filter
  files : t.files = u.files

variable {t u : ContextTracker}

theorem Alike.sameFiles (h : t.Alike (· = ·) u) : t.SameFiles u := by
  refine ⟨h.scope, h.filter, List.forall₂_eq_eq_eq ▸ h.files.imp fun f g hfile => ?_⟩
  cases hfile with
  | loaded path contents => rw [contents]

namespace SameFiles

theorem trans {v : ContextTracker} (h : t.SameFiles u) (h' : u.SameFiles v) : t.SameFiles v :=
  ⟨h.scope.trans h'.scope, h.filter.trans h'.filter, h.files.trans h'.files⟩

theorem render_eq (h : t.SameFiles u) : t.render = u.render := by
  unfold render
  rw [h.scope, h.files]

/-- Two trackers without files load the same ones from a file system, or none of them does. -/
theorem load_cases (h : t.SameFiles u) (hempty : u.files = []) (fs : FileSystem) (s : Settings)
    (lenient : Bool) :
    (∃ e, (t.load fs s lenient).2 = .error e ∧ (u.load fs s lenient).2 = .error e) ∨
      ∃ missing, (t.load fs s lenient).2 = .ok missing ∧ (u.load fs s lenient).2 = .ok missing ∧
        (t.load fs s lenient).1.SameFiles (u.load fs s lenient).1 := by
  have halike : t.Alike (· = ·) u := ⟨h.scope, h.filter, by rw [h.files, hempty]; exact .nil⟩
  have hload := halike.load (.refl (fun _ => rfl) fs) s lenient
  generalize t.load fs s lenient = x, u.load fs s lenient = y at hload ⊢
  cases hload with
  | error _ e => exact .inl ⟨e, rfl, rfl⟩
  | ok trackers answers => exact .inr ⟨_, rfl, congrArg _ answers.symm, trackers.sameFiles⟩

end SameFiles

end ContextTracker

end ConversationFlow

import ConversationFlow.Proofs.Context.Accounts
import ConversationFlow.Proofs.Context.Loading
import ConversationFlow.Rendered

/-!
# What a plan tells of the files

A plan names the files of the context with their estimated tokens and the turns with their raw
texts. Of what stands in the files it tells no more than those estimates: two file systems in which
each file has one estimate have the same plans.
-/

namespace ConversationFlow

/-- Two contents that are estimated alike. -/
def SameEstimate (a b : Bytes) : Prop :=
  estimateTokens (Text.ofBytesLossy a) = estimateTokens (Text.ofBytesLossy b)

instance : DecidableRel SameEstimate := fun _ _ => inferInstanceAs (Decidable (_ = _))

namespace RenderedWorkflow

variable {fs gs : FileSystem}

/-- A plan shows a file by its path and its estimate. -/
theorem renderFile_plan_eq (cwd : Path) {f g : ContextFile} (h : f.Alike SameEstimate g) :
    renderFile .plan cwd f = renderFile .plan cwd g := by
  cases h with
  | loaded path contents =>
    have htokens : estimateTokens (Text.ofBytesLossy _) = estimateTokens _ := contents
    unfold renderFile
    dsimp only
    rw [htokens]
    rfl

theorem map_renderFile_plan_eq (cwd : Path) {t u : ContextTracker} (h : t.Alike SameEstimate u) :
    t.files.map (renderFile .plan cwd) = u.files.map (renderFile .plan cwd) := by
  obtain ⟨-, -, hfiles⟩ := h
  generalize t.files = ts, u.files = us at hfiles ⊢
  induction hfiles with
  | nil => rfl
  | cons hfile _ ih => rw [List.map_cons, List.map_cons, renderFile_plan_eq cwd hfile, ih]

/-- A plan shows a turn by its place and its raw text, whatever it is framed with. -/
theorem renderPrompt_plan_eq (frame frame' : PromptFrame) (total : Nat) :
    renderPrompt frame .plan total = renderPrompt frame' .plan total := by
  funext index step
  rfl

theorem renderCycle_plan_eq (s : Settings) (vars : Variables) (context context' : Text)
    (files : List RenderedFile) (excerpts : Option Text) (turns : List Step) (total : Nat) :
    renderCycle s vars .plan context files excerpts turns total =
      renderCycle s vars .plan context' files excerpts turns total := by
  funext cycle
  unfold renderCycle
  dsimp only
  rw [renderPrompt_plan_eq]

/-- The excerpts of references are not looked up. -/
theorem renderExcerpts_plan_eq (s : Settings) (cwd workflowDir : Path) :
    renderExcerpts fs s .plan cwd workflowDir = .ok none := rfl

theorem loadContext_of_ok {c : Conversation} {cwd : Path} {empty : ContextTracker}
    (hempty : ContextTracker.ofSettings c.settings cwd c.baseDir defaultMaxTokens = .ok empty)
    {missing : List Text}
    (hload : (empty.load fs c.settings c.settings.isLenient).2 = .ok missing) :
    loadContext fs c cwd = .ok (empty.load fs c.settings c.settings.isLenient).1 := by
  unfold loadContext
  rw [hempty]
  dsimp only [bind, Except.bind]
  rw [hload]
  rfl

/-- Both contexts are loaded with the same files, or not for the same reason. -/
theorem loadContext_cases {R : Bytes → Bytes → Prop} (h : fs.Alike R gs) (c : Conversation)
    (cwd : Path) :
    (∃ e, loadContext fs c cwd = .error e ∧ loadContext gs c cwd = .error e) ∨
      ∃ t u, loadContext fs c cwd = .ok t ∧ loadContext gs c cwd = .ok u ∧ t.Alike R u := by
  unfold loadContext
  cases ht : ContextTracker.ofSettings c.settings cwd c.baseDir defaultMaxTokens with
  | error e => exact .inl ⟨e, rfl, rfl⟩
  | ok t =>
    have hempty : t.files = [] := (ContextTracker.ofSettings_holdsNothing ht).files
    have halike : t.Alike R t := ⟨rfl, rfl, by rw [hempty]; exact .nil⟩
    have hload := halike.load h c.settings c.settings.isLenient
    dsimp only [bind, Except.bind]
    generalize t.load fs c.settings c.settings.isLenient = x,
      t.load gs c.settings c.settings.isLenient = y at hload ⊢
    cases hload with
    | error _ e => exact .inl ⟨e, rfl, rfl⟩
    | ok trackers _ => exact .inr ⟨_, _, rfl, rfl, trackers⟩

/-- The contents of the files leave no trace in a plan, nor in the error of one that fails, but for
their estimated tokens. -/
theorem plan_tells_estimates_only (h : fs.Alike SameEstimate gs) (c : Conversation) (base : Path)
    (vars : Variables) (cycles : Option Nat) :
    render fs c base vars .plan cycles = render gs c base vars .plan cycles := by
  unfold render
  dsimp only
  obtain ⟨e, hfs, hgs⟩ | ⟨t, u, hfs, hgs, halike⟩ :=
    loadContext_cases h c (base.within c.settings.cwd)
  · rw [hfs, hgs]
    rfl
  · rw [hfs, hgs]
    rw [renderExcerpts_plan_eq, renderExcerpts_plan_eq]
    dsimp only [bind, Except.bind]
    rw [map_renderFile_plan_eq _ halike, renderCycle_plan_eq c.settings vars t.render u.render]

/-- A file of context in the root directory. -/
def noteOf (content : Text) : FileSystem where
  cwd := []
  nodes := [(["note.md".toList], .file (Text.toBytes content))]

theorem noteOf_alike {t u : Text} (h : SameEstimate (Text.toBytes t) (Text.toBytes u)) :
    (noteOf t).Alike SameEstimate (noteOf u) :=
  ⟨rfl, .cons ⟨rfl, .file h⟩ .nil⟩

/-- A conversation with the file as its context, and in the excerpts that it asks for. -/
def readingNote : Conversation := .ofCompiled
  ⟨{ context := ["note.md".toList], refcatRefs := ["@note.md".toList] }, [.prompt "hi".toList], none⟩

theorem plan_of_changed_note :
    ∃ w, render (noteOf "one word".toList) readingNote "/" (.ofList []) .plan none = .ok w ∧
      render (noteOf "password".toList) readingNote "/" (.ofList []) .plan none = .ok w := by
  have hsame : SameEstimate (Text.toBytes "one word".toList) (Text.toBytes "password".toList) := by
    decide +kernel
  have hplan := plan_tells_estimates_only (noteOf_alike hsame) readingNote "/" (.ofList []) none
  have hplanned : (render (noteOf "one word".toList) readingNote "/" (.ofList []) .plan none).isOk := by
    decide +kernel
  cases hw : render (noteOf "one word".toList) readingNote "/" (.ofList []) .plan none with
  | error e =>
    rw [hw] at hplanned
    cases hplanned
  | ok w => exact ⟨w, rfl, hplan.symm.trans hw⟩

end RenderedWorkflow

end ConversationFlow

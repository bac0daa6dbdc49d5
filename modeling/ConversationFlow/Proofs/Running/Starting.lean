import ConversationFlow.CommandLine.Program
import ConversationFlow.Proofs.Compilation.Cycles
import ConversationFlow.Proofs.Context.Validation
import ConversationFlow.Proofs.Running.Gates

/-!
# What a check tells of the start of a run

A conversation that passes the check has its requirements met and its mandatory context in place.
The start of a run in the same directory makes the filter of the conversation first, and loads the
optional context too: of these the check says nothing, and all else that a start can fail for it has
seen. The files are taken not to change in between.
-/

namespace ConversationFlow

/-- Who asks for the files finds these. -/
def Exchange.Finds (fs : FileSystem) : Exchange → Prop
  | ⟨.files, files⟩ => files = fs
  | _ => True

/-- What holds of every answer of a world holds of the exchanges with it. -/
theorem Dialogue.forall_run {σ β : Type} {answering : Answering σ} {P : Exchange → Prop}
    (h : ∀ request w, P ⟨request, (answering request w).1⟩) (d : Dialogue β) (w : σ) :
    ∀ x ∈ (d.run answering w).2.1, P x := by
  induction d generalizing w with
  | done b => exact fun x hx => absurd hx List.not_mem_nil
  | ask request next ih => exact List.forall_mem_cons.mpr ⟨h request w, ih _ _⟩

theorem Exchange.finds_of_world {σ : Type} {answering : Dialogue.Answering σ} {fs : FileSystem}
    (h : ∀ w, (answering .files w).1 = fs) (request : Request) (w : σ) :
    Exchange.Finds fs ⟨request, (answering request w).1⟩ := by
  cases request with
  | files => exact h w
  | _ => trivial

namespace Run

open ConversationFlow.Action

variable {r : Run} {s t : RunState} {xs : List Exchange} {fs : FileSystem}

/-- Warnings ask for nothing and end nothing. -/
theorem reaches_warnings {ι : Type} {f : ι → Text} {l : List ι} {result : Except Ending PUnit}
    (h : Action.Reaches (l.forM fun i => Action.warn (f i)) s xs result t) :
    xs = [] ∧ result = .ok ⟨⟩ ∧
      ∃ warnings, t = { s with report := { s.report with warnings } } := by
  induction l generalizing s xs with
  | nil =>
    obtain ⟨rfl, rfl, rfl⟩ := reaches_pure_iff.mp h
    exact ⟨rfl, rfl, _, rfl⟩
  | cons i l ih =>
    obtain ⟨hxs, hresult, warnings, ht⟩ := ih (reaches_modify_bind_iff.mp h)
    exact ⟨hxs, hresult, warnings, ht⟩

/-- The context is loaded from the files as they are found. -/
theorem reaches_loadContext {result : Except Ending (List Text)}
    (h : r.loadContext.Reaches s xs result t) :
    ∃ files, xs = [⟨.files, files⟩] ∧
      (let loading := s.tracker.load files r.settings r.settings.isLenient
      t = { s with tracker := loading.1 } ∧
        result = loading.2.mapError fun e => .failed (.ofContext e)) := by
  obtain ⟨files, ys, rfl, hrest⟩ := reaches_ask_bind_iff.mp h
  have hloaded : Reaches (orContextFailure (s.tracker.load files r.settings r.settings.isLenient).2)
    { s with tracker := (s.tracker.load files r.settings r.settings.isLenient).1 } ys result t :=
    hrest
  refine ⟨files, ?_⟩
  dsimp only
  cases hload : (s.tracker.load files r.settings r.settings.isLenient).2 with
  | error e =>
    rw [hload] at hloaded
    obtain ⟨rfl, rfl, rfl⟩ := reaches_throw_iff.mp hloaded
    exact ⟨rfl, rfl, rfl⟩
  | ok missing =>
    rw [hload] at hloaded
    obtain ⟨rfl, rfl, rfl⟩ := reaches_pure_iff.mp hloaded
    exact ⟨rfl, rfl, rfl⟩

/-- Where no stop file is there and the requirements are met, or need not be, a run begins if its
context is loaded. -/
theorem isOk_checkPreconditions_iff {result : Except Ending Unit}
    (hstop : s.detector.stopRequest fs = none)
    (hissues : (!(r.settings.requirementIssues fs r.workflowDir).isEmpty && !r.settings.isLenient)
      = false)
    (hfinds : ∀ x ∈ xs, x.Finds fs) (h : r.checkPreconditions.Reaches s xs result t) :
    result.isOk ↔ (s.tracker.load fs r.settings r.settings.isLenient).2.isOk := by
  obtain ⟨files, ys, rfl, hrest⟩ := reaches_ask_bind_iff.mp h
  obtain ⟨rfl, hfinds⟩ := List.forall_mem_cons.mp hfinds
  replace hrest := reaches_get_bind_iff.mp hrest
  rw [hstop] at hrest
  dsimp only at hrest
  rw [hissues, if_neg Bool.false_ne_true] at hrest
  -- The warnings about the requirements come before the loading, those about the context after it.
  rcases reaches_bind_iff.mp hrest with ⟨us, vs, _, u, rfl, hwarned, hrest⟩ | ⟨ending, rfl, hwarned⟩
  · obtain ⟨rfl, -, warnings, rfl⟩ := reaches_warnings hwarned
    rcases reaches_bind_iff.mp hrest with ⟨us, ws, missing, u, rfl, hload, hrest⟩ | ⟨ending, rfl, hload⟩
    · obtain ⟨-, rfl, -⟩ := reaches_warnings hrest
      obtain ⟨found, rfl, -, hresult⟩ := reaches_loadContext hload
      obtain rfl : found = files := hfinds _ List.mem_cons_self
      dsimp only at hresult
      generalize (s.tracker.load found r.settings r.settings.isLenient).2 = x at hresult ⊢
      cases x with
      | error e => cases hresult
      | ok missing => exact iff_of_true rfl rfl
    · obtain ⟨found, rfl, -, hresult⟩ := reaches_loadContext hload
      obtain rfl : found = files := hfinds _ List.mem_cons_self
      dsimp only at hresult
      generalize (s.tracker.load found r.settings r.settings.isLenient).2 = x at hresult ⊢
      cases x with
      | error e => exact Iff.rfl
      | ok missing => cases hresult
  · obtain ⟨-, hresult, -⟩ := reaches_warnings hwarned
    cases hresult

end Run

/-- Where the patterns of a conversation are looked up by a run in the directory. -/
def Conversation.scope (c : Conversation) (cwd : Path) : ContextScope :=
  ⟨cwd.within c.settings.cwd, some c.baseDir⟩

/-- Every file that a pattern for the context matches can be read. -/
def Conversation.CanReadContext (c : Conversation) (fs : FileSystem) (cwd : Path) : Prop :=
  ∀ p ∈ c.settings.context ++ c.settings.contextOptional, (c.scope cwd).CanRead fs p

instance (c : Conversation) (fs : FileSystem) (cwd : Path) : Decidable (c.CanReadContext fs cwd) :=
  inferInstanceAs (Decidable (∀ p ∈ _, _))

/-- A run is made ready if its filter is. -/
theorem Conversation.isOk_prepare_iff (c : Conversation) (o : RunOptions) :
    (Run.prepare c o).isOk ↔ ∀ p ∈ c.settings.filterPatterns, (PathFilter.pattern p).isOk := by
  rw [← PathFilter.isOk_ofSettings_iff c.settings (o.cwd.within c.settings.cwd)]
  unfold Run.prepare ContextTracker.ofSettings
  dsimp only
  cases PathFilter.ofSettings c.settings (o.cwd.within c.settings.cwd) with
  | error e => exact Iff.rfl
  | ok filter => exact iff_of_true rfl rfl

theorem Conversation.prepare_scope {c : Conversation} {o : RunOptions} {r : Run} {s : RunState}
    (h : Run.prepare c o = .ok (r, s)) : s.tracker.scope = c.scope o.cwd := by
  obtain ⟨tracker, htracker, rfl, rfl⟩ := Run.exists_of_prepare h
  obtain ⟨filter, -, htracker⟩ := exists_of_bind_ok htracker
  cases htracker
  rfl

namespace CommandLine

variable {fs : FileSystem} {path : Path} {c : Conversation}

/-- What a check looks at: the requirements, and the mandatory context. -/
theorem of_checked (h : checked fs path = .ok c) :
    (!(c.settings.requirementIssues fs c.baseDir).isEmpty && !c.settings.isLenient) = false ∧
      ((c.scope fs.cwd.path).validate fs c.settings).isOk := by
  obtain ⟨compiled, -, h⟩ := exists_of_bind_ok h
  dsimp only at h
  split at h
  · cases h
  · next hissues =>
    obtain ⟨missing, hvalid, h⟩ := exists_of_bind_ok h
    obtain rfl : compiled = c := Except.ok.inj h
    refine ⟨eq_false_of_ne_true hissues, ?_⟩
    unfold Conversation.scope
    generalize ContextScope.validate _ fs compiled.settings = x at hvalid ⊢
    cases x with
    | error e => cases hvalid
    | ok missing => rfl

/-- A conversation that passes the check is made ready for a run in the same directory exactly if
the patterns of its filter are well-formed, and the run then begins exactly if its optional patterns
can be resolved: there is no stop file, and what is matched can be read. -/
theorem start_of_checked (h : checked fs path = .ok c) {o : RunOptions} (hcwd : o.cwd = fs.cwd.path)
    (readable : c.CanReadContext fs o.cwd) :
    ((Run.prepare c o).isOk ↔ ∀ p ∈ c.settings.filterPatterns, (PathFilter.pattern p).isOk) ∧
      ∀ r s, Run.prepare c o = .ok (r, s) → s.detector.stopRequest fs = none →
        ∀ {σ : Type} (answering : Dialogue.Answering σ) (w : σ),
          (∀ w, (answering .files w).1 = fs) →
            (((r.checkPreconditions s).run answering w).1.1.isOk ↔
              ∀ p ∈ c.settings.contextOptional, ((c.scope o.cwd).resolve fs p).isOk) := by
  refine ⟨c.isOk_prepare_iff o, fun r s hready hstop σ answering w hfiles => ?_⟩
  obtain ⟨hissues, hvalid⟩ := of_checked h
  have hscope := Conversation.prepare_scope hready
  obtain rfl := Conversation.prepare_conversation hready
  rw [← hcwd, ← hscope] at hvalid
  unfold Conversation.CanReadContext at readable
  rw [← hscope] at readable ⊢
  have hreaches := Dialogue.reaches_of_run answering (r.checkPreconditions s) w
  have hfinds := Dialogue.forall_run (Exchange.finds_of_world hfiles) (r.checkPreconditions s) w
  have hstarts : ((r.checkPreconditions s).run answering w).1.1.isOk ↔
      (s.tracker.load fs r.settings r.settings.isLenient).2.isOk :=
    Run.isOk_checkPreconditions_iff hstop hissues hfinds hreaches
  exact hstarts.trans (ContextTracker.isOk_load_iff readable hvalid)

/-- A conversation in the root directory, beside a note that it reads. -/
def flowBesideNote (denied : Text) : FileSystem where
  cwd := []
  nodes := [(["flow.conv".toList], .file (Text.toBytes ("CONTEXT note.md\nDENY-FILES " ++ denied))),
    (["note.md".toList], .file (Text.toBytes "hello".toList))]

/-- The conversation in the file. -/
def readsNote (denied : Text) : Conversation :=
  .ofCompiled ⟨{ context := ["note.md".toList], denyFiles := [denied] }, [], some "flow.conv"⟩

/-- The file passes the check if its denial is read as one pattern, well-formed or not. -/
theorem checked_readsNote {denied : Text}
    (htext : (flowBesideNote denied).textAt ["flow.conv".toList] =
      .ok ("CONTEXT note.md\nDENY-FILES " ++ denied))
    (hlines : Directive.ofDocument .empty ("CONTEXT note.md\nDENY-FILES " ++ denied) =
      [⟨.builtin .context, "note.md".toList, 1⟩, ⟨.builtin .denyFiles, denied, 2⟩])
    (hpattern : Instruction.patterns denied = .ok [denied]) :
    checked (flowBesideNote denied) "flow.conv" = .ok (readsNote denied) := by
  have hcontext : (⟨.builtin .context, "note.md".toList, 1⟩ : Directive).instruction
      (some "flow.conv") =
      .ok (.configure fun s => { s with context := s.context ++ ["note.md".toList] }) := rfl
  have hdeny : (⟨.builtin .denyFiles, denied, 2⟩ : Directive).instruction (some "flow.conv") =
      .ok (.configure fun s => { s with denyFiles := s.denyFiles ++ [denied] }) := by
    unfold Directive.instruction
    dsimp only
    unfold Instruction.ofKeyword
    dsimp only
    rw [hpattern]
    rfl
  have hlocate : (flowBesideNote denied).locate "flow.conv" = .ok ["flow.conv".toList] := rfl
  have hfile : Compiled.ofFile (flowBesideNote denied) .empty "flow.conv" =
      .ok (readsNote denied).compiled := by
    refine Eq.trans (Compiled.ofFile_eq hlocate htext) ?_
    rw [hlines,
      Event.ofDirectives_plain hcontext fun _ => Instruction.noConfusion,
      Event.ofDirectives_plain hdeny fun _ => Instruction.noConfusion, Event.ofDirectives]
    rfl
  unfold checked Conversation.ofFile
  rw [hfile]
  rfl

/-- A run of the conversation is made ready, and it begins. -/
theorem checked_note_starts :
    ∃ r s, Run.prepare (readsNote "*.lock".toList) { cwd := "/" } = .ok (r, s) ∧
      ∀ {σ : Type} (answering : Dialogue.Answering σ) (w : σ),
        (∀ w, (answering .files w).1 = flowBesideNote "*.lock".toList) →
          ((r.checkPreconditions s).run answering w).1.1.isOk := by
  have hchecked : checked (flowBesideNote "*.lock".toList) "flow.conv" =
      .ok (readsNote "*.lock".toList) := checked_readsNote rfl rfl rfl
  have hstart := start_of_checked hchecked (o := { cwd := "/" }) rfl (by decide +kernel)
  obtain ⟨⟨r, s⟩, hready⟩ := isOk_iff.mp (hstart.1.mpr (by decide +kernel))
  refine ⟨r, s, hready, fun answering w hfiles => ?_⟩
  have hstop : s.detector.stopRequest (flowBesideNote "*.lock".toList) = none := by
    cases hready
    decide +kernel
  refine (hstart.2 r s hready hstop answering w hfiles).mpr fun p hp => ?_
  cases hp

/-- A pattern of the filter that is none passes the check, and no run is made ready. -/
theorem malformed_denial_passes_check :
    checked (flowBesideNote "[".toList) "flow.conv" = .ok (readsNote "[".toList) ∧
      (readsNote "[".toList).CanReadContext (flowBesideNote "[".toList) "/" ∧
      StopFile.read (flowBesideNote "[".toList) "/" [] = none ∧
      (Run.prepare (readsNote "[".toList) { cwd := "/" }).isOk = false :=
  ⟨checked_readsNote rfl rfl rfl, by decide +kernel, by decide +kernel, by decide +kernel⟩

end CommandLine

end ConversationFlow

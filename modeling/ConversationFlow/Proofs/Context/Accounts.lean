import ConversationFlow.Context.Tracker
import Mathlib.Algebra.BigOperators.Group.List.Basic
import Mathlib.Algebra.GroupWithZero.Nat
import Mathlib.Data.Bool.Basic

/-!
# The accounts of a context tracker

A tracker counts the tokens of its files when it loads them and does not count them again. Its
count agrees with its files whatever was asked of it before, in whatever order, and whichever
requests failed half way: all that loads files loads them one by one (`ContextTracker.Grows`), and
only `clearFiles` takes files away. The files may change between two requests; nothing is said of
a loaded text that is out of date.
-/

namespace ConversationFlow

/-- What is asked of a tracker. -/
inductive TrackerRequest where
  | addFile (path : Path)
  | addPattern (pattern : Text)
  | load (settings : Settings) (lenient : Bool)
  | addTurn (prompt response : Text)
  | setConversationTokens (n : Nat)
  | resetConversation
  | clearFiles

namespace ContextTracker

variable {t u : ContextTracker}

/-- The tracker after a request. One that fails leaves behind what it did until then. -/
def after (t : ContextTracker) (fs : FileSystem) : TrackerRequest → ContextTracker
  | .addFile path =>
    match t.addFile fs path with
    | .ok (u, _) => u
    | .error _ => t
  | .addPattern pattern => (t.addPattern fs pattern).1
  | .load settings lenient => (t.load fs settings lenient).1
  | .addTurn prompt response => t.addTurn prompt response
  | .setConversationTokens n => t.setConversationTokens n
  | .resetConversation => t.resetConversation
  | .clearFiles => t.clearFiles

/-- The tracker after requests in order, each with the files that it finds. -/
def afterAll (t : ContextTracker) (requests : List (FileSystem × TrackerRequest)) :
    ContextTracker :=
  requests.foldl (fun t request => t.after request.1 request.2) t

/-- The tokens of the loaded files. -/
def loadedTokens (t : ContextTracker) : Nat := (t.files.map (·.tokens)).sum

/-- The count of the tokens agrees with the files, which are allowed and loaded once each. -/
structure Consistent (t : ContextTracker) : Prop where
  counted : t.fileTokens = t.loadedTokens
  estimated : ∀ f ∈ t.files, f.tokens = estimateTokens f.content
  loadedOnce : t.files.Pairwise fun f g => (f.path == g.path) = false
  allowed : ∀ f ∈ t.files, ∀ filter, t.filter = some filter → filter.allows f.path = true

theorem Consistent.of_no_files (hf : t.files = []) (hc : t.fileTokens = 0) : t.Consistent where
  counted := by
    rw [hc, loadedTokens, hf]
    rfl
  estimated f h := by
    rw [hf] at h
    cases h
  loadedOnce := by
    rw [hf]
    exact .nil
  allowed f h := by
    rw [hf] at h
    cases h

/-- One more file, allowed and new. -/
theorem Consistent.holding (h : t.Consistent) {file : ContextFile} (isNew : ¬t.Skips file.path)
    (estimated : file.tokens = estimateTokens file.content) : (t.holding file).Consistent := by
  obtain ⟨hallowed, hnew⟩ := not_or.mp isNew
  refine ⟨?_, ?_, ?_, ?_⟩
  · unfold ContextTracker.holding loadedTokens
    dsimp only
    rw [List.map_append, List.sum_append, h.counted]
    exact congrArg (t.loadedTokens + ·) (List.sum_singleton).symm
  · exact List.forall_mem_append.mpr ⟨h.estimated, List.forall_mem_singleton.mpr estimated⟩
  · refine List.pairwise_append.mpr ⟨h.loadedOnce, List.pairwise_singleton _ _, fun f hf g hg => ?_⟩
    rw [List.mem_singleton.mp hg]
    exact Bool.eq_false_of_not_eq_true fun he => hnew ⟨f, hf, he⟩
  · refine List.forall_mem_append.mpr ⟨h.allowed, List.forall_mem_singleton.mpr ?_⟩
    intro filter hfilter
    exact Bool.eq_true_of_not_eq_false fun hd => hallowed ⟨filter, hfilter, hd⟩

theorem Consistent.grows (h : t.Consistent) (hg : Grows t u) : u.Consistent := by
  induction hg with
  | refl => exact h
  | load file _ isNew estimated ih => exact ih.holding isNew estimated

/-- All the tokens that are taken off with the files were counted before. -/
theorem Consistent.clearFiles_fileTokens (h : t.Consistent) : t.clearFiles.fileTokens = 0 := by
  have hsum : (t.files.map (·.tokens)).foldr (· + ·) 0 = t.loadedTokens := List.sum_eq_foldr.symm
  unfold clearFiles
  rw [hsum, h.counted]
  exact Nat.sub_self _

theorem grows_after_addFile (fs : FileSystem) (path : Path) :
    Grows t (t.after fs (.addFile path)) := by
  change Grows t (match t.addFile fs path with
    | .ok (u, _) => u
    | .error _ => t)
  split
  · next hadd => exact (addFile_ok hadd).1
  · exact .refl

/-- No request but `clearFiles` takes a file away, and none makes the tracker inconsistent. -/
theorem Consistent.after (h : t.Consistent) (fs : FileSystem) (request : TrackerRequest) :
    (t.after fs request).Consistent := by
  cases request with
  | addFile path => exact h.grows (grows_after_addFile fs path)
  | addPattern pattern => exact h.grows (grows_addPattern t fs pattern)
  | load settings lenient => exact h.grows (grows_load t fs settings lenient)
  | addTurn => exact ⟨h.counted, h.estimated, h.loadedOnce, h.allowed⟩
  | setConversationTokens => exact ⟨h.counted, h.estimated, h.loadedOnce, h.allowed⟩
  | resetConversation => exact ⟨h.counted, h.estimated, h.loadedOnce, h.allowed⟩
  | clearFiles => exact .of_no_files rfl h.clearFiles_fileTokens

theorem Consistent.afterAll (h : t.Consistent) (requests : List (FileSystem × TrackerRequest)) :
    (t.afterAll requests).Consistent := by
  induction requests generalizing t with
  | nil => exact h
  | cons request rest ih => exact ih (h.after request.1 request.2)

/-! ## Settled patterns -/

/-- What is settled stays so until the files are cleared. -/
theorem Settles.after {pattern : Text} {fs : FileSystem} (h : t.Settles fs pattern)
    (gs : FileSystem) {request : TrackerRequest} (hr : request ≠ .clearFiles) :
    (t.after gs request).Settles fs pattern := by
  cases request with
  | addFile path => exact (grows_after_addFile gs path).settles h
  | addPattern p => exact (grows_addPattern t gs p).settles h
  | load settings lenient => exact (grows_load t gs settings lenient).settles h
  | addTurn => exact h
  | setConversationTokens => exact h
  | resetConversation => exact h
  | clearFiles => exact absurd rfl hr

theorem Settles.afterAll {pattern : Text} {fs : FileSystem} (h : t.Settles fs pattern)
    {requests : List (FileSystem × TrackerRequest)} (hr : ∀ r ∈ requests, r.2 ≠ .clearFiles) :
    (t.afterAll requests).Settles fs pattern := by
  induction requests generalizing t with
  | nil => exact h
  | cons request rest ih =>
    obtain ⟨hone, hrest⟩ := List.forall_mem_cons.mp hr
    exact ih (h.after request.1 hone) hrest

/-! ## The accounts -/

/-- The tracker has no files yet. -/
structure HoldsNothing (t : ContextTracker) : Prop where
  files : t.files = []
  fileTokens : t.fileTokens = 0

/-- The tracker of a conversation begins without files, whatever its filter. -/
theorem ofSettings_holdsNothing {s : Settings} {cwd workflowDir : Path} {maxTokens : Nat}
    (h : ofSettings s cwd workflowDir maxTokens = .ok t) : t.HoldsNothing := by
  unfold ofSettings at h
  cases hf : PathFilter.ofSettings s cwd with
  | error e =>
    rw [hf] at h
    cases h
  | ok filter =>
    rw [hf] at h
    cases h
    exact ⟨rfl, rfl⟩

/-- What holds of a tracker with the given filter, whatever was asked of it before. -/
structure KeepsAccounts (filter : Option PathFilter) (t : ContextTracker) : Prop where
  consistent : t.Consistent
  filtered : t.filter = filter
  used : t.usedTokens = t.loadedTokens + t.conversationTokens
  /-- Clearing the files takes off no more than was counted, and leaves nothing. -/
  coversFiles : t.loadedTokens ≤ t.fileTokens
  clears : t.clearFiles.files = [] ∧ t.clearFiles.fileTokens = 0
  /-- A file that is passed over changes nothing, -/
  passesOver : ∀ fs path u, t.addFile fs path = .ok (u, none) → u = t
  /-- and neither does one that cannot be loaded, also where others were to follow it. -/
  refuses : ∀ fs path e, t.addFile fs path = .error e →
    t.after fs (.addFile path) = t ∧ ∀ rest, t.addFiles fs (path :: rest) = (t, .error e)
  /-- The context that was loaded need not be loaded again on the same files, whatever was asked of
  the tracker since then, unless the files were cleared. -/
  loadsOnce : ∀ fs s lenient u missing, t.load fs s lenient = (u, .ok missing) →
    ∀ later : List (FileSystem × TrackerRequest), (∀ r ∈ later, r.2 ≠ .clearFiles) →
      (∀ lenient', ((u.afterAll later).load fs s lenient').1 = u.afterAll later) ∧
        ((u.afterAll later).load fs s lenient).2 = .ok missing

/-- Only a file that is passed over is answered by none. -/
theorem eq_of_addFile_none {fs : FileSystem} {path : Path}
    (h : t.addFile fs path = .ok (u, none)) : u = t := by
  by_cases hs : t.Skips path
  · rw [addFile_of_skips hs] at h
    cases h
    rfl
  · rcases addFile_of_not_skips fs hs with ⟨e, he⟩ | ⟨file, -, -, hok⟩
    · rw [he] at h
      cases h
    · rw [hok] at h
      cases h

/-- Where patterns are looked up and what may be loaded stays as it is. -/
theorem setting_after (t : ContextTracker) (fs : FileSystem) (request : TrackerRequest) :
    (t.after fs request).scope = t.scope ∧ (t.after fs request).filter = t.filter := by
  have hgrown {u : ContextTracker} (h : Grows t u) : u.scope = t.scope ∧ u.filter = t.filter :=
    ⟨h.scope_eq, h.filter_eq⟩
  cases request with
  | addFile path => exact hgrown (grows_after_addFile fs path)
  | addPattern pattern => exact hgrown (grows_addPattern t fs pattern)
  | load settings lenient => exact hgrown (grows_load t fs settings lenient)
  | addTurn | setConversationTokens | resetConversation | clearFiles => exact ⟨rfl, rfl⟩

theorem setting_afterAll (t : ContextTracker) (requests : List (FileSystem × TrackerRequest)) :
    (t.afterAll requests).scope = t.scope ∧ (t.afterAll requests).filter = t.filter := by
  induction requests generalizing t with
  | nil => exact ⟨rfl, rfl⟩
  | cons request rest ih =>
    obtain ⟨hscope, hfilter⟩ := ih (t.after request.1 request.2)
    obtain ⟨hscope', hfilter'⟩ := t.setting_after request.1 request.2
    exact ⟨hscope.trans hscope', hfilter.trans hfilter'⟩

theorem load_afterAll {fs : FileSystem} {s : Settings} {lenient : Bool} {missing : List Text}
    (h : t.load fs s lenient = (u, .ok missing)) {later : List (FileSystem × TrackerRequest)}
    (hl : ∀ r ∈ later, r.2 ≠ .clearFiles) :
    (∀ lenient', ((u.afterAll later).load fs s lenient').1 = u.afterAll later) ∧
      ((u.afterAll later).load fs s lenient).2 = .ok missing := by
  obtain ⟨hsettled, hmissing, hlenient⟩ := load_ok h
  have hgrows := grows_load t fs s lenient
  rw [h] at hgrows
  have hlater : ∀ p ∈ s.context ++ s.contextOptional, (u.afterAll later).Settles fs p :=
    fun p hp => (hsettled p hp).afterAll hl
  have hfound : withoutFiles (u.afterAll later).scope fs s.context = missing := by
    rw [(u.setting_afterAll later).1, hgrows.scope_eq, hmissing]
  refine ⟨fun lenient' => ?_, ?_⟩
  · rw [load_of_settles hlater]
  · rw [load_of_settles hlater, hfound]
    exact if_neg (ne_true_of_eq_false hlenient)

/-- Whatever is asked of a tracker that began without files, its accounts agree. -/
theorem keeps_accounts (h : t.HoldsNothing) (requests : List (FileSystem × TrackerRequest)) :
    KeepsAccounts t.filter (t.afterAll requests) := by
  have hall := (Consistent.of_no_files h.files h.fileTokens).afterAll requests
  exact {
    consistent := hall
    filtered := (t.setting_afterAll requests).2
    used := congrArg (· + _) hall.counted
    coversFiles := Nat.le_of_eq hall.counted.symm
    clears := ⟨rfl, hall.clearFiles_fileTokens⟩
    passesOver := fun fs path u => eq_of_addFile_none
    refuses := fun fs path e he => by
      refine ⟨?_, fun rest => ?_⟩
      · change (match (t.afterAll requests).addFile fs path with
          | .ok (u, _) => u
          | .error _ => t.afterAll requests) = _
        rw [he]
      · rw [addFiles, he]
    loadsOnce := fun fs s lenient u missing hload later => load_afterAll hload }

/-- Two files in the root directory. -/
def noteAndLock : FileSystem where
  cwd := []
  nodes := [(["note.md".toList], .file (Text.toBytes "eight ch".toList)),
    (["a.lock".toList], .file (Text.toBytes "lock".toList))]

/-- What is asked of the tracker: of the two files one is denied, and one is loaded once only. -/
def requestsOfNote : List (FileSystem × TrackerRequest) :=
  [(noteAndLock, .addFile "/a.lock"), (noteAndLock, .load { context := ["note.md".toList] } false),
    (noteAndLock, .addFile "/note.md"), (noteAndLock, .setConversationTokens 5)]

theorem denied_file_is_not_counted :
    ∃ t, ofSettings { denyFiles := ["*.lock".toList] } "/" "/" 100 = .ok t ∧
      KeepsAccounts t.filter (t.afterAll requestsOfNote) ∧
      (t.afterAll requestsOfNote).usedTokens = 7 := by
  have ht : ofSettings { denyFiles := ["*.lock".toList] } "/" "/" 100 = .ok _ := rfl
  refine ⟨_, ht, keeps_accounts (ofSettings_holdsNothing ht) _, ?_⟩
  decide +kernel

end ContextTracker

end ConversationFlow

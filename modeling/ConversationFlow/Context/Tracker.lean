import ConversationFlow.Context.Filter

/-!
# Context tracking

A tracker holds the files that a conversation sends as context and counts the tokens
that they and the turns so far take. Patterns are looked up below the working
directory and, if nothing matches there, below the directory of the workflow.
-/

namespace ConversationFlow

/-- The estimated number of tokens of a text: one for four characters. -/
def estimateTokens (t : Text) : Nat := t.length / 4

/-- A file that was loaded. -/
structure ContextFile where
  path : Path
  content : Text
  tokens : Nat
deriving DecidableEq

/-- How much of the context is in use. -/
structure ContextStatus where
  filesLoaded : Nat
  fileTokens : Nat
  conversationTokens : Nat
  totalTokens : Nat
  usage : Float
  nearLimit : Bool
  availableTokens : Nat

/-- Where patterns are looked up. -/
structure ContextScope where
  cwd : Path
  workflowDir : Option Path

/-- The files loaded so far and the tokens in use. -/
structure ContextTracker where
  scope : ContextScope
  maxTokens : Nat
  limit : Float
  filter : Option PathFilter
  files : List ContextFile := []
  fileTokens : Nat := 0
  conversationTokens : Nat := 0

namespace ContextScope

/-- The files that a path names: those that match it as a pattern, those below it as a
directory, or itself. -/
def filesOf (fs : FileSystem) (path : Path) : Except ContextError (List Path) :=
  if Glob.isPattern path.text then
    match fs.expand path.text with
    | .ok found => .ok (found.filter fs.isFile)
    | .error e => .error (.invalidPattern path.text (.glob e))
  else
    match fs.locate path with
    | .error _ => .ok []
    | .ok l =>
      match fs.node? l with
      | some .directory =>
        .ok (Path.sort ((fs.filesBelow l).map fun names =>
          names.foldl (fun p n => p.join ⟨n⟩) path))
      | some (.file _) => .ok [path]
      | none => .ok []

/-- The directories in which relative patterns are looked up, in order. -/
def bases (s : ContextScope) : List Path :=
  match s.workflowDir with
  | some dir => if dir == s.cwd then [s.cwd] else [s.cwd, dir]
  | none => [s.cwd]

/-- The files of a relative pattern below the first base that has any. -/
def firstFound (fs : FileSystem) (raw : Path) : List Path → Except ContextError (List Path)
  | [] => .ok []
  | base :: rest => do
    let found ← filesOf fs (base.join raw)
    if found.isEmpty then firstFound fs raw rest else return found

/-- The files of a pattern. -/
def resolve (s : ContextScope) (fs : FileSystem) (pattern : Text) :
    Except ContextError (List Path) :=
  let raw : Path := ⟨(Text.trim pattern).dropWhile (· = '@')⟩
  if raw.isEmpty then .error (.invalidPattern pattern .empty)
  else if raw.isAbsolute then filesOf fs raw
  else firstFound fs raw s.bases

/-- The mandatory patterns that match no file; an error unless validation is lenient. -/
def validate (s : ContextScope) (fs : FileSystem) (settings : Settings) :
    Except ContextError (List Text) := do
  let found ← settings.context.mapM fun p => return (p, ← s.resolve fs p)
  let missing := (found.filter fun f => f.2.isEmpty).map (·.1)
  if !missing.isEmpty && !settings.isLenient then .error (.missingFiles missing) else .ok missing

end ContextScope

namespace ContextTracker

/-- A tracker without files. -/
def fresh (cwd : Path) (maxTokens : Nat) : ContextTracker where
  scope := ⟨cwd, none⟩
  maxTokens
  limit := 0.8
  filter := none

/-- The tracker of a conversation. -/
def ofSettings (s : Settings) (cwd workflowDir : Path) (maxTokens : Nat) :
    Except ContextError ContextTracker := do
  let filter ← PathFilter.ofSettings s cwd
  return {
    scope := ⟨cwd, some workflowDir⟩
    maxTokens
    limit := s.contextShare
    filter := if filter.isEmpty then none else some filter }

def allows (t : ContextTracker) (path : Path) : Bool :=
  match t.filter with
  | some f => f.allows path
  | none => true

/-- Loads a file, unless the filter denies it or it is loaded already. -/
def addFile (t : ContextTracker) (fs : FileSystem) (path : Path) :
    Except ContextError (ContextTracker × Option ContextFile) :=
  if !t.allows path || t.files.any (·.path == path) then .ok (t, none)
  else if !fs.isFile path then .error (.fileNotFound path)
  else
    match fs.read path with
    | .error cause => .error (.io path cause)
    | .ok bytes =>
      let content := Text.ofBytesLossy bytes
      let file : ContextFile := ⟨path, content, estimateTokens content⟩
      .ok ({ t with files := t.files ++ [file], fileTokens := t.fileTokens + file.tokens }, some file)

/-- Loads files in order up to the first error. The tracker keeps what was loaded before it. -/
def addFiles (t : ContextTracker) (fs : FileSystem) :
    List Path → ContextTracker × Except ContextError (List ContextFile)
  | [] => (t, .ok [])
  | p :: rest =>
    match t.addFile fs p with
    | .error e => (t, .error e)
    | .ok (t, file) =>
      match t.addFiles fs rest with
      | (t, .ok files) => (t, .ok (file.toList ++ files))
      | (t, .error e) => (t, .error e)

/-- Loads the files of a pattern. -/
def addPattern (t : ContextTracker) (fs : FileSystem) (pattern : Text) :
    ContextTracker × Except ContextError (List ContextFile) :=
  match t.scope.resolve fs pattern with
  | .error e => (t, .error e)
  | .ok paths => t.addFiles fs paths

/-- Loads the files of mandatory patterns; those without any file are the answer. -/
def loadMandatory (t : ContextTracker) (fs : FileSystem) :
    List Text → ContextTracker × Except ContextError (List Text)
  | [] => (t, .ok [])
  | p :: rest =>
    match t.scope.resolve fs p with
    | .error e => (t, .error e)
    | .ok [] =>
      match t.loadMandatory fs rest with
      | (t, .ok missing) => (t, .ok (p :: missing))
      | (t, .error e) => (t, .error e)
    | .ok (_ :: _) =>
      match t.addPattern fs p with
      | (t, .error e) => (t, .error e)
      | (t, .ok _) => t.loadMandatory fs rest

def loadOptional (t : ContextTracker) (fs : FileSystem) :
    List Text → ContextTracker × Except ContextError Unit
  | [] => (t, .ok ())
  | p :: rest =>
    match t.addPattern fs p with
    | (t, .error e) => (t, .error e)
    | (t, .ok _) => t.loadOptional fs rest

/-- Loads the context of a conversation. The answer is the mandatory patterns without files,
an error unless they are tolerated. -/
def load (t : ContextTracker) (fs : FileSystem) (s : Settings) (lenient : Bool) :
    ContextTracker × Except ContextError (List Text) :=
  match t.loadMandatory fs s.context with
  | (t, .error e) => (t, .error e)
  | (t, .ok missing) =>
    match t.loadOptional fs s.contextOptional with
    | (t, .error e) => (t, .error e)
    | (t, .ok ()) =>
      if !missing.isEmpty && !lenient then (t, .error (.missingFiles missing))
      else (t, .ok missing)

/-- Counts a turn. -/
def addTurn (t : ContextTracker) (prompt response : Text) : ContextTracker :=
  { t with conversationTokens :=
      t.conversationTokens + (estimateTokens prompt + estimateTokens response) }

def setConversationTokens (t : ContextTracker) (n : Nat) : ContextTracker :=
  { t with conversationTokens := n }

def resetConversation (t : ContextTracker) : ContextTracker := { t with conversationTokens := 0 }

/-- Forgets the files and takes their tokens off. -/
def clearFiles (t : ContextTracker) : ContextTracker :=
  { t with files := [], fileTokens := t.fileTokens - (t.files.map (·.tokens)).foldr (· + ·) 0 }

def usedTokens (t : ContextTracker) : Nat := t.fileTokens + t.conversationTokens

/-- The share of the context in use; zero if the context holds nothing. -/
def usage (t : ContextTracker) : Float :=
  if t.maxTokens = 0 then 0.0 else Float.ofNat t.usedTokens / Float.ofNat t.maxTokens

/-- Whether the share in use reaches the limit. -/
def nearLimit (t : ContextTracker) : Bool := t.usage ≥ t.limit

def status (t : ContextTracker) : ContextStatus where
  filesLoaded := t.files.length
  fileTokens := t.fileTokens
  conversationTokens := t.conversationTokens
  totalTokens := t.usedTokens
  usage := t.usage
  nearLimit := t.nearLimit
  availableTokens := (Float.ofNat t.maxTokens * t.limit).floor.toUInt64.toNat - t.usedTokens

private def section_ (cwd : Path) (f : ContextFile) : Text :=
  "\n## " ++ (f.path.shownFrom cwd).text ++ "\n\n```" ++ f.path.extension?.getD [] ++ "\n" ++
    (f.content.reverse.dropWhile (· = '\n')).reverse ++ "\n```\n"

/-- The loaded files as text for the agent. -/
def render (t : ContextTracker) : Text :=
  if t.files.isEmpty then []
  else "# Context Files\n" ++ t.files.flatMap (section_ t.scope.cwd)

/-! ## What loading comes to

Whatever loads files puts them behind the others one by one, each of them allowed and new
(`Grows`). A path is settled if it would not be loaded any more (`Skips`); loading settles the
paths of its patterns, and where all are settled it changes nothing. -/

variable {t u v : ContextTracker} {fs : FileSystem} {path : Path}

/-- The path is passed over: the filter denies it, or it is loaded already. -/
def Skips (t : ContextTracker) (path : Path) : Prop :=
  (∃ f, t.filter = some f ∧ f.allows path = false) ∨ ∃ f ∈ t.files, (f.path == path) = true

/-- The tracker with one more file. -/
def holding (t : ContextTracker) (file : ContextFile) : ContextTracker :=
  { t with files := t.files ++ [file], fileTokens := t.fileTokens + file.tokens }

/-- The second tracker comes from the first by loading files that were allowed and new. -/
inductive Grows (t : ContextTracker) : ContextTracker → Prop where
  | refl : Grows t t
  | load {u : ContextTracker} (file : ContextFile) (h : Grows t u) (isNew : ¬u.Skips file.path)
      (estimated : file.tokens = estimateTokens file.content) : Grows t (u.holding file)

theorem skips_iff :
    t.Skips path ↔ (!t.allows path || t.files.any (·.path == path)) = true := by
  unfold Skips allows
  cases t.filter <;> simp

theorem addFile_of_skips (h : t.Skips path) : t.addFile fs path = .ok (t, none) := by
  unfold addFile
  rw [if_pos (skips_iff.mp h)]

/-- A path that is not passed over is loaded, or there is an error. -/
theorem addFile_of_not_skips (fs : FileSystem) (h : ¬t.Skips path) :
    (∃ e, t.addFile fs path = .error e) ∨
      ∃ file, file.path = path ∧ file.tokens = estimateTokens file.content ∧
        t.addFile fs path = .ok (t.holding file, some file) := by
  unfold addFile
  rw [if_neg fun hs => h (skips_iff.mpr hs)]
  split
  · exact .inl ⟨_, rfl⟩
  · split
    · exact .inl ⟨_, rfl⟩
    · exact .inr ⟨⟨path, _, _⟩, rfl, rfl, rfl⟩

namespace Grows

theorem trans (h : Grows t u) (h' : Grows u v) : Grows t v := by
  induction h' with
  | refl => exact h
  | load file _ isNew estimated ih => exact .load file ih isNew estimated

theorem scope_eq (h : Grows t u) : u.scope = t.scope := by
  induction h with
  | refl => rfl
  | load _ _ _ _ ih => exact ih

theorem filter_eq (h : Grows t u) : u.filter = t.filter := by
  induction h with
  | refl => rfl
  | load _ _ _ _ ih => exact ih

/-- What was passed over stays so. -/
theorem skips (h : Grows t u) (hs : t.Skips path) : u.Skips path := by
  induction h with
  | refl => exact hs
  | load file _ _ _ ih =>
    rcases ih with hdenied | ⟨f, hf, hpath⟩
    · exact .inl hdenied
    · exact .inr ⟨f, List.mem_append_left _ hf, hpath⟩

end Grows

theorem skips_holding (file : ContextFile) : (t.holding file).Skips file.path :=
  .inr ⟨file, List.mem_append_right _ List.mem_cons_self, beq_self_eq_true file.path.parts⟩

/-- A file that is added, or passed over, is passed over from then on. -/
theorem addFile_ok {file : Option ContextFile} (h : t.addFile fs path = .ok (u, file)) :
    Grows t u ∧ u.Skips path := by
  by_cases hs : t.Skips path
  · rw [addFile_of_skips hs] at h
    cases h
    exact ⟨.refl, hs⟩
  · rcases addFile_of_not_skips fs hs with ⟨e, he⟩ | ⟨file, rfl, hest, hok⟩
    · rw [he] at h
      cases h
    · rw [hok] at h
      cases h
      exact ⟨.load file .refl hs hest, skips_holding file⟩

theorem grows_addFiles (t : ContextTracker) (fs : FileSystem) (paths : List Path) :
    Grows t (t.addFiles fs paths).1 := by
  induction paths generalizing t with
  | nil => exact .refl
  | cons p rest ih =>
    unfold addFiles
    split
    · exact .refl
    · next u file hadd =>
      have hrest := (addFile_ok hadd).1.trans (ih u)
      split <;> next heq => rwa [heq] at hrest

/-- Where the files were added without an error, their paths are passed over from then on. -/
theorem skips_of_addFiles {paths : List Path} {files : List ContextFile}
    (h : t.addFiles fs paths = (u, .ok files)) : ∀ p ∈ paths, u.Skips p := by
  induction paths generalizing t files with
  | nil => exact fun p hp => absurd hp List.not_mem_nil
  | cons p rest ih =>
    unfold addFiles at h
    split at h
    · cases h
    · next v file hadd =>
      split at h
      · next w more heq =>
        cases h
        have hgrows := grows_addFiles v fs rest
        rw [heq] at hgrows
        exact List.forall_mem_cons.mpr ⟨hgrows.skips (addFile_ok hadd).2, ih heq⟩
      · cases h

theorem addFiles_of_skips {paths : List Path} (h : ∀ p ∈ paths, t.Skips p) :
    t.addFiles fs paths = (t, .ok []) := by
  induction paths with
  | nil => rfl
  | cons p rest ih =>
    obtain ⟨hp, hrest⟩ := List.forall_mem_cons.mp h
    rw [addFiles, addFile_of_skips hp]
    dsimp only
    rw [ih hrest]
    rfl

theorem grows_addPattern (t : ContextTracker) (fs : FileSystem) (pattern : Text) :
    Grows t (t.addPattern fs pattern).1 := by
  unfold addPattern
  split
  · exact .refl
  · exact grows_addFiles t fs _

/-- The pattern finds files that are all passed over, or none. -/
def Settles (t : ContextTracker) (fs : FileSystem) (pattern : Text) : Prop :=
  ∃ paths, t.scope.resolve fs pattern = .ok paths ∧ ∀ p ∈ paths, t.Skips p

theorem Grows.settles {pattern : Text} (h : Grows t u) (hs : t.Settles fs pattern) :
    u.Settles fs pattern := by
  obtain ⟨paths, hpaths, hskips⟩ := hs
  refine ⟨paths, ?_, fun p hp => h.skips (hskips p hp)⟩
  rwa [h.scope_eq]

theorem settles_of_addPattern {pattern : Text} {files : List ContextFile}
    (h : t.addPattern fs pattern = (u, .ok files)) : u.Settles fs pattern := by
  have hgrows := grows_addPattern t fs pattern
  rw [h] at hgrows
  unfold addPattern at h
  split at h
  · cases h
  · next paths hpaths =>
    refine ⟨paths, ?_, skips_of_addFiles h⟩
    rwa [hgrows.scope_eq]

theorem addPattern_of_settles {pattern : Text} (h : t.Settles fs pattern) :
    t.addPattern fs pattern = (t, .ok []) := by
  obtain ⟨paths, hpaths, hskips⟩ := h
  unfold addPattern
  rw [hpaths]
  exact addFiles_of_skips hskips

/-- The patterns without any file. -/
def withoutFiles (scope : ContextScope) (fs : FileSystem) (patterns : List Text) : List Text :=
  patterns.filter fun p => scope.resolve fs p matches .ok []

theorem grows_loadMandatory (t : ContextTracker) (fs : FileSystem)
    (patterns : List Text) : Grows t (t.loadMandatory fs patterns).1 := by
  induction patterns generalizing t with
  | nil => exact .refl
  | cons p rest ih =>
    unfold loadMandatory
    split
    · exact .refl
    · have hrest := ih t
      split <;> next heq => rwa [heq] at hrest
    · have hadd := grows_addPattern t fs p
      split
      · next heq => rwa [heq] at hadd
      · next heq =>
        rw [heq] at hadd
        exact hadd.trans (ih _)

private theorem loadMandatory_ok {patterns missing : List Text}
    (h : t.loadMandatory fs patterns = (u, .ok missing)) :
    missing = withoutFiles t.scope fs patterns ∧ ∀ p ∈ patterns, u.Settles fs p := by
  induction patterns generalizing t missing with
  | nil =>
    cases h
    exact ⟨rfl, fun p hp => absurd hp List.not_mem_nil⟩
  | cons p rest ih =>
    unfold loadMandatory at h
    split at h
    · cases h
    · next hnone =>
      have hgrows := grows_loadMandatory t fs rest
      split at h
      · next v more heq =>
        cases h
        rw [heq] at hgrows
        obtain ⟨hmore, hrest⟩ := ih heq
        have hp : t.Settles fs p := ⟨[], hnone, fun q hq => absurd hq List.not_mem_nil⟩
        refine ⟨?_, List.forall_mem_cons.mpr ⟨hgrows.settles hp, hrest⟩⟩
        rw [hmore, withoutFiles, withoutFiles, List.filter_cons_of_pos (by rw [hnone])]
      · cases h
    · next first others hsome =>
      split at h
      · cases h
      · next v files hadd =>
        have hgrows := grows_loadMandatory v fs rest
        rw [h] at hgrows
        have hscope := grows_addPattern t fs p
        rw [hadd] at hscope
        obtain ⟨hmissing, hrest⟩ := ih h
        have hp := hgrows.settles (settles_of_addPattern hadd)
        refine ⟨?_, List.forall_mem_cons.mpr ⟨hp, hrest⟩⟩
        rw [hmissing, hscope.scope_eq, withoutFiles, withoutFiles,
          List.filter_cons_of_neg (by rw [hsome]; exact Bool.false_ne_true)]

private theorem loadMandatory_of_settles {patterns : List Text}
    (h : ∀ p ∈ patterns, t.Settles fs p) :
    t.loadMandatory fs patterns = (t, .ok (withoutFiles t.scope fs patterns)) := by
  induction patterns with
  | nil => rfl
  | cons p rest ih =>
    obtain ⟨hp, hrest⟩ := List.forall_mem_cons.mp h
    obtain ⟨paths, hpaths, -⟩ := id hp
    rw [loadMandatory, hpaths]
    cases paths with
    | nil =>
      dsimp only
      rw [ih hrest, withoutFiles, withoutFiles, List.filter_cons_of_pos (by rw [hpaths])]
    | cons first others =>
      dsimp only
      rw [addPattern_of_settles hp, withoutFiles,
        List.filter_cons_of_neg (by rw [hpaths]; exact Bool.false_ne_true)]
      exact ih hrest

private theorem grows_loadOptional (t : ContextTracker) (fs : FileSystem)
    (patterns : List Text) : Grows t (t.loadOptional fs patterns).1 := by
  induction patterns generalizing t with
  | nil => exact .refl
  | cons p rest ih =>
    have hadd := grows_addPattern t fs p
    unfold loadOptional
    split
    · next heq => rwa [heq] at hadd
    · next heq =>
      rw [heq] at hadd
      exact hadd.trans (ih _)

private theorem loadOptional_ok {patterns : List Text}
    (h : t.loadOptional fs patterns = (u, .ok ())) : ∀ p ∈ patterns, u.Settles fs p := by
  induction patterns generalizing t with
  | nil => exact fun p hp => absurd hp List.not_mem_nil
  | cons p rest ih =>
    unfold loadOptional at h
    split at h
    · cases h
    · next v files hadd =>
      have hgrows := grows_loadOptional v fs rest
      rw [h] at hgrows
      exact List.forall_mem_cons.mpr ⟨hgrows.settles (settles_of_addPattern hadd), ih h⟩

private theorem loadOptional_of_settles {patterns : List Text}
    (h : ∀ p ∈ patterns, t.Settles fs p) : t.loadOptional fs patterns = (t, .ok ()) := by
  induction patterns with
  | nil => rfl
  | cons p rest ih =>
    obtain ⟨hp, hrest⟩ := List.forall_mem_cons.mp h
    rw [loadOptional, addPattern_of_settles hp]
    exact ih hrest

theorem grows_load (t : ContextTracker) (fs : FileSystem) (s : Settings) (lenient : Bool) :
    Grows t (t.load fs s lenient).1 := by
  have hmandatory := grows_loadMandatory t fs s.context
  unfold load
  split
  · next heq => rwa [heq] at hmandatory
  · next u missing heq =>
    rw [heq] at hmandatory
    have hoptional := grows_loadOptional u fs s.contextOptional
    split
    · next heq' =>
      rw [heq'] at hoptional
      exact hmandatory.trans hoptional
    · next heq' =>
      rw [heq'] at hoptional
      split <;> exact hmandatory.trans hoptional

/-- After the context was loaded without an error all its patterns are settled. -/
theorem load_ok {s : Settings} {lenient : Bool} {missing : List Text}
    (h : t.load fs s lenient = (u, .ok missing)) :
    (∀ p ∈ s.context ++ s.contextOptional, u.Settles fs p) ∧
      missing = withoutFiles t.scope fs s.context ∧ (!missing.isEmpty && !lenient) = false := by
  unfold load at h
  split at h
  · cases h
  · next v found hmandatory =>
    have hgrows := grows_loadOptional v fs s.contextOptional
    split at h
    · cases h
    · next w hoptional =>
      rw [hoptional] at hgrows
      split at h
      · cases h
      · next hlenient =>
        cases h
        obtain ⟨hmissing, hsettled⟩ := loadMandatory_ok hmandatory
        refine ⟨fun p hp => ?_, hmissing, eq_false_of_ne_true hlenient⟩
        rcases List.mem_append.mp hp with hp | hp
        · exact hgrows.settles (hsettled p hp)
        · exact loadOptional_ok hoptional p hp

/-- Where all patterns are settled there is nothing to load. -/
theorem load_of_settles {s : Settings} {lenient : Bool}
    (h : ∀ p ∈ s.context ++ s.contextOptional, t.Settles fs p) :
    t.load fs s lenient =
      let missing := withoutFiles t.scope fs s.context
      (t, if !missing.isEmpty && !lenient then .error (.missingFiles missing) else .ok missing) := by
  obtain ⟨hmandatory, hoptional⟩ := List.forall_mem_append.mp h
  unfold load
  rw [loadMandatory_of_settles hmandatory]
  dsimp only
  rw [loadOptional_of_settles hoptional]
  dsimp only
  split <;> rfl

end ContextTracker

end ConversationFlow

import ConversationFlow.Context.Tracker
import ConversationFlow.Proofs.Files.Globs
import ConversationFlow.Proofs.Text.Lines

/-!
# Patterns without wildcards

A relative pattern without wildcards is to name one file. It is joined to the directory it is
looked up in before anything asks for wildcards, so that this holds only where the path of that
directory has none either.
-/

namespace ConversationFlow

namespace Glob

theorem isPattern_append (t u : Text) : isPattern (t ++ u) = (isPattern t || isPattern u) :=
  List.any_append

/-- Seen from a base, a path is a pattern if one of them is. -/
theorem isPattern_join {base p : Path} (hp : p.isAbsolute = false) :
    isPattern (base.join p).text = (isPattern base.text || isPattern p.text) := by
  unfold Path.join
  split
  · next h =>
    have hempty : base.text = [] := by simpa [hp, Path.isEmpty] using h
    rw [hempty]
    rfl
  · split
    · exact isPattern_append base.text p.text
    · rw [isPattern_append]
      rfl

theorem isPattern_sublist {t u : Text} (h : t.Sublist u) (hu : isPattern u = false) :
    isPattern t = false := by
  unfold isPattern at hu ⊢
  rw [List.any_eq_false] at hu ⊢
  exact fun c hc => hu c (h.subset hc)

end Glob

namespace FileSystem

variable {fs : FileSystem} {path base : Path}

theorem locate_of_isFile (h : fs.isFile path = true) :
    ∃ l content, fs.locate path = .ok l ∧ fs.node? l = some (.file content) := by
  unfold isFile nodeAt? at h
  cases hl : fs.locate path with
  | error e =>
    rw [hl] at h
    cases h
  | ok l =>
    rw [hl] at h
    dsimp only [Except.toOption, Option.bind_some] at h
    split at h
    · next content hnode => exact ⟨l, content, rfl, hnode⟩
    · cases h

/-- A path that ends at its base is no file. -/
theorem text_ne_nil_of_isFile (hrelative : path.isAbsolute = false)
    (h : fs.isFile (base.join path) = true) : path.text ≠ [] := by
  intro hempty
  obtain ⟨l, content, hl, hnode⟩ := locate_of_isFile h
  have hwalk := foldlM_of_locate hl
  obtain ⟨front, hsplit, -⟩ := Path.splitOn_join base hrelative
  rw [hsplit, hempty, List.splitOn_nil, List.foldlM_append] at hwalk
  cases hm : front.foldlM (descend fs) (if (base.join path).isAbsolute then [] else fs.cwd) with
  | error e =>
    rw [hm] at hwalk
    cases hwalk
  | ok m =>
    rw [hm] at hwalk
    have hlast : fs.descend m [] = .ok l := by
      rw [← bind_pure (fs.descend m [])]
      exact hwalk
    rw [descend_idle (.inl rfl)] at hlast
    obtain ⟨rfl, hdirectory⟩ := directoryAt_ok hlast
    cases hnode.symm.trans hdirectory

end FileSystem

namespace ContextScope

variable {fs : FileSystem} {s : ContextScope} {path base raw : Path} {pattern : Text}

/-- The path that a pattern writes behind its blanks and marks. -/
def written (pattern : Text) : Path := ⟨(Text.trim pattern).dropWhile (· = '@')⟩

theorem isPattern_written (h : Glob.isPattern pattern = false) :
    Glob.isPattern (written pattern).text = false :=
  Glob.isPattern_sublist ((List.dropWhile_sublist _).trans (Text.trim_sublist pattern)) h

/-- The files that match a path as a pattern. -/
def matching (fs : FileSystem) (path : Path) : Except ContextError (List Path) :=
  match fs.expand path.text with
  | .ok found => .ok (found.filter fs.isFile)
  | .error e => .error (.invalidPattern path.text (.glob e))

/-! ## The files of one path -/

theorem filesOf_pattern (h : Glob.isPattern path.text = true) :
    filesOf fs path = matching fs path := by
  unfold filesOf matching
  refine (if_pos h).trans ?_
  cases fs.expand path.text <;> rfl

/-- A plain path to a file finds that file. -/
theorem filesOf_file (hp : Glob.isPattern path.text = false) (h : fs.isFile path = true) :
    filesOf fs path = .ok [path] := by
  obtain ⟨l, content, hl, hnode⟩ := FileSystem.locate_of_isFile h
  unfold filesOf
  rw [if_neg (by simp [hp]), hl]
  dsimp only
  rw [hnode]

theorem filesOf_nothing (hp : Glob.isPattern path.text = false) (h : fs.nodeAt? path = none) :
    filesOf fs path = .ok [] := by
  unfold filesOf
  rw [if_neg (by simp [hp])]
  unfold FileSystem.nodeAt? at h
  cases hl : fs.locate path with
  | error e => rfl
  | ok l =>
    rw [hl] at h
    change fs.node? l = none at h
    dsimp only
    rw [h]

/-! ## The bases in turn -/

theorem bases_cons (s : ContextScope) : s.bases = s.cwd :: s.bases.tail := by
  unfold bases
  split
  · split <;> rfl
  · rfl

theorem firstFound_file {rest : List Path} (hp : Glob.isPattern (base.join raw).text = false)
    (h : fs.isFile (base.join raw) = true) :
    firstFound fs raw (base :: rest) = .ok [base.join raw] := by
  rw [firstFound, filesOf_file hp h]
  rfl

theorem firstFound_nothing {rest : List Path} (hp : Glob.isPattern (base.join raw).text = false)
    (h : fs.nodeAt? (base.join raw) = none) :
    firstFound fs raw (base :: rest) = firstFound fs raw rest := by
  rw [firstFound, filesOf_nothing hp h]
  rfl

theorem resolve_relative (hne : (written pattern).text ≠ [])
    (hrelative : (written pattern).isAbsolute = false) :
    s.resolve fs pattern = firstFound fs (written pattern) s.bases := by
  have hempty : (written pattern).isEmpty = false := by simpa [Path.isEmpty] using hne
  unfold resolve
  rw [show (⟨(Text.trim pattern).dropWhile (· = '@')⟩ : Path) = written pattern from rfl]
  dsimp only
  rw [hempty, hrelative]
  rfl

/-- A file that a path leads to from one directory is there from an equal one. -/
theorem isSome_nodeAt_of_beq {dir cwd : Path} (hrelative : raw.isAbsolute = false)
    (hsame : (dir == cwd) = true) (h : fs.isFile (dir.join raw) = true)
    (hlength : Text.byteLength (cwd.join raw).text ≤ 4095) :
    (fs.nodeAt? (cwd.join raw)).isSome = true := by
  obtain ⟨l, content, hl, hnode⟩ := FileSystem.locate_of_isFile h
  have hparts : dir.parts = cwd.parts := eq_of_beq hsame
  have hcwd := FileSystem.locate_join_of_parts hrelative
    (FileSystem.text_ne_nil_of_isFile hrelative h) hparts hl hlength
  unfold FileSystem.nodeAt?
  rw [hcwd]
  change (fs.node? l).isSome = true
  rw [hnode]
  rfl

theorem firstFound_pattern {rest : List Path} (hrelative : raw.isAbsolute = false)
    (hbase : Glob.isPattern base.text = true) :
    firstFound fs raw (base :: rest) = (do
      let found ← matching fs (base.join raw)
      if found.isEmpty then firstFound fs raw rest else return found) := by
  have hp : Glob.isPattern (base.join raw).text = true := by
    rw [Glob.isPattern_join hrelative, hbase, Bool.true_or]
  rw [firstFound, filesOf_pattern hp]

/-- Behind the last base nothing is left to look for. -/
theorem firstFound_last : firstFound fs raw [base] = filesOf fs (base.join raw) := by
  unfold firstFound
  cases filesOf fs (base.join raw) with
  | error e => rfl
  | ok found => cases found <;> rfl

/-- A set in the path of the directory keeps every file in it from being found by its name. -/
theorem beq_eq_false_of_matching {found : List Path} (hnames : ∀ n ∈ fs.nodes, n.1.IsNamed)
    (hraw : Glob.isPattern raw.text = false) (hrelative : raw.isAbsolute = false)
    (hbracket : '[' ∈ base.text) (hstar : '*' ∉ base.text)
    (h : matching fs (base.join raw) = .ok found) (hp : path ∈ found) :
    (path == base.join raw) = false := by
  have hmem {c : Char} (hslash : c ≠ '/') (hdot : c ≠ '.') :
      c ∈ (base.join raw).text ↔ c ∈ base.text ∨ c ∈ raw.text := by
    rw [Path.mem_steps hslash hdot, Path.mem_steps hslash hdot, Path.mem_steps hslash hdot,
      Path.steps_join hrelative]
    simp only [List.mem_append, or_and_right, exists_or]
  have hstar' : '*' ∉ (base.join raw).text := by
    rw [hmem (by decide) (by decide)]
    refine fun hs => hs.elim hstar fun hs => ?_
    cases hraw.symm.trans (List.any_eq_true.mpr ⟨'*', hs, by decide⟩)
  have hbracket' := (hmem (by decide) (by decide)).mpr (.inl hbracket)
  unfold matching at h
  split at h
  · next all hall =>
    cases h
    change (path.parts == (base.join raw).parts) = false
    exact beq_eq_false_iff_ne.mpr
      (Glob.parts_ne_of_expand hall hnames hbracket' hstar' (List.mem_filter.mp hp).1)
  · cases h

/-- A pattern without wildcards names the file it writes, in the working directory or else in the
directory of the workflow, as long as their own paths have no wildcards. If one has, it makes a
pattern of the whole path, and one with a set but without stars matches any file but that one. -/
theorem plain_pattern_in_plain_directories (fs : FileSystem) (s : ContextScope) (pattern : Text)
    (hplain : Glob.isPattern pattern = false)
    (hrelative : (written pattern).isAbsolute = false) :
    (Glob.isPattern s.cwd.text = false → fs.isFile (s.cwd.join (written pattern)) = true →
      s.resolve fs pattern = .ok [s.cwd.join (written pattern)]) ∧
    (Glob.isPattern s.cwd.text = false → fs.nodeAt? (s.cwd.join (written pattern)) = none →
      ∀ dir, s.workflowDir = some dir → fs.isFile (dir.join (written pattern)) = true →
        ((dir == s.cwd) = true → Text.byteLength (s.cwd.join (written pattern)).text ≤ 4095) →
        s.resolve fs pattern =
          if Glob.isPattern dir.text then matching fs (dir.join (written pattern))
          else .ok [dir.join (written pattern)]) ∧
    (Glob.isPattern s.cwd.text = true → (written pattern).text ≠ [] →
      s.resolve fs pattern = do
        let found ← matching fs (s.cwd.join (written pattern))
        if found.isEmpty then firstFound fs (written pattern) s.bases.tail else return found) ∧
    ('[' ∈ s.cwd.text → '*' ∉ s.cwd.text → s.bases = [s.cwd] →
      (∀ n ∈ fs.nodes, n.1.IsNamed) → fs.isFile (s.cwd.join (written pattern)) = true →
      ∀ found, s.resolve fs pattern = .ok found →
        ∀ p ∈ found, (p == s.cwd.join (written pattern)) = false) := by
  have hraw := isPattern_written hplain
  have hjoin {base : Path} (hbase : Glob.isPattern base.text = false) :
      Glob.isPattern (base.join (written pattern)).text = false := by
    rw [Glob.isPattern_join hrelative, hbase, hraw, Bool.false_or]
  refine ⟨fun hcwd hfile => ?_, fun hcwd hnone dir hdir hfile hlength => ?_,
    fun hcwd hne => ?_, fun hbracket hstar hbases hnames hfile found hfound p hp => ?_⟩
  · rw [resolve_relative (FileSystem.text_ne_nil_of_isFile hrelative hfile) hrelative, bases_cons,
      firstFound_file (hjoin hcwd) hfile]
  · have hother : (dir == s.cwd) = false := by
      refine Bool.eq_false_iff.mpr fun hsame => ?_
      have hnode := isSome_nodeAt_of_beq hrelative hsame hfile (hlength hsame)
      rw [hnone] at hnode
      cases hnode
    have hbases : s.bases = [s.cwd, dir] := by
      unfold bases
      rw [hdir]
      dsimp only
      rw [hother, if_neg Bool.false_ne_true]
    rw [resolve_relative (FileSystem.text_ne_nil_of_isFile hrelative hfile) hrelative, hbases,
      firstFound_nothing (hjoin hcwd) hnone, firstFound_last]
    split
    · next hpattern =>
      exact filesOf_pattern (by rw [Glob.isPattern_join hrelative, hpattern, Bool.true_or])
    · next hpattern => exact filesOf_file (hjoin (Bool.eq_false_iff.mpr hpattern)) hfile
  · rw [resolve_relative hne hrelative, bases_cons, firstFound_pattern hrelative hcwd]
    rfl
  · have hcwd : Glob.isPattern s.cwd.text = true :=
      List.any_eq_true.mpr ⟨'[', hbracket, by decide⟩
    rw [resolve_relative (FileSystem.text_ne_nil_of_isFile hrelative hfile) hrelative, hbases,
      firstFound_last, filesOf_pattern (by rw [Glob.isPattern_join hrelative, hcwd, Bool.true_or])]
      at hfound
    exact beq_eq_false_of_matching hnames hraw hrelative hbracket hstar hfound hp

/-- A file in each of three directories, and a set in the name of the last one. -/
def sampleFiles : FileSystem :=
  ⟨[], [(["w".toList], .directory), (["w".toList, "notes.md".toList], .file []),
    (["v".toList], .directory), (["v".toList, "rules.md".toList], .file []),
    (["w[1]".toList], .directory), (["w[1]".toList, "notes.md".toList], .file [])], [], []⟩

/-- The first two files are found by their names. The third one is not. -/
theorem sampleFiles_resolve :
    resolve ⟨"w", some "v"⟩ sampleFiles "notes.md".toList = .ok ["w/notes.md"] ∧
      resolve ⟨"w", some "v"⟩ sampleFiles "rules.md".toList = .ok ["v/rules.md"] ∧
      sampleFiles.isFile "w[1]/notes.md" = true ∧
      ∃ found, resolve ⟨"w[1]", none⟩ sampleFiles "notes.md".toList = .ok found ∧
        ∀ p ∈ found, (p == ("w[1]/notes.md" : Path)) = false := by
  have hnotes (s : ContextScope) :=
    plain_pattern_in_plain_directories sampleFiles s "notes.md".toList rfl rfl
  have hrules := plain_pattern_in_plain_directories sampleFiles ⟨"w", some "v"⟩ "rules.md".toList
    rfl rfl
  have hnames : ∀ n ∈ sampleFiles.nodes, n.1.IsNamed := by
    unfold Location.IsNamed
    decide
  obtain ⟨found, hfound⟩ :
      ∃ found, resolve ⟨"w[1]", none⟩ sampleFiles "notes.md".toList = .ok found := by
    obtain ⟨found, hfound⟩ : ∃ found, matching sampleFiles
        (Path.join "w[1]" (written "notes.md".toList)) = .ok found := ⟨_, rfl⟩
    rw [(hnotes ⟨"w[1]", none⟩).2.2.1 rfl (by decide), hfound]
    cases found <;> exact ⟨_, rfl⟩
  refine ⟨(hnotes ⟨"w", some "v"⟩).1 rfl rfl, ?_, rfl, found, hfound, ?_⟩
  · exact hrules.2.1 rfl rfl "v" rfl rfl (by decide)
  · exact (hnotes ⟨"w[1]", none⟩).2.2.2 (by decide) (by decide) rfl hnames rfl found hfound

end ContextScope

end ConversationFlow

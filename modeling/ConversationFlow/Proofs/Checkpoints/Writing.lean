import ConversationFlow.Proofs.Checkpoints.Slugs
import ConversationFlow.Proofs.Files.Bases
import ConversationFlow.Proofs.Running.Courses
import ConversationFlow.Proofs.Running.Lifecycle
import ConversationFlow.Run.World

/-!
# Where checkpoints are written

A checkpoint is written under a name that is made of slugs and of its identifier. If the identifier
is a UUID, no character of the name leads to another directory, whatever the workflow and the
checkpoint are called: the file is a child of the directory that is given, and no other file changes.
That the identifiers of a run are UUIDs is a property of its surroundings and is assumed.
-/

namespace ConversationFlow

/-- A hexadecimal digit as it stands in a UUID, in lower case. -/
def isUuidDigit (c : Char) : Bool := Text.isDigit c || ('a' ≤ c && c ≤ 'f')

/-- Lower-case hexadecimal digits in five groups, with hyphens between them. -/
def IsUuid (t : Text) : Prop :=
  ∃ groups : List Text, t = Text.join ['-'] groups ∧ groups.map List.length = [8, 4, 4, 4, 12] ∧
    ∀ g ∈ groups, g.all isUuidDigit = true

/-- Lower-case letters, digits and hyphens before the ending `.json`. -/
def IsCheckpointName (name : Text) : Prop :=
  ∃ stem : Text, name = stem ++ ".json" ∧ ∀ c ∈ stem, Text.IsPlain c ∨ c = '-'

theorem isPlain_of_isUuidDigit {c : Char} (h : isUuidDigit c = true) : Text.IsPlain c := by
  rw [isUuidDigit, Bool.or_eq_true, Bool.and_eq_true, decide_eq_true_eq, decide_eq_true_eq] at h
  rcases h with hd | ⟨ha, hf⟩
  · exact .inr hd
  · refine .inl ?_
    rw [Text.isLowerLetter, Bool.and_eq_true, decide_eq_true_eq, decide_eq_true_eq]
    exact ⟨ha, Char.le_trans hf (by decide)⟩

theorem IsUuid.isSlug {t : Text} (h : IsUuid t) : Text.IsSlug t ∧ t ≠ [] := by
  obtain ⟨groups, rfl, hlength, hdigits⟩ := h
  have hruns : ∀ g ∈ groups, Text.IsRun g := by
    intro g hg
    refine ⟨?_, fun c hc => isPlain_of_isUuidDigit (List.all_eq_true.mp (hdigits g hg) c hc)⟩
    rintro rfl
    have hzero : 0 ∈ groups.map List.length := List.mem_map_of_mem hg
    rw [hlength] at hzero
    exact absurd hzero (by decide)
  refine ⟨Text.isSlug_join hruns, ?_⟩
  cases groups with
  | nil => cases hlength
  | cons g gs => exact Text.join_ne_nil (hruns g List.mem_cons_self).1 _ gs

namespace IsCheckpointName

variable {name : Text}

theorem slash_not_mem (h : IsCheckpointName name) : '/' ∉ name := by
  obtain ⟨stem, rfl, hstem⟩ := h
  intro hm
  rcases List.mem_append.mp hm with hm | hm
  · exact absurd (hstem _ hm) (by decide)
  · exact absurd hm (by decide)

theorem isName (h : IsCheckpointName name) : Path.IsName name := by
  obtain ⟨stem, rfl, -⟩ := h
  have hlength : 5 ≤ (stem ++ (".json" : Text)).length := by
    rw [List.length_append]
    exact Nat.le_add_left 5 _
  refine ⟨?_, ?_, ?_⟩ <;>
  · intro he
    rw [he] at hlength
    exact absurd hlength (by decide)

end IsCheckpointName

namespace Checkpoint

variable {c : Checkpoint}

theorem isSlug_label (c : Checkpoint) : Text.IsSlug c.label ∧ c.label ≠ [] := by
  unfold label
  split
  · next x t h =>
    obtain ⟨name, -, hname⟩ := Option.map_eq_some_iff.mp h
    rw [← hname]
    refine ⟨isSlug_slug name, ?_⟩
    rw [hname]
    exact List.cons_ne_nil x t
  · have hplain (word : Text) (hword : word.all Text.isLowerLetter = true) (n : Nat) :
        ∀ d ∈ word ++ Text.ofNat n, Text.IsPlain d := by
      intro d hd
      rcases List.mem_append.mp hd with hd | hd
      · exact .inl (List.all_eq_true.mp hword d hd)
      · exact .inr (Text.isDigit_of_mem_ofNat hd)
    have hplace := (Text.IsSlug.of_plain (hplain "cycle" (by decide) c.cycle)).append (by simp)
      (Text.IsSlug.of_plain (hplain "step" (by decide) (c.step + 1))) (by simp)
    rw [List.append_assoc]
    exact ⟨hplace, by simp⟩

theorem isCheckpointName_fileName (h : IsUuid c.id) : IsCheckpointName c.fileName := by
  obtain ⟨hid, hne⟩ := h.isSlug
  obtain ⟨hlabel, hlabelne⟩ := c.isSlug_label
  have hbehind := hlabel.append hlabelne hid hne
  refine ⟨slug c.workflow ++ '-' :: (c.label ++ '-' :: c.id), ?_, fun x hx => ?_⟩
  · simp [fileName]
  · rcases List.mem_append.mp hx with hx | hx
    · exact (isSlug_slug c.workflow).chars x hx
    rcases List.mem_cons.mp hx with hx | hx
    · exact .inr hx
    · exact hbehind.chars x hx

/-- The file system after a file was put into a directory under a name, and no other was written. -/
structure PutsFile (fs : FileSystem) (dir : Path) (name content : Text) (path : Path)
    (after : FileSystem) : Prop where
  child : path.parts = dir.parts ++ [.name name]
  written : after.node? ((fs.reached dir).child name) = some (.file (Text.toBytes content))
  others : ∀ l, l ≠ (fs.reached dir).child name → ∀ bytes,
    (after.node? l = some (.file bytes) ↔ fs.node? l = some (.file bytes))

theorem putsFile_of_write (h : IsCheckpointName c.fileName) {fs after : FileSystem} {dir path : Path}
    (hw : c.write fs dir = .ok (after, path)) :
    PutsFile fs dir c.fileName c.json.pretty path after := by
  unfold write at hw
  dsimp only at hw
  split at hw
  · cases hw
  next made hmade =>
  split at hw
  · cases hw
  next written hwritten =>
  cases hw
  have hsame := FileSystem.sameFiles_createDirectories hmade
  have hreached : made.reached dir = fs.reached dir := by
    rw [FileSystem.reached, hsame.cwd]
    rfl
  obtain rfl := FileSystem.write_join_ok h.slash_not_mem hwritten
  rw [hreached]
  refine ⟨Path.parts_join_name dir h.isName h.slash_not_mem, ?_, fun l hl bytes => ?_⟩
  · rw [FileSystem.node?_put, if_pos rfl]
  · rw [FileSystem.node?_put, if_neg hl]
    exact hsame.files l bytes

end Checkpoint

/-! ## The checkpoints of a run -/

section

variable {α : Type} {around : Surroundings α} {w : World α} {c : Checkpoint} {dir : Path}

theorem Surroundings.answer_save_ok {files : FileSystem} {path : Path}
    (h : c.write w.files dir = .ok (files, path)) :
    around.answer (.save c dir) w = (.ok path, { w with files }) := by
  rw [answer, h]
  rfl

theorem Surroundings.answer_save_error {e : Failure} (h : c.write w.files dir = .error e) :
    around.answer (.save c dir) w = (.error e, w) := by
  rw [answer, h]
  rfl

/-- What follows a request goes on from the answer, in the world after it. -/
theorem Action.exists_of_run_ask_bind {σ β : Type} {answering : Dialogue.Answering σ} {w after : σ}
    {request : Request} {f : request.Answer → Action β} {s : RunState}
    {b : Except Ending β × RunState} {xs : List Exchange}
    (h : ((Action.ask request >>= f) s).run answering w = (b, xs, after)) :
    ∃ ys, ((f (answering request w).1) s).run answering (answering request w).2 =
      (b, ys, after) := by
  cases h
  exact ⟨_, rfl⟩

/-- A checkpoint of a run has the identifier that its surroundings give, and is written into the
directory of the run's checkpoints. -/
theorem Run.writeCheckpoint_ok {r : Run} {name : Option Text} {place : StepPlace}
    {s t : RunState} {xs : List Exchange} {after : World α}
    (h : ((r.writeCheckpoint name place) s).run around.answer w = ((.ok (), t), xs, after)) :
    ∃ (c : Checkpoint) (path : Path), c.id = (around.stamp w).1.id ∧
      c.write (around.stamp w).2.files r.checkpointDir = .ok (after.files, path) ∧
      t.report.checkpoints = s.report.checkpoints ++ [path] := by
  let c : Checkpoint :=
    { id := (around.stamp w).1.id
      name
      workflow := s.report.workflow
      cycle := place.cycle
      step := place.step
      sessionId := s.session
      turns := s.report.turns
      usedTokens := s.tracker.usedTokens
      lastResponse := s.report.lastResponse?
      createdAt := (around.stamp w).1.time }
  obtain ⟨ys, h⟩ := Action.exists_of_run_ask_bind h
  replace h : ((Action.ask (.save c r.checkpointDir) >>= _) s).run around.answer
    (around.stamp w).2 = ((.ok (), t), ys, after) := h
  obtain ⟨zs, h⟩ := Action.exists_of_run_ask_bind h
  cases hw : c.write (around.stamp w).2.files r.checkpointDir with
  | error e =>
    rw [Surroundings.answer_save_error hw] at h
    cases h
  | ok written =>
    obtain ⟨files, path⟩ := written
    rw [Surroundings.answer_save_ok hw] at h
    cases h
    exact ⟨c, path, rfl, hw, rfl⟩

end

/-- The slug of a text keeps its letters and digits, and no text is changed by a second slug. The file
of a checkpoint that has a UUID is put into the directory that is given, under a name of its own, and
so is that of a run's checkpoint. -/
theorem Checkpoint.stays_in_directory :
    (∀ t, Text.IsSlug (slug t) ∧ slug (slug t) = slug t ∧
      (slug t).filter Text.isAlphanumeric = Text.lowerAscii (t.filter Text.isAlphanumeric)) ∧
    (∀ c : Checkpoint, IsUuid c.id → IsCheckpointName c.fileName ∧
      (∀ dir : Path, (dir.join ⟨c.fileName⟩).parts = dir.parts ++ [.name c.fileName]) ∧
      ∀ fs dir path after, c.write fs dir = .ok (after, path) →
        PutsFile fs dir c.fileName c.json.pretty path after) ∧
    ∀ (α : Type) (around : Surroundings α) (w : World α), IsUuid (around.stamp w).1.id →
      ∀ (r : Run) name place s t xs after,
        ((r.writeCheckpoint name place) s).run around.answer w = ((.ok (), t), xs, after) →
        ∃ fileName content path, IsCheckpointName fileName ∧
          PutsFile (around.stamp w).2.files r.checkpointDir fileName content path after.files ∧
          t.report.checkpoints = s.report.checkpoints ++ [path] := by
  refine ⟨fun t => ⟨isSlug_slug t, slug_eq_self_iff.mpr (isSlug_slug t), filter_slug t⟩,
    fun c hid => ?_, fun α around w hid r name place s t xs after h => ?_⟩
  · have hname := isCheckpointName_fileName hid
    exact ⟨hname, fun dir => Path.parts_join_name dir hname.isName hname.slash_not_mem,
      fun fs dir path after => putsFile_of_write hname⟩
  · obtain ⟨c, path, hc, hwrite, hreport⟩ := Run.writeCheckpoint_ok h
    have hname := isCheckpointName_fileName (hc ▸ hid)
    exact ⟨_, _, path, hname, putsFile_of_write hname hwrite, hreport⟩

/-- A checkpoint whose workflow and name would lead out of a directory if they were paths. -/
def climbing : Checkpoint where
  id := "0190b2c4-7a3e-7c11-9f00-0123456789ab"
  name := some "../.."
  workflow := "/Etc/../№"
  cycle := 1
  step := 0
  createdAt := []

/-- An empty working directory, and nothing else. -/
def workingDirectory : FileSystem := ⟨["w"], [(["w"], .directory)], [], []⟩

theorem isUuid_climbing : IsUuid climbing.id :=
  ⟨["0190b2c4", "7a3e", "7c11", "9f00", "0123456789ab"], rfl, rfl, by decide⟩

/-- Its file stays in the directory that is given, and so does that of a run's checkpoint. -/
theorem climbing_name_stays :
    climbing.fileName = "etc-cycle1-step1-0190b2c4-7a3e-7c11-9f00-0123456789ab.json" ∧
      (∃ path after, climbing.write workingDirectory "cp" = .ok (after, path) ∧
        path.parts = [.name "cp", .name climbing.fileName]) ∧
      ∃ (around : Surroundings Nat) (r : Run) (s t : RunState) (xs : List Exchange) (after : _),
        ((r.writeCheckpoint climbing.name ⟨1, 0⟩) s).run around.answer ⟨workingDirectory, 0⟩ =
          ((.ok (), t), xs, after) ∧
        ∃ fileName content path,
          Checkpoint.PutsFile workingDirectory r.checkpointDir fileName content path after.files ∧
          t.report.checkpoints = [path] := by
  refine ⟨by decide +kernel, ?_, ?_⟩
  · obtain ⟨⟨after, path⟩, h⟩ : ∃ x, climbing.write workingDirectory "cp" = .ok x := ⟨_, rfl⟩
    exact ⟨path, after, h,
      ((Checkpoint.stays_in_directory.2.1 climbing isUuid_climbing).2.2 _ _ _ _ h).child⟩
  · let around : Surroundings Nat :=
      { agent := Conversation.firstSessionOnly, host := .bare,
        stamp := fun w => (⟨climbing.id, []⟩, w), now := ⟨[], []⟩, clock := fun _ => .ofSeconds 0 }
    obtain ⟨r, s, hp⟩ : ∃ r s, Run.prepare (.ofCompiled Conversation.promptTwice)
        { cwd := "w" } = .ok (r, s) := ⟨_, _, rfl⟩
    obtain ⟨t, xs, after, h⟩ : ∃ t xs after,
        ((r.writeCheckpoint climbing.name ⟨1, 0⟩) s).run around.answer ⟨workingDirectory, 0⟩ =
          ((.ok (), t), xs, after) := by
      cases hp
      exact ⟨_, _, _, rfl⟩
    obtain ⟨fileName, content, path, -, hput, hreport⟩ :=
      Checkpoint.stays_in_directory.2.2 Nat around _ isUuid_climbing r _ _ s t xs after h
    refine ⟨around, r, s, t, xs, after, h, fileName, content, path, hput, ?_⟩
    rw [hreport]
    cases hp
    rfl

end ConversationFlow

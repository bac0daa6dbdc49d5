import ConversationFlow.Files.FileSystem

/-!
# Directories with equal paths

Two paths are equal when they differ in segments that lead nowhere. From equal directories
a relative path leads to one place, unless one of the two is too long to be looked up.
-/

namespace ConversationFlow

namespace Path

variable {p q base : Path}

/-- The segment leads somewhere. -/
def leads (segment : Text) : Bool := !(segment.isEmpty || segment = ['.'])

/-- The segments of a path that lead somewhere. -/
def steps (p : Path) : List Text := (p.text.splitOn '/').filter leads

theorem leads_of_isIdle {s : Text} (h : IsIdle s) : leads s = false := by
  rcases h with rfl | rfl <;> rfl

theorem isIdle_of_leads {s : Text} (h : leads s = false) : IsIdle s := by
  simpa [leads, IsIdle, Decidable.or_iff_not_imp_left] using h

/-- The segment of a component, behind those before it. -/
private def gather (before : List Text) : PathPart → List Text
  | .root | .here => before
  | .up => before ++ [['.', '.']]
  | .name n => before ++ [n]

private theorem foldl_gather (segments before : List Text) :
    segments.foldl (along gather) before = before ++ segments.filter leads := by
  induction segments generalizing before with
  | nil => exact (List.append_nil before).symm
  | cons s segments ih =>
    rw [List.foldl_cons, ih, List.filter_cons]
    rcases segment_cases s with hs | rfl | hs
    · rw [along_idle hs, if_neg (by simp [leads_of_isIdle hs])]
    · exact List.append_assoc _ _ _
    · rw [along_name hs, if_pos (by simp [leads, hs.1, hs.2.1])]
      exact List.append_assoc _ _ _

/-- Equal paths have the same segments that lead somewhere. -/
theorem steps_of_parts (h : p.parts = q.parts) : p.steps = q.steps := by
  have hsteps (r : Path) : r.parts.foldl gather [] = r.steps := by
    rw [foldl_parts (fun _ => rfl), foldl_gather]
    cases r.isAbsolute <;> rfl
  rw [← hsteps p, ← hsteps q, h]

private def atRoot (before : Bool) : PathPart → Bool
  | .root => true
  | _ => before

private theorem foldl_atRoot (segments : List Text) (before : Bool) :
    segments.foldl (along atRoot) before = before := by
  induction segments with
  | nil => rfl
  | cons s segments ih =>
    have hstep : along atRoot before s = before := by
      rcases segment_cases s with hs | rfl | hs
      · exact along_idle hs before
      · rfl
      · exact along_name hs before
    rw [List.foldl_cons, hstep, ih]

theorem isAbsolute_of_parts (h : p.parts = q.parts) : p.isAbsolute = q.isAbsolute := by
  have hroot (r : Path) : r.parts.foldl atRoot false = r.isAbsolute := by
    rw [foldl_parts (fun _ => rfl), foldl_atRoot]
    cases r.isAbsolute <;> rfl
  rw [← hroot p, ← hroot q, h]

theorem splitOn_append_slash (t u : Text) :
    (t ++ '/' :: u).splitOn '/' = t.splitOn '/' ++ u.splitOn '/' := by
  rw [List.splitOn_eq_splitOnP, List.splitOnP_append_cons _ _ (by simp),
    ← List.splitOn_eq_splitOnP, ← List.splitOn_eq_splitOnP]

/-- A relative path goes on behind the segments of its base, but for an empty one at their end. -/
theorem splitOn_join_base (base : Path) (hq : q.isAbsolute = false) :
    ∃ front, (base.join q).text.splitOn '/' = front ++ q.text.splitOn '/' ∧
      (base.text.splitOn '/' = front ∨ base.text.splitOn '/' = front ++ [[]]) := by
  by_cases hempty : base.text = []
  · have hjoin : base.join q = q := if_pos (by simp [isEmpty, hempty])
    exact ⟨[], by rw [hjoin, List.nil_append], .inr (by rw [hempty]; rfl)⟩
  by_cases hlast : base.text.getLast? = some '/'
  · obtain ⟨t, ht⟩ := List.getLast?_eq_some_iff.mp hlast
    have hjoin : (base.join q).text = t ++ '/' :: q.text := by
      unfold join isEmpty
      rw [if_neg (by simp [hq, hempty]), if_pos (by simpa using hlast), ht]
      exact List.append_assoc t ['/'] q.text
    refine ⟨t.splitOn '/', by rw [hjoin, splitOn_append_slash], .inr ?_⟩
    rw [ht, splitOn_append_slash]
    rfl
  · have hjoin := congrArg Path.text (join_of_getLast? hq hempty hlast)
    exact ⟨base.text.splitOn '/', by rw [hjoin, splitOn_append_slash], .inl rfl⟩

/-- So it goes on behind those of them that lead somewhere. -/
theorem splitOn_join (base : Path) (hq : q.isAbsolute = false) :
    ∃ front, (base.join q).text.splitOn '/' = front ++ q.text.splitOn '/' ∧
      front.filter leads = base.steps := by
  obtain ⟨front, hsplit, hbase⟩ := splitOn_join_base base hq
  refine ⟨front, hsplit, ?_⟩
  unfold steps
  rcases hbase with hbase | hbase
  · rw [hbase]
  · rw [hbase, List.filter_append]
    exact (List.append_nil _).symm

theorem steps_join (hq : q.isAbsolute = false) : (base.join q).steps = base.steps ++ q.steps := by
  obtain ⟨front, hsplit, hfront⟩ := splitOn_join base hq
  rw [steps, hsplit, List.filter_append, hfront]
  rfl

theorem isAbsolute_join (hq : q.isAbsolute = false) :
    (base.join q).isAbsolute = base.isAbsolute := by
  by_cases hempty : base.text = []
  · have hjoin : base.join q = q := if_pos (by simp [isEmpty, hempty])
    rw [hjoin, hq, isAbsolute, hempty]
    rfl
  · unfold join isEmpty
    rw [if_neg (by simp [hq, hempty])]
    split <;> exact isAbsolute_append hempty _

theorem isEmpty_join (hq : q.text ≠ []) : (base.join q).isEmpty = false := by
  unfold join isEmpty
  split
  · simpa using hq
  · split <;> simp [hq]

theorem isAbsolute_of_not_mem {t : Text} (h : '/' ∉ t) : isAbsolute ⟨t⟩ = false := by
  refine Bool.eq_false_iff.mpr fun hroot => ?_
  obtain ⟨rest, hrest⟩ := exists_of_isAbsolute hroot
  exact h (Path.mk.inj hrest ▸ List.mem_cons_self)

theorem splitOn_of_not_mem {t : Text} (h : '/' ∉ t) : t.splitOn '/' = [t] := by
  have hjoin : (Text.join ['/'] [t]).splitOn '/' = [t] :=
    List.splitOn_intercalate '/' (by simpa using h) (List.cons_ne_nil t [])
  rwa [Text.join_singleton] at hjoin

/-- A name seen from a directory is one component more. -/
theorem parts_join_name (base : Path) {name : Text} (hn : IsName name) (hslash : '/' ∉ name) :
    (base.join ⟨name⟩).parts = base.parts ++ [.name name] := by
  have hrelative := isAbsolute_of_not_mem hslash
  obtain ⟨front, hsplit, hbase⟩ := splitOn_join_base base hrelative
  rw [splitOn_of_not_mem hslash] at hsplit
  exact parts_concat_name (isAbsolute_join hrelative) hbase hsplit hn

/-- The segments of a text hold its characters. -/
theorem mem_splitOn {c : Char} (hslash : c ≠ '/') {t : Text} :
    c ∈ t ↔ ∃ s ∈ t.splitOn '/', c ∈ s := by
  induction t with
  | nil => simp [List.splitOn_nil]
  | cons d t ih =>
    rw [List.splitOn_eq_splitOnP, List.splitOnP_cons_eq_if_modifyHead,
      ← List.splitOn_eq_splitOnP, List.mem_cons, ih]
    split
    · next hd =>
      have hd : d = '/' := by simpa using hd
      simp [hd, hslash]
    · obtain ⟨first, rest, ht⟩ := List.exists_cons_of_ne_nil (List.splitOn_ne_nil '/' t)
      rw [ht, List.modifyHead_cons]
      simp only [List.mem_cons, exists_eq_or_imp, or_assoc]

/-- So do those that lead somewhere, but for dots. -/
theorem mem_steps {c : Char} (hslash : c ≠ '/') (hdot : c ≠ '.') :
    c ∈ p.text ↔ ∃ s ∈ p.steps, c ∈ s := by
  rw [mem_splitOn hslash]
  constructor
  · rintro ⟨s, hs, hc⟩
    refine ⟨s, List.mem_filter.mpr ⟨hs, Bool.of_not_eq_false fun hidle => ?_⟩, hc⟩
    rcases isIdle_of_leads hidle with rfl | rfl
    · cases hc
    · exact hdot (List.mem_singleton.mp hc)
  · rintro ⟨s, hs, hc⟩
    exact ⟨s, (List.mem_filter.mp hs).1, hc⟩

end Path

namespace FileSystem

variable {fs : FileSystem} {a b q : Path} {l m : Location}

theorem descend_idle {segment : Text} (h : Path.IsIdle segment) :
    fs.descend l segment = fs.directoryAt l := by
  unfold descend
  cases fs.directoryAt l with
  | error e => rfl
  | ok m => rcases h with rfl | rfl <;> rfl

/-- A file that is written under a name in a directory stands in the place of that name below the
one that the directory's path leads to. -/
theorem write_join_ok {name : Text} (hslash : '/' ∉ name) {content : Bytes} {after : FileSystem}
    (h : fs.write (a.join ⟨name⟩) content = .ok after) :
    after = fs.put ((fs.reached a).child name) (.file content) := by
  have hrelative := Path.isAbsolute_of_not_mem hslash
  obtain ⟨front, last, hfront, rfl⟩ := write_ok h
  obtain ⟨front', hsplit, hbase⟩ := Path.splitOn_join_base a hrelative
  rw [Path.splitOn_of_not_mem hslash, hfront] at hsplit
  obtain ⟨rfl, hlast⟩ := List.append_inj' hsplit rfl
  obtain rfl : last = name := List.singleton_inj.mp hlast
  have hsame (start : Location) : front.foldl (Path.along follow) start =
      (a.text.splitOn '/').foldl (Path.along follow) start := by
    rcases hbase with hbase | hbase
    · rw [hbase]
    · rw [hbase, List.foldl_append, List.foldl_cons, List.foldl_nil, Path.along_idle (.inl rfl)]
  rw [Path.isAbsolute_join hrelative, hsame, reached_eq_foldl]

/-- Every step asks for a directory to start from, so an idle one before it adds nothing. -/
theorem foldlM_descend_idle {s : Text} (hs : Path.IsIdle s) {segments : List Text}
    (hne : segments ≠ []) (l : Location) :
    (s :: segments).foldlM (descend fs) l = segments.foldlM (descend fs) l := by
  obtain ⟨t, rest, rfl⟩ := List.exists_cons_of_ne_nil hne
  rw [List.foldlM_cons, descend_idle hs]
  cases hl : fs.directoryAt l with
  | error e =>
    rw [List.foldlM_cons]
    unfold descend
    rw [hl]
    rfl
  | ok m =>
    rw [(directoryAt_ok hl).1]
    rfl

theorem foldlM_descend_steps (front : List Text) {segments : List Text} (hne : segments ≠ [])
    (l : Location) : (front ++ segments).foldlM (descend fs) l =
      (front.filter Path.leads ++ segments).foldlM (descend fs) l := by
  induction front generalizing l with
  | nil => rfl
  | cons s front ih =>
    cases hs : Path.leads s with
    | true =>
      rw [List.filter_cons_of_pos hs, List.cons_append, List.cons_append, List.foldlM_cons,
        List.foldlM_cons]
      exact bind_congr fun m => ih m
    | false =>
      rw [List.filter_cons_of_neg (by simp [hs]), List.cons_append,
        foldlM_descend_idle (Path.isIdle_of_leads hs) (List.append_ne_nil_of_right_ne_nil front hne)]
      exact ih l

/-- A relative path leads to one place from directories with equal paths. -/
theorem locate_join_of_parts (hq : q.isAbsolute = false) (hne : q.text ≠ [])
    (hparts : a.parts = b.parts) (hl : fs.locate (a.join q) = .ok l)
    (hlength : Text.byteLength (b.join q).text ≤ 4095) : fs.locate (b.join q) = .ok l := by
  have hsteps : (a.join q).steps = (b.join q).steps := by
    rw [Path.steps_join hq, Path.steps_join hq, Path.steps_of_parts hparts]
  unfold locate at hl ⊢
  split at hl
  · cases hl
  next hnul =>
  split at hl
  · cases hl
  split at hl
  · cases hl
  have hnul' : Char.ofNat 0 ∉ (b.join q).text := by
    rw [Path.mem_steps (by decide) (by decide)] at hnul ⊢
    rwa [← hsteps]
  rw [if_neg hnul', Path.isEmpty_join hne, if_neg Bool.false_ne_true, if_neg (by omega)]
  obtain ⟨front, hsplit, hfront⟩ := Path.splitOn_join a hq
  obtain ⟨front', hsplit', hfront'⟩ := Path.splitOn_join b hq
  rw [hsplit, Path.isAbsolute_join hq, foldlM_descend_steps front (List.splitOn_ne_nil '/' q.text),
    hfront, Path.steps_of_parts hparts, Path.isAbsolute_of_parts hparts] at hl
  rwa [hsplit', Path.isAbsolute_join hq,
    foldlM_descend_steps front' (List.splitOn_ne_nil '/' q.text), hfront']

end FileSystem

end ConversationFlow

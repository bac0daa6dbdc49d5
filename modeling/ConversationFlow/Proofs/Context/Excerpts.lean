import ConversationFlow.Proofs.Context.Grammar

/-!
# Excerpts of files

An excerpt shows the lines that its reference names, as far as the file has them, each behind its
number (`Reference.Shows`). A reference whose first line lies past the end of the file is refused,
unless the file has no lines: it is then shown nothing of, under a header that a range counts
down to 0. What a line of a file is, is left to `Text.lines`.
-/

namespace ConversationFlow.Reference

variable {fs : FileSystem} {cwd dir path : Path} {reference content : Text} {r : Reference}
  {lines : List Text}

/-- The line that an excerpt begins with. -/
def start (r : Reference) : Nat := r.first.getD 1

/-- The line that an excerpt of a file with so many lines ends with. -/
def stop (r : Reference) (count : Nat) : Nat :=
  match r.last with
  | some m => min m count
  | none => count

/-- What stands above an excerpt from one line to another. -/
def header (r : Reference) (first last : Nat) : Text :=
  match r.first with
  | some _ => "### " ++ r.path ++ " (lines " ++ Text.ofNat first ++ "-" ++ Text.ofNat last ++ ")"
  | none => "### " ++ r.path

/-- The text shows the lines of a file from the first to the last, each behind its number. -/
structure Shows (r : Reference) (lines : List Text) (first last : Nat) (rows : List (Nat × Text))
    (text : Text) : Prop where
  /-- The rows are numbered from the first to the last, in order and each once. -/
  numbers : rows.map (·.1) = List.range' first (last + 1 - first)
  /-- Each row is the line of its number, counted from 1. -/
  unchanged : ∀ row ∈ rows, 1 ≤ row.1 ∧ lines[row.1 - 1]? = some row.2
  /-- The first and the last number that are shown are those in the header. -/
  bounds : rows.head?.map (·.1) = some first ∧ rows.getLast?.map (·.1) = some last
  /-- The numbers end in one column, with blanks before them up to the width of the last one. -/
  aligned : ∀ row ∈ rows, (Text.padLeft (Text.ofNat last).length (Text.ofNat row.1)).length =
    (Text.ofNat last).length
  text_eq : text = r.header first last ++ "\n```\n" ++
    Text.unlines (rows.map fun row =>
      Text.padLeft (Text.ofNat last).length (Text.ofNat row.1) ++ " | " ++ row.2) ++ "\n```"

/-- The lines of a file from one to another, with their numbers. -/
def rowsOf (lines : List Text) (first last : Nat) : List (Nat × Text) :=
  ((lines.drop (first - 1)).take (last - (first - 1))).mapIdx fun i line => (first + i, line)

/-- The text below a header. -/
def block (width : Nat) (rows : List (Nat × Text)) : Text :=
  "\n```\n" ++ Text.unlines (rows.map fun row => numbered width row.1 row.2) ++ "\n```"

/-! ## Bounds -/

theorem bounds_of_read (h : read reference = .ok r) :
    1 ≤ r.start ∧ ∀ m, r.last = some m → r.start ≤ m := by
  obtain ⟨-, hnames⟩ := names_of_read h
  obtain ⟨raw, path, first, last⟩ := r
  unfold start
  dsimp only at hnames ⊢
  generalize body reference = text at hnames
  cases hnames with
  | file => exact ⟨le_rfl, nofun⟩
  | lines _ _ range =>
    cases range with
    | line _ pos => exact ⟨pos, fun m hm => (Option.some.inj hm).le⟩
    | openEnd _ pos => exact ⟨pos, nofun⟩
    | closed _ pos _ ordered | marked _ pos _ ordered =>
      exact ⟨pos, fun m hm => ordered.trans (Option.some.inj hm).le⟩

/-- An excerpt of a file that has the first line ends there or behind it, within the file. -/
theorem stop_bounds (h : read reference = .ok r) {count : Nat} (inside : r.start ≤ count) :
    r.start ≤ r.stop count ∧ r.stop count ≤ count := by
  unfold stop
  split
  · next m hm => exact ⟨le_min ((bounds_of_read h).2 m hm) inside, min_le_right m count⟩
  · exact ⟨inside, le_rfl⟩

/-! ## Rows -/

theorem length_rowsOf {first last : Nat} (pos : 1 ≤ first) (within : last ≤ lines.length) :
    (rowsOf lines first last).length = last + 1 - first := by
  unfold rowsOf
  rw [List.length_mapIdx, List.length_take, List.length_drop]
  omega

theorem rowsOf_nil (first last : Nat) : rowsOf [] first last = [] := by
  unfold rowsOf
  rw [List.drop_nil, List.take_nil]
  rfl

theorem numbers_rowsOf {first last : Nat} (pos : 1 ≤ first) (within : last ≤ lines.length) :
    (rowsOf lines first last).map (·.1) = List.range' first (last + 1 - first) := by
  have hlength := length_rowsOf pos within
  refine List.ext_getElem (by rw [List.length_map, List.length_range', hlength]) fun i hi hi' => ?_
  rw [List.getElem_map, List.getElem_range', Nat.one_mul]
  unfold rowsOf
  rw [List.getElem_mapIdx]

theorem line_of_mem_rowsOf {first last : Nat} (pos : 1 ≤ first) {row : Nat × Text}
    (h : row ∈ rowsOf lines first last) : lines[row.1 - 1]? = some row.2 := by
  obtain ⟨i, hi, rfl⟩ := List.mem_mapIdx.mp h
  have hline : first + i - 1 = first - 1 + i := by omega
  rw [List.length_take] at hi
  dsimp only
  rw [hline, List.getElem_take, List.getElem_drop]
  exact List.getElem?_eq_getElem _

/-! ## Excerpts -/

/-- An excerpt as its header and its rows. -/
theorem excerptOf_eq (h : lines = [] ∨ r.start ≤ lines.length) :
    r.excerptOf? lines = some (r.header r.start (r.stop lines.length) ++
      block (Text.ofNat (max 1 (r.stop lines.length))).length
        (rowsOf lines r.start (r.stop lines.length))) := by
  have hrefused : ¬(!lines.isEmpty && decide (lines.length < r.start)) = true := by
    rw [Bool.and_eq_true, Bool.not_eq_true', decide_eq_true_eq, not_and]
    intro hne
    rcases h with rfl | h
    · cases hne
    · exact Nat.not_lt.mpr h
  have hrows (width : Nat) :
      (rowsOf lines r.start (r.stop lines.length)).map (fun row => numbered width row.1 row.2) =
        ((lines.drop (r.start - 1)).take (r.stop lines.length - (r.start - 1))).mapIdx
          fun i line => numbered width (r.start + i) line := by
    unfold rowsOf
    refine List.ext_getElem (by simp) fun i hi hi' => ?_
    rw [List.getElem_map, List.getElem_mapIdx, List.getElem_mapIdx]
  unfold block
  rw [hrows]
  unfold header stop start at *
  unfold excerptOf?
  dsimp only
  rw [if_neg hrefused]
  cases r.first <;> cases r.last <;> simp only [List.append_assoc]

theorem excerptOf_eq_none_iff :
    r.excerptOf? lines = none ↔ lines ≠ [] ∧ lines.length < r.start := by
  by_cases h : lines = [] ∨ r.start ≤ lines.length
  · rw [excerptOf_eq h]
    refine iff_of_false nofun fun ⟨hne, hlt⟩ => ?_
    exact h.elim hne (Nat.not_le.mpr hlt)
  · rw [not_or, Nat.not_le] at h
    refine iff_of_true ?_ h
    unfold excerptOf?
    dsimp only
    refine if_pos ?_
    rw [Bool.and_eq_true, Bool.not_eq_true', decide_eq_true_eq]
    exact ⟨by simpa using h.1, h.2⟩

/-- What comes of a reference to a file that can be read. -/
theorem excerpt_eq (hr : read reference = .ok r) (hp : r.locate fs cwd dir = .ok path)
    (hc : fs.readText path = .ok content) :
    excerpt fs cwd dir reference = (r.excerptOf? (Text.lines content)).elim
      (.error (.invalidRange r.raw (.pastEnd (Text.lines content).length))) .ok := by
  unfold excerpt
  rw [hr]
  dsimp only [bind, Except.bind]
  rw [hp]
  dsimp only
  rw [hc]
  dsimp only
  cases r.excerptOf? (Text.lines content) <;> rfl

theorem length_padLeft {width : Nat} {t : Text} (h : t.length ≤ width) :
    (Text.padLeft width t).length = width := by
  unfold Text.padLeft
  rw [List.length_append, List.length_replicate]
  omega

theorem shows_rowsOf {first last : Nat} (pos : 1 ≤ first) (ordered : first ≤ last)
    (within : last ≤ lines.length) :
    r.Shows lines first last (rowsOf lines first last)
      (r.header first last ++ block (Text.ofNat last).length (rowsOf lines first last)) := by
  have hnumbers := numbers_rowsOf pos within
  have hne : last + 1 - first ≠ 0 := by omega
  have hmem (row) (h : row ∈ rowsOf lines first last) : first ≤ row.1 ∧ row.1 ≤ last := by
    have hrow : row.1 ∈ (rowsOf lines first last).map (·.1) := List.mem_map_of_mem h
    rw [hnumbers, List.mem_range'_1] at hrow
    omega
  constructor
  · exact hnumbers
  · exact fun row h => ⟨pos.trans (hmem row h).1, line_of_mem_rowsOf pos h⟩
  · rw [← List.head?_map, ← List.getLast?_map, hnumbers, List.head?_range', List.getLast?_range',
      if_neg hne, if_neg hne]
    exact ⟨rfl, congrArg some (by omega)⟩
  · exact fun row h => length_padLeft (Text.length_ofNat_mono (hmem row h).2)
  · unfold block
    rw [← List.append_assoc, ← List.append_assoc]
    rfl

/-- The excerpt of a file that has the first line of its reference shows the lines from there to
the last line of the reference, or of the file if that comes before. -/
theorem excerpt_shows (hr : read reference = .ok r) (hp : r.locate fs cwd dir = .ok path)
    (hc : fs.readText path = .ok content) (inside : r.start ≤ (Text.lines content).length) :
    ∃ text rows, excerpt fs cwd dir reference = .ok text ∧
      r.Shows (Text.lines content) r.start (r.stop (Text.lines content).length) rows text := by
  have pos := (bounds_of_read hr).1
  obtain ⟨ordered, within⟩ := stop_bounds hr inside
  refine ⟨_, _, ?_, shows_rowsOf pos ordered within⟩
  rw [excerpt_eq hr hp hc, excerptOf_eq (.inr inside), max_eq_right (pos.trans ordered),
    Option.elim_some]

/-- A file of ten lines, and one without any. -/
def tenLinesAndNone : FileSystem where
  cwd := []
  nodes := [(["ten.txt".toList], .file (Text.toBytes "a\nb\nc\nd\ne\nf\ng\nh\ni\nj\n".toList)),
    (["none.txt".toList], .file [])]

/-- A range that goes past the end is cut there, and its numbers end in one column. -/
theorem range_is_cut_at_the_end :
    ∃ rows, rows.map (·.1) = [9, 10] ∧
      (⟨"@ten.txt#L9-L99".toList, "ten.txt".toList, some 9, some 99⟩ : Reference).Shows
        (Text.lines "a\nb\nc\nd\ne\nf\ng\nh\ni\nj\n".toList) 9 10 rows
        "### ten.txt (lines 9-10)\n```\n 9 | i\n10 | j\n```".toList := by
  have hr : read "@ten.txt#L9-L99".toList = .ok _ := rfl
  have hc : tenLinesAndNone.readText "ten.txt" = .ok "a\nb\nc\nd\ne\nf\ng\nh\ni\nj\n".toList := rfl
  obtain ⟨text, rows, htext, hshows⟩ :=
    @excerpt_shows tenLinesAndNone "" "" _ _ _ _ hr rfl hc (by decide)
  obtain rfl : _ = text := Except.ok.inj htext
  exact ⟨rows, hshows.numbers, hshows⟩

/-! ## Ranges past the end -/

/-- A file without lines has no last line. -/
theorem stop_zero (r : Reference) : r.stop 0 = 0 := by
  unfold stop
  split
  · exact Nat.min_zero _
  · rfl

/-- An excerpt goes down only if the file has no lines. -/
theorem start_le_stop_iff (hr : read reference = .ok r)
    (shown : lines = [] ∨ r.start ≤ lines.length) :
    r.start ≤ r.stop lines.length ↔ lines ≠ [] := by
  have pos := (bounds_of_read hr).1
  by_cases hempty : lines = []
  · refine iff_of_false ?_ (not_not_intro hempty)
    rw [hempty, List.length_nil, stop_zero]
    exact Nat.not_le.mpr pos
  · exact iff_of_true (stop_bounds hr (shown.resolve_left hempty)).1 hempty

theorem header_line_prefix (width : Nat) (rows : List (Nat × Text)) (first last : Nat) :
    r.header first last ++ ['\n'] <+: r.header first last ++ block width rows := by
  unfold block
  rw [List.prefix_append_right_inj]
  exact List.cons_prefix_cons.mpr ⟨rfl, List.nil_prefix⟩

/-- A range of a file that can be read is refused if its first line lies past the end of a file that
has lines, and for nothing else. One that is shown does not go down, unless the file has none: then
the header counts down to 0, and nothing stands below it. -/
theorem range_past_end_refused {n : Nat} (hr : read reference = .ok r) (hfirst : r.first = some n)
    (hp : r.locate fs cwd dir = .ok path) (hc : fs.readText path = .ok content) :
    (∀ e, excerpt fs cwd dir reference = .error e ↔
      (Text.lines content ≠ [] ∧ (Text.lines content).length < n) ∧
        e = .invalidRange r.raw (.pastEnd (Text.lines content).length)) ∧
    (∀ text, excerpt fs cwd dir reference = .ok text →
      ∃ last, r.header n last ++ ['\n'] <+: text ∧ (n ≤ last ↔ Text.lines content ≠ [])) ∧
    (Text.lines content = [] →
      excerpt fs cwd dir reference = .ok (r.header n 0 ++ "\n```\n\n```")) := by
  have hstart : r.start = n := by
    unfold start
    rw [hfirst]
    rfl
  have hexcerpt := excerpt_eq hr hp hc
  rw [hexcerpt, ← hstart]
  by_cases shown : Text.lines content = [] ∨ r.start ≤ (Text.lines content).length
  · rw [excerptOf_eq shown, Option.elim_some]
    refine ⟨fun e => iff_of_false nofun ?_, ?_, ?_⟩
    · rintro ⟨⟨hne, hpast⟩, -⟩
      exact shown.elim hne (Nat.not_le.mpr hpast)
    · intro text htext
      obtain rfl := Except.ok.inj htext
      exact ⟨_, header_line_prefix _ _ _ _, start_le_stop_iff hr shown⟩
    · intro hempty
      rw [hempty, List.length_nil, stop_zero, rowsOf_nil]
      rfl
  · rw [not_or, Nat.not_le] at shown
    rw [excerptOf_eq_none_iff.mpr shown, Option.elim_none]
    refine ⟨fun e => ?_, nofun, fun hempty => absurd hempty shown.1⟩
    exact ⟨fun h => ⟨shown, (Except.error.inj h).symm⟩, fun h => congrArg Except.error h.2.symm⟩

/-- Nothing is shown of a file without lines, from its fifth one on. -/
theorem no_line_is_shown_of_none :
    excerpt tenLinesAndNone "" "" "@none.txt#L5-L7".toList =
      .ok "### none.txt (lines 5-0)\n```\n\n```".toList ∧
    ¬∃ raw fault, excerpt tenLinesAndNone "" "" "@none.txt#L5-L7".toList =
      .error (.invalidRange raw fault) := by
  have hr : read "@none.txt#L5-L7".toList = .ok _ := rfl
  have hc : tenLinesAndNone.readText "none.txt" = .ok [] := rfl
  obtain ⟨hrefused, -, hempty⟩ :=
    @range_past_end_refused tenLinesAndNone "" "" _ _ _ _ _ hr rfl rfl hc
  exact ⟨hempty rfl, fun ⟨raw, fault, h⟩ => ((hrefused _).mp h).1.1 rfl⟩

end ConversationFlow.Reference

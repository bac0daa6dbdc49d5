import ConversationFlow.Text.Basic
import Mathlib.Data.List.DropRight

/-!
# Lines and the blanks at their ends

`Text.lines` takes apart what line feeds were put between or behind, as long as no line holds a
line feed or ends with a carriage return. A line without blanks at its end does not, for a
carriage return is a blank.
-/

namespace ConversationFlow.Text

/-! ## Runs of characters -/

/-- A run of characters of a kind ends where another character follows. -/
theorem span_append {p : Char → Bool} {run rest : Text} (hrun : ∀ c ∈ run, p c = true)
    (hrest : ∀ c ∈ rest.head?, p c = false) :
    (run ++ rest).takeWhile p = run ∧ (run ++ rest).dropWhile p = rest := by
  rw [List.takeWhile_append_of_pos hrun, List.dropWhile_append_of_pos hrun]
  cases rest with
  | nil => exact ⟨List.append_nil run, rfl⟩
  | cons c rest =>
    have hc : ¬p c = true := ne_true_of_eq_false (hrest c rfl)
    rw [List.takeWhile_cons_of_neg hc, List.dropWhile_cons_of_neg hc]
    exact ⟨List.append_nil run, rfl⟩

/-! ## Blanks at the ends -/

theorem trimEnd_eq (t : Text) : trimEnd t = t.rdropWhile isBlank := rfl

theorem trimEnd_eq_self_iff {t : Text} :
    trimEnd t = t ↔ ∀ c, t.getLast? = some c → isBlank c = false := by
  rw [trimEnd_eq, List.rdropWhile_eq_self_iff]
  constructor
  · intro h c hc
    obtain ⟨before, rfl⟩ := List.getLast?_eq_some_iff.mp hc
    simpa using h (by simp)
  · intro h hne
    simpa using h _ (List.getLast?_eq_some_getLast hne)

theorem trimStart_eq_self_iff {t : Text} :
    trimStart t = t ↔ ∀ c, t.head? = some c → isBlank c = false := by
  cases t with
  | nil => simp [trimStart]
  | cons c t =>
    unfold trimStart
    rw [List.dropWhile_cons]
    constructor
    · intro h d hd
      obtain rfl : c = d := by simpa using hd
      by_contra hb
      rw [if_pos (by simpa using hb)] at h
      have hlen := (List.dropWhile_suffix isBlank (l := t)).length_le
      rw [h, List.length_cons] at hlen
      omega
    · intro h
      rw [if_neg]
      simpa using h c rfl

theorem getLast_trimEnd {t : Text} {c : Char} (h : (trimEnd t).getLast? = some c) :
    isBlank c = false := by
  have hidem : trimEnd (trimEnd t) = trimEnd t := List.rdropWhile_idempotent _ _
  exact trimEnd_eq_self_iff.mp hidem c h

theorem head_trimStart {t : Text} {c : Char} (h : (trimStart t).head? = some c) :
    isBlank c = false := by
  have hidem : trimStart (trimStart t) = trimStart t := List.dropWhile_idempotent _ _
  exact trimStart_eq_self_iff.mp hidem c h

theorem trimEnd_prefix_self (t : Text) : trimEnd t <+: t := List.rdropWhile_prefix _ _

theorem head_trimEnd {t : Text} {c : Char} (h : (trimEnd t).head? = some c) :
    t.head? = some c := by
  obtain ⟨rest, hrest⟩ := trimEnd_prefix_self t
  cases ht : trimEnd t with
  | nil => simp [ht] at h
  | cons d s =>
    rw [ht] at h hrest
    rw [← hrest]
    simpa using h

theorem head_trim {t : Text} {c : Char} (h : (trim t).head? = some c) : isBlank c = false :=
  head_trimStart (head_trimEnd h)

theorem getLast_trim {t : Text} {c : Char} (h : (trim t).getLast? = some c) : isBlank c = false :=
  getLast_trimEnd h

theorem trim_eq_self_iff {t : Text} :
    trim t = t ↔ (∀ c, t.head? = some c → isBlank c = false) ∧
      ∀ c, t.getLast? = some c → isBlank c = false := by
  constructor
  · intro h
    rw [← h]
    exact ⟨fun c => head_trim, fun c => getLast_trim⟩
  · rintro ⟨hs, he⟩
    unfold trim
    rw [trimStart_eq_self_iff.mpr hs, trimEnd_eq_self_iff.mpr he]

theorem trim_trim (t : Text) : trim (trim t) = trim t :=
  trim_eq_self_iff.mpr ⟨fun _ => head_trim, fun _ => getLast_trim⟩

theorem trim_sublist (t : Text) : (trim t).Sublist t :=
  (trimEnd_prefix_self _).sublist.trans (List.dropWhile_suffix _).sublist

theorem trim_eq_nil_iff {t : Text} : trim t = [] ↔ allBlank t = true := by
  unfold trim
  rw [trimEnd_eq, List.rdropWhile_eq_nil_iff, allBlank, List.all_eq_true]
  constructor
  · intro h c hc
    by_cases hb : c ∈ trimStart t
    · exact h c hb
    · have hsplit := List.takeWhile_append_dropWhile (p := isBlank) (l := t)
      rw [← hsplit] at hc
      rcases List.mem_append.mp hc with hc | hc
      · exact List.mem_takeWhile_imp hc
      · exact absurd hc hb
  · intro h c hc
    exact h c ((List.dropWhile_suffix _).mem hc)

theorem allBlank_trimEnd (t : Text) : allBlank (trimEnd t) = allBlank t := by
  rw [trimEnd_eq]
  induction t using List.reverseRecOn with
  | nil => rfl
  | append_singleton before c ih =>
    by_cases hb : isBlank c = true
    · rw [List.rdropWhile_concat_pos _ _ _ hb, ih]
      simp [allBlank, hb]
    · rw [List.rdropWhile_concat_neg _ _ _ hb]

/-- A line that is blank and has no blanks at its end is empty. -/
theorem eq_nil_of_allBlank {t : Text} (he : trimEnd t = t) (hb : allBlank t = true) : t = [] := by
  rw [← he, trimEnd_eq, List.rdropWhile_eq_nil_iff]
  exact List.all_eq_true.mp hb

/-! ## Blanks that do not matter -/

theorem trim_trimEnd (t : Text) : trim (trimEnd t) = trim t := by
  unfold trim trimStart
  rw [trimEnd_eq, trimEnd_eq, trimEnd_eq]
  induction t using List.reverseRecOn with
  | nil => rfl
  | append_singleton before d ih =>
    by_cases hb : isBlank d = true
    · rw [List.rdropWhile_concat_pos _ _ _ hb, ih]
      by_cases hall : ∀ c ∈ before, isBlank c = true
      · have hall' : ∀ c ∈ before ++ [d], isBlank c = true := by
          intro c hc
          rcases List.mem_append.mp hc with hc | hc
          · exact hall c hc
          · rw [List.mem_singleton.mp hc]
            exact hb
        rw [List.dropWhile_eq_nil_iff.mpr hall, List.dropWhile_eq_nil_iff.mpr hall']
      · rw [List.dropWhile_append, if_neg, List.rdropWhile_concat_pos _ _ _ hb]
        rw [List.isEmpty_iff, List.dropWhile_eq_nil_iff]
        exact hall
    · rw [List.rdropWhile_concat_neg _ _ _ hb]

theorem trim_concat {c : Char} (hb : isBlank c = true) (t : Text) : trim (t ++ [c]) = trim t := by
  rw [← trim_trimEnd (t ++ [c]), ← trim_trimEnd t, trimEnd_eq, trimEnd_eq,
    List.rdropWhile_concat_pos _ _ _ hb]

theorem trim_cons {c : Char} (hb : isBlank c = true) (t : Text) : trim (c :: t) = trim t := by
  unfold trim trimStart
  rw [List.dropWhile_cons_of_pos hb]

/-! ## Values on one line -/

/-- A value on one line: no line feed in it, and no blanks around it. -/
structure IsLine (v : Text) : Prop where
  single : '\n' ∉ v
  trimmed : trim v = v

theorem isLine_nil : IsLine [] := ⟨List.not_mem_nil, rfl⟩

theorem isLine_trim {t : Text} (h : '\n' ∉ t) : IsLine (trim t) :=
  ⟨fun hm => h ((trim_sublist t).mem hm), trim_trim t⟩

theorem IsLine.eq_nil_iff {v : Text} (h : IsLine v) : v = [] ↔ allBlank v = true := by
  rw [← trim_eq_nil_iff, h.trimmed]

/-! ## Taking lines apart -/

/-- A line that is read as it was written. -/
structure IsClean (l : Text) : Prop where
  single : '\n' ∉ l
  noReturn : l.getLast? ≠ some '\r'

theorem isClean_nil : IsClean [] := ⟨List.not_mem_nil, nofun⟩

theorem isClean_of_trimEnd {l : Text} (h : '\n' ∉ l) (ht : trimEnd l = l) : IsClean l := by
  refine ⟨h, fun he => ?_⟩
  have hb := trimEnd_eq_self_iff.mp ht _ he
  exact absurd hb (by decide)

theorem IsLine.isClean {v : Text} (h : IsLine v) : IsClean v := by
  refine ⟨h.single, fun he => ?_⟩
  have hb := (trim_eq_self_iff.mp h.trimmed).2 _ he
  exact absurd hb (by decide)

theorem not_mem_lines_go {t seen l : Text} (hs : '\n' ∉ seen) (hl : l ∈ lines.go seen t) :
    '\n' ∉ l := by
  have hclosed (s : Text) (h : '\n' ∉ s) : '\n' ∉ (lines.closed s).reverse := by
    rw [List.mem_reverse]
    unfold lines.closed
    split
    · exact fun hm => h (List.mem_cons_of_mem _ hm)
    · exact h
  induction t generalizing seen with
  | nil =>
    rw [lines.go] at hl
    split at hl
    · cases hl
    · rw [List.mem_singleton.mp hl, List.mem_reverse]
      exact hs
  | cons c t ih =>
    by_cases hc : c = '\n'
    · subst hc
      rw [lines.go] at hl
      rcases List.mem_cons.mp hl with rfl | hl
      · exact hclosed seen hs
      · exact ih List.not_mem_nil hl
    · rw [lines.go] at hl
      · refine ih (fun hm => ?_) hl
        rcases List.mem_cons.mp hm with he | hm
        · exact hc he.symm
        · exact hs hm
      · exact hc

/-- The lines of a text hold no line feeds. -/
theorem not_mem_of_mem_lines {t l : Text} (h : l ∈ lines t) : '\n' ∉ l :=
  not_mem_lines_go List.not_mem_nil h

/-- Lines with a line feed behind each. -/
def ended (ls : List Text) : Text := ls.flatMap fun l => l ++ ['\n']

theorem ended_append (a b : List Text) : ended (a ++ b) = ended a ++ ended b :=
  List.flatMap_append

theorem ended_cons (l : Text) (ls : List Text) : ended (l :: ls) = l ++ '\n' :: ended ls := by
  rw [ended, List.flatMap_cons, List.append_assoc]
  rfl

theorem closed_reverse {l : Text} (h : l.getLast? ≠ some '\r') :
    (lines.closed l.reverse).reverse = l := by
  rcases List.eq_nil_or_concat l with rfl | ⟨before, c, rfl⟩
  · rfl
  · rw [List.concat_eq_append] at h ⊢
    rw [List.getLast?_concat] at h
    rw [List.reverse_append, List.reverse_singleton, List.singleton_append, lines.closed]
    · rw [List.reverse_cons, List.reverse_reverse]
    · intro seen he
      exact h (congrArg some (List.cons.inj he).1)

theorem lines_go_append {l seen t : Text} (h : '\n' ∉ l) :
    lines.go seen (l ++ t) = lines.go (l.reverse ++ seen) t := by
  induction l generalizing seen with
  | nil => rfl
  | cons c l ih =>
    have hc : c ≠ '\n' := fun he => h (by simp [he])
    rw [List.cons_append, lines.go]
    · rw [ih fun hm => h (List.mem_cons_of_mem c hm), List.reverse_cons, List.append_assoc]
      rfl
    · exact hc

theorem lines_line_append {l t : Text} (h : IsClean l) :
    lines (l ++ '\n' :: t) = l :: lines t := by
  unfold lines
  rw [lines_go_append h.single, List.append_nil, lines.go, closed_reverse h.noReturn]

/-- Lines with a line feed behind each are taken apart again, before what follows them. -/
theorem lines_ended_append {ls : List Text} (h : ∀ l ∈ ls, IsClean l) (t : Text) :
    lines (ended ls ++ t) = ls ++ lines t := by
  induction ls with
  | nil => rfl
  | cons l ls ih =>
    rw [ended_cons, List.append_assoc, List.cons_append,
      lines_line_append (h l List.mem_cons_self), ih fun m hm => h m (List.mem_cons_of_mem l hm),
      List.cons_append]

theorem unlines_cons_cons (l m : Text) (ls : List Text) :
    unlines (l :: m :: ls) = l ++ '\n' :: unlines (m :: ls) := join_cons_cons l m ls

theorem unlines_singleton (l : Text) : unlines [l] = l := join_singleton ['\n'] l

/-- Lines with a line feed between each two are taken apart again, unless the last is empty. -/
theorem lines_unlines {ls : List Text} (h : ∀ l ∈ ls, IsClean l) (hl : ls.getLast? ≠ some []) :
    lines (unlines ls) = ls := by
  induction ls with
  | nil => rfl
  | cons l rest ih =>
    cases rest with
    | nil =>
      have hne : l ≠ [] := fun he => hl (by rw [he]; rfl)
      rw [unlines_singleton]
      have hgo : lines.go [] (l ++ []) = lines.go (l.reverse ++ []) [] :=
        lines_go_append (h l List.mem_cons_self).single
      rw [List.append_nil, List.append_nil] at hgo
      unfold lines
      rw [hgo, lines.go, if_neg (by simpa using hne), List.reverse_reverse]
    | cons m ms =>
      rw [unlines_cons_cons, lines_line_append (h l List.mem_cons_self),
        ih (fun n hn => h n (List.mem_cons_of_mem l hn)) (by simpa using hl)]

/-- A line feed behind a last line that is not empty does not matter. -/
theorem lines_concat_newline {t : Text} {c : Char} (h : t.getLast? = some c) (hn : c ≠ '\n')
    (hr : c ≠ '\r') : lines (t ++ ['\n']) = lines t := by
  -- The induction is on the text that is left; the last character may have been seen.
  have go (t seen : Text) (h : (seen.reverse ++ t).getLast? = some c) :
      lines.go seen (t ++ ['\n']) = lines.go seen t := by
    induction t generalizing seen with
    | nil =>
      rw [List.append_nil] at h
      have hclosed : (lines.closed seen).reverse = seen.reverse := by
        have hreverse : seen.reverse.getLast? ≠ some '\r' := fun he =>
          hr (Option.some.inj (h.symm.trans he))
        have hread := closed_reverse hreverse
        rwa [List.reverse_reverse] at hread
      have hseen : seen.isEmpty = false := by
        cases seen with
        | nil => cases h
        | cons => rfl
      rw [List.nil_append, lines.go, lines.go, lines.go, hclosed, hseen]
      rfl
    | cons d t ih =>
      by_cases hd : d = '\n'
      · subst hd
        cases t with
        | nil => exact absurd (by simpa using h.symm) hn
        | cons e t =>
          rw [List.cons_append, lines.go, lines.go, ih [] (by simpa using h)]
      · rw [List.cons_append, lines.go, lines.go, ih (d :: seen) (by simpa using h)]
        · exact hd
        · exact hd
  exact go t [] h

end ConversationFlow.Text

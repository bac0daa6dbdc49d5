import ConversationFlow.Checkpoint
import ConversationFlow.Proofs.Value.Numbers
import ConversationFlow.Proofs.Value.Pieces

/-!
# Slugs

A slug is made of lower-case ASCII letters and digits, with single hyphens between them. Every text
has a slug, which keeps its ASCII letters and digits; the texts that are their own slugs are those of
this form and no others, and so no slug can name a path that leads anywhere else.
-/

namespace ConversationFlow

namespace Text

/-- A lower-case ASCII letter or a digit. -/
def IsPlain (c : Char) : Prop := isLowerLetter c = true ∨ isDigit c = true

instance (c : Char) : Decidable (IsPlain c) := inferInstanceAs (Decidable (_ ∨ _))

/-- Lower-case letters and digits, with single hyphens between them. -/
structure IsSlug (t : Text) : Prop where
  chars : ∀ c ∈ t, IsPlain c ∨ c = '-'
  head : t.head? ≠ some '-'
  last : t.getLast? ≠ some '-'
  single : ¬['-', '-'] <:+: t

/-- A character between the words of a slug. -/
def separatesRuns (c : Char) : Bool := !isAlphanumeric c

theorem ne_hyphen_of_isPlain {c : Char} (h : IsPlain c) : c ≠ '-' := by
  rintro rfl
  exact absurd h (by decide)

theorem separatesRuns_of_isPlain {c : Char} (h : IsPlain c) : separatesRuns c = false := by
  unfold separatesRuns isAlphanumeric
  rcases h with h | h <;> simp [h]

/-- A word of a slug. -/
def IsRun (w : Text) : Prop := w ≠ [] ∧ ∀ c ∈ w, IsPlain c

theorem IsRun.isPiece {w : Text} (h : IsRun w) : IsPiece separatesRuns w :=
  ⟨h.1, fun c hc => separatesRuns_of_isPlain (h.2 c hc)⟩

/-! ## Runs with hyphens between them -/

namespace IsSlug

variable {s t : Text}

theorem of_plain (h : ∀ c ∈ t, IsPlain c) : IsSlug t := by
  have hno : '-' ∉ t := fun hm => ne_hyphen_of_isPlain (h _ hm) rfl
  refine ⟨fun c hc => .inl (h c hc), fun hh => hno (List.mem_of_head? hh),
    fun hl => hno (List.mem_of_getLast? hl), fun hd => hno (hd.subset ?_)⟩
  exact List.mem_cons_self

/-- A hyphen between two slugs, of which the second is not empty. -/
theorem append (hs : IsSlug s) (hne : s ≠ []) (ht : IsSlug t) (htne : t ≠ []) :
    IsSlug (s ++ '-' :: t) where
  chars c hc := by
    rcases List.mem_append.mp hc with hc | hc
    · exact hs.chars c hc
    rcases List.mem_cons.mp hc with hc | hc
    · exact .inr hc
    · exact ht.chars c hc
  head := by
    rw [List.head?_append_of_ne_nil s hne]
    exact hs.head
  last := by
    obtain ⟨c, rest, rfl⟩ := List.exists_cons_of_ne_nil htne
    rw [List.getLast?_append_of_ne_nil s (List.cons_ne_nil _ _), List.getLast?_cons_cons]
    exact ht.last
  single := by
    rintro ⟨before, after, h⟩
    rw [List.append_assoc] at h
    -- The two hyphens stand in the first slug, at the one between, or in the second.
    rcases List.append_eq_append_iff.mp h with ⟨more, rfl, hmore⟩ | ⟨more, rfl, hmore⟩
    · match more, hmore with
      | [], hmore => exact ht.head (by simp [← (List.cons.inj hmore).2])
      | [c], hmore =>
        obtain rfl : '-' = c := (List.cons.inj hmore).1
        exact hs.last (by simp)
      | c :: d :: more, hmore =>
        obtain rfl : '-' = c := (List.cons.inj hmore).1
        obtain rfl : '-' = d := (List.cons.inj (List.cons.inj hmore).2).1
        exact hs.single ⟨before, more, by simp⟩
    · match more, hmore with
      | [], hmore => exact ht.head (by simp [(List.cons.inj hmore).2])
      | c :: more, hmore =>
        exact ht.single ⟨more, after, by simp [(List.cons.inj hmore).2]⟩

end IsSlug

theorem join_ne_nil {w : Text} (h : w ≠ []) (sep : Text) (ws : List Text) :
    join sep (w :: ws) ≠ [] := by
  cases ws with
  | nil => rwa [join_singleton]
  | cons v vs => simp [join, List.intercalate_cons_cons, h]

theorem isSlug_join {ws : List Text} (h : ∀ w ∈ ws, IsRun w) : IsSlug (join ['-'] ws) := by
  induction ws with
  | nil => exact .of_plain fun c hc => absurd hc List.not_mem_nil
  | cons w ws ih =>
    obtain ⟨hne, hw⟩ := h w List.mem_cons_self
    have hws := ih fun v hv => h v (List.mem_cons_of_mem w hv)
    cases ws with
    | nil =>
      rw [join_singleton]
      exact .of_plain hw
    | cons v vs =>
      rw [join_cons_cons]
      exact (IsSlug.of_plain hw).append hne hws
        (join_ne_nil (h v (List.mem_cons_of_mem w List.mem_cons_self)).1 ['-'] vs)

/-- Between the hyphens of a slug something stands. -/
theorem IsSlug.ne_nil_of_mem {t w : Text} (h : IsSlug t) (hne : t ≠ []) (hw : w ∈ t.splitOn '-') :
    w ≠ [] := by
  rintro rfl
  obtain ⟨before, after, hsplit⟩ := List.append_of_mem hw
  have ht : t = join ['-'] (before ++ [] :: after) := by
    rw [← hsplit]
    exact (List.intercalate_splitOn '-').symm
  have hafter (ha : after ≠ []) : join ['-'] ([] :: after) = '-' :: join ['-'] after := by
    obtain ⟨v, vs, rfl⟩ := List.exists_cons_of_ne_nil ha
    exact join_cons_cons [] v vs
  by_cases hb : before = []
  · rw [hb, List.nil_append] at ht
    by_cases ha : after = []
    · rw [ha, join_singleton] at ht
      exact hne ht
    · exact h.head (by rw [ht, hafter ha]; rfl)
  · rw [join_append hb (List.cons_ne_nil [] after)] at ht
    by_cases ha : after = []
    · rw [ha, join_singleton] at ht
      exact h.last (by rw [ht, List.getLast?_concat])
    · rw [hafter ha] at ht
      exact h.single ⟨join ['-'] before, join ['-'] after, by rw [ht]; simp⟩

/-- A slug is taken apart at its hyphens. -/
theorem IsSlug.exists_runs {t : Text} (h : IsSlug t) :
    ∃ ws : List Text, (∀ w ∈ ws, IsRun w) ∧ t = join ['-'] ws := by
  by_cases hne : t = []
  · exact ⟨[], fun w hw => absurd hw List.not_mem_nil, hne⟩
  refine ⟨t.splitOn '-', fun w hw => ⟨h.ne_nil_of_mem hne hw, fun c hc => ?_⟩,
    (List.intercalate_splitOn '-').symm⟩
  have hfrom := mem_splitOnPPrepend [] hw (fun _ hn => absurd hn List.not_mem_nil) c hc
  refine (h.chars c (hfrom.2.resolve_left List.not_mem_nil)).resolve_right ?_
  simpa using hfrom.1

end Text

/-! ## The slug of a text -/

namespace Text

theorem isLowerLetter_toLower {c : Char} (h : isUpperLetter c = true) :
    isLowerLetter c.toLower = true := by
  have letters : ∀ i : Fin 26, isLowerLetter (Char.ofNat (65 + i)).toLower = true := by decide
  simp only [isUpperLetter, Bool.and_eq_true, decide_eq_true_eq, Char.le_def,
    UInt32.le_iff_toNat_le] at h
  have h1 : 65 ≤ c.toNat := h.1
  have h2 : c.toNat ≤ 90 := h.2
  have hc := letters ⟨c.toNat - 65, by omega⟩
  rwa [show 65 + (c.toNat - 65) = c.toNat by omega, Char.ofNat_toNat] at hc

theorem isPlain_lower {c : Char} (h : isAlphanumeric c = true) :
    IsPlain (if isUpperLetter c then c.toLower else c) := by
  split
  · next hu => exact .inl (isLowerLetter_toLower hu)
  · next hu =>
    rw [isAlphanumeric, Bool.or_eq_true, Bool.or_eq_true] at h
    exact (h.resolve_right hu).symm

theorem isUpperLetter_of_isPlain {c : Char} (h : IsPlain c) : isUpperLetter c = false := by
  rcases h with h | h
  · simp only [isLowerLetter, Bool.and_eq_true, decide_eq_true_eq, Char.le_def,
      UInt32.le_iff_toNat_le] at h
    have h1 : 97 ≤ c.toNat := h.1
    rw [isUpperLetter, Bool.and_eq_false_iff, decide_eq_false_iff_not, decide_eq_false_iff_not]
    refine .inr fun hu => ?_
    simp only [Char.le_def, UInt32.le_iff_toNat_le] at hu
    have h2 : c.toNat ≤ 90 := hu
    omega
  · exact (isDigit_range h).2

theorem lowerAscii_of_plain {w : Text} (h : ∀ c ∈ w, IsPlain c) : lowerAscii w = w := by
  refine (List.map_congr_left fun c hc => ?_).trans (List.map_id w)
  rw [isUpperLetter_of_isPlain (h c hc)]
  rfl

theorem filter_of_plain {w : Text} (h : ∀ c ∈ w, IsPlain c) : w.filter isAlphanumeric = w := by
  rw [List.filter_eq_self]
  intro c hc
  simpa [separatesRuns] using separatesRuns_of_isPlain (h c hc)

/-- The pieces of a text hold what does not separate them. -/
theorem flatten_pieces (separates : Char → Bool) (t : Text) :
    (pieces separates t).flatten = t.filter fun c => !separates c := by
  rw [pieces, List.flatten_filter_not_isEmpty]
  induction t with
  | nil => rfl
  | cons c t ih =>
    rw [List.splitOnP_cons_eq_if_modifyHead, List.filter_cons]
    cases hc : separates c with
    | true => rwa [if_pos rfl, if_neg (by simp)]
    | false =>
      obtain ⟨first, rest, ht⟩ := List.exists_cons_of_ne_nil (List.splitOnP_ne_nil separates t)
      rw [if_neg (by simp), if_pos (by simp), ← ih, ht]
      rfl

theorem filter_join {ws : List Text} (h : ∀ w ∈ ws, IsRun w) :
    (join ['-'] ws).filter isAlphanumeric = ws.flatten := by
  induction ws with
  | nil => rfl
  | cons w ws ih =>
    have hw := filter_of_plain (h w List.mem_cons_self).2
    have hws := ih fun v hv => h v (List.mem_cons_of_mem w hv)
    rw [List.flatten_cons]
    cases ws with
    | nil => rw [join_singleton, hw, List.flatten_nil, List.append_nil]
    | cons v vs =>
      rw [join_cons_cons, List.filter_append, hw, List.filter_cons_of_neg (by decide), hws]

end Text

/-- The slug of a text has the runs of its letters and digits, in lower case. -/
theorem slug_eq (t : Text) :
    slug t = Text.join ['-'] ((Text.pieces Text.separatesRuns t).map Text.lowerAscii) := by
  have hruns (runs : List Text) : (runs.filterMap fun run =>
      if run.isEmpty then none else some (Text.lowerAscii run)) =
        (runs.filter fun run => !run.isEmpty).map Text.lowerAscii := by
    induction runs with
    | nil => rfl
    | cons run runs ih => cases run <;> simp_all
  exact congrArg (Text.join ['-']) (hruns _)

theorem isRun_of_mem {t w : Text}
    (h : w ∈ (Text.pieces Text.separatesRuns t).map Text.lowerAscii) : Text.IsRun w := by
  obtain ⟨run, hrun, rfl⟩ := List.mem_map.mp h
  obtain ⟨⟨hne, hchars⟩, -⟩ := Text.isPiece_of_mem hrun
  refine ⟨by simpa [Text.lowerAscii] using hne, fun c hc => ?_⟩
  obtain ⟨d, hd, rfl⟩ := List.mem_map.mp hc
  exact Text.isPlain_lower (by simpa [Text.separatesRuns] using hchars d hd)

/-- No letter and no digit is lost. -/
theorem filter_slug (t : Text) :
    (slug t).filter Text.isAlphanumeric = Text.lowerAscii (t.filter Text.isAlphanumeric) := by
  have hkept : (t.filter fun c => !Text.separatesRuns c) = t.filter Text.isAlphanumeric :=
    List.filter_congr fun c _ => Bool.not_not _
  rw [slug_eq, Text.filter_join fun w => isRun_of_mem, ← hkept, ← Text.flatten_pieces]
  exact List.map_flatten.symm

theorem isSlug_slug (t : Text) : Text.IsSlug (slug t) := by
  rw [slug_eq]
  exact Text.isSlug_join fun w => isRun_of_mem

theorem slug_eq_self_iff {t : Text} : slug t = t ↔ Text.IsSlug t := by
  refine ⟨fun h => h ▸ isSlug_slug t, fun h => ?_⟩
  obtain ⟨ws, hws, rfl⟩ := h.exists_runs
  have hhyphen : ∀ c ∈ ['-'], Text.separatesRuns c = true := by
    intro c hc
    rw [List.mem_singleton.mp hc]
    rfl
  rw [slug_eq, Text.pieces_join (fun w hw => (hws w hw).isPiece) hhyphen (List.cons_ne_nil _ _)]
  congr 1
  exact (List.map_congr_left fun w hw => Text.lowerAscii_of_plain (hws w hw).2).trans
    (List.map_id ws)

end ConversationFlow

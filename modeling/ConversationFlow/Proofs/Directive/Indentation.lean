import ConversationFlow.Proofs.Directive.TextValue
import ConversationFlow.Proofs.Text.Offsets
import Mathlib.Data.List.Forall2

/-!
# What is taken off the lines of a text

The lines below a directive lose the blank lines at their end, the blanks that all lines with text
begin with, and the blanks at the end of each line. This says which blanks these are, without the
fold that computes them: the longest that stand before every line with text. The fold may cut at
positions in bytes, for none of them falls inside a character.
-/

namespace ConversationFlow.Directive

variable {ls : List Text}

/-- The longest blanks with which every line that has text begins. -/
structure IsCommonIndent (indent : Text) (ls : List Text) : Prop where
  blank : Text.allBlank indent = true
  shared : ∀ l ∈ ls, Text.allBlank l = false → indent <+: l
  longest : ∀ i, Text.allBlank i = true → (∀ l ∈ ls, Text.allBlank l = false → i <+: l) →
    i <+: indent

theorem prefix_sharedStart {i a b : Text} (ha : i <+: a) (hb : i <+: b) :
    i <+: Text.sharedStart a b := by
  obtain ⟨s, rfl⟩ := ha
  obtain ⟨t, rfl⟩ := hb
  rw [sharedStart_append]
  exact List.prefix_append i _

theorem prefix_foldl_sharedStart {i a : Text} {bs : List Text} (ha : i <+: a)
    (hbs : ∀ b ∈ bs, i <+: b) : i <+: bs.foldl Text.sharedStart a := by
  induction bs generalizing a with
  | nil => exact ha
  | cons b bs ih =>
    exact ih (prefix_sharedStart ha (hbs b List.mem_cons_self))
      fun d hd => hbs d (List.mem_cons_of_mem b hd)

/-- Blanks before a line are part of its indentation. -/
theorem prefix_indent {i l : Text} (hi : Text.allBlank i = true) (hl : i <+: l) :
    i <+: Text.indent l := by
  obtain ⟨rest, rfl⟩ := hl
  rw [Text.indent, List.takeWhile_append_of_pos (List.all_eq_true.mp hi)]
  exact List.prefix_append i _

theorem allBlank_of_prefix {i l : Text} (h : i <+: l) (hl : Text.allBlank l = true) :
    Text.allBlank i = true := by
  obtain ⟨rest, rfl⟩ := h
  rw [Text.allBlank, List.all_append, Bool.and_eq_true] at hl
  exact hl.1

/-- Where a line has text, the shared indentation is the longest there is. -/
theorem isCommonIndent_commonIndent (h : ∃ l ∈ ls, Text.allBlank l = false) :
    IsCommonIndent (commonIndent ls) ls where
  blank := by
    obtain ⟨l, hl, hb⟩ := h
    exact allBlank_of_prefix (commonIndent_prefix_of_mem hl hb) (List.all_takeWhile ..)
  shared l hl hb := (commonIndent_prefix_of_mem hl hb).trans (List.takeWhile_prefix _)
  longest i hi hall := by
    have hindents : ∀ j ∈ (ls.filter fun l => !Text.allBlank l).map Text.indent, i <+: j := by
      intro j hj
      obtain ⟨l, hl, rfl⟩ := List.mem_map.mp hj
      obtain ⟨hin, htext⟩ := List.mem_filter.mp hl
      exact prefix_indent hi (hall l hin (by simpa using htext))
    obtain ⟨l, hl, hb⟩ := h
    have hsome : Text.indent l ∈ (ls.filter fun l => !Text.allBlank l).map Text.indent :=
      List.mem_map_of_mem (List.mem_filter.mpr ⟨hl, by rw [hb]; rfl⟩)
    unfold commonIndent
    split
    · next hnil =>
      rw [hnil] at hsome
      cases hsome
    · next first rest hcons =>
      rw [hcons] at hindents
      exact prefix_foldl_sharedStart (hindents first List.mem_cons_self)
        fun j hj => hindents j (List.mem_cons_of_mem first hj)

theorem trimEnd_of_allBlank {t : Text} (h : Text.allBlank t = true) : Text.trimEnd t = [] := by
  rw [Text.trimEnd_eq, List.rdropWhile_eq_nil_iff]
  exact List.all_eq_true.mp h

/-- Every line loses as many characters as are shared, and the blanks at its end; of a blank line
nothing is left. -/
theorem dedentLine_eq {l : Text} (hl : l ∈ ls) :
    dedentLine (commonIndent ls) l = Text.trimEnd (l.drop (commonIndent ls).length) := by
  cases hb : Text.allBlank l with
  | true =>
    have hdrop : Text.allBlank (l.drop (commonIndent ls).length) = true :=
      List.all_eq_true.mpr fun c hc => List.all_eq_true.mp hb c (List.mem_of_mem_drop hc)
    rw [dedentLine_of_blank hb, trimEnd_of_allBlank hdrop]
  | false => exact dedentLine_of_text hl hb

/-- Without the shared indentation, lines share none. -/
theorem commonIndent_dedented (ls : List Text) :
    commonIndent (ls.map (dedentLine (commonIndent ls))) = [] := by
  by_contra hne
  obtain ⟨d, hd, htext⟩ := exists_text_of_commonIndent hne
  obtain ⟨m, hm, rfl⟩ := List.mem_map.mp hd
  rw [allBlank_dedentLine hm] at htext
  have hold := isCommonIndent_commonIndent ⟨m, hm, htext⟩
  have hnew := isCommonIndent_commonIndent
    ⟨_, hd, (allBlank_dedentLine hm).trans htext⟩
  -- What is shared before and after would be shared before.
  have hblank : Text.allBlank (commonIndent ls ++
      commonIndent (ls.map (dedentLine (commonIndent ls)))) = true := by
    unfold Text.allBlank
    rw [List.all_append, Bool.and_eq_true]
    exact ⟨hold.blank, hnew.blank⟩
  have hlonger := hold.longest _ hblank fun l hl hb => by
    have hdrop := hnew.shared _ (List.mem_map_of_mem hl) ((allBlank_dedentLine hl).trans hb)
    rw [dedentLine_of_text hl hb] at hdrop
    have hjoined := (List.prefix_append_right_inj (commonIndent ls)).mpr
      (hdrop.trans (Text.trimEnd_prefix_self _))
    rwa [← List.prefix_iff_eq_append.mp (hold.shared l hl hb)]
  have hlength := hlonger.length_le
  rw [List.length_append] at hlength
  exact hne (List.eq_nil_of_length_eq_zero (by omega))

theorem IsCommonIndent.unique {i j : Text} (hi : IsCommonIndent i ls) (hj : IsCommonIndent j ls) :
    i = j :=
  List.IsPrefix.eq_of_length_le (hj.longest i hi.blank hi.shared)
    (hi.longest j hj.blank hj.shared).length_le

/-- A value with a text below it: the value, then the lines without the blank ones at their end,
each without the shared indentation and the blanks at its own end. -/
def IsTextValue (value : Text) (below : List Text) (v : Text) : Prop :=
  ∃ kept blanks, below = kept ++ blanks ∧ (∀ l ∈ blanks, Text.allBlank l = true) ∧
    (∀ l, kept.getLast? = some l → Text.allBlank l = false) ∧
    (kept = [] ∧ v = value ∨
      kept ≠ [] ∧ ∃ indent, IsCommonIndent indent kept ∧
        v = Text.unlines ((if value = [] then [] else [value]) ++
          kept.map fun l => Text.trimEnd (l.drop indent.length)))

theorem isTextValue_taken (value : Text) (below : List Text) :
    IsTextValue value below (taken value below) := by
  have hdedent : dedent below = (below.rdropWhile Text.allBlank).map
      (dedentLine (commonIndent (below.rdropWhile Text.allBlank))) := rfl
  have hlast (l : Text) (hl : (below.rdropWhile Text.allBlank).getLast? = some l) :
      Text.allBlank l = false := by
    obtain ⟨hne, rfl⟩ := List.mem_getLast?_eq_getLast hl
    simpa using List.rdropWhile_last_not Text.allBlank below hne
  refine ⟨below.rdropWhile Text.allBlank, below.rtakeWhile Text.allBlank,
    (List.rdropWhile_append_rtakeWhile ..).symm, fun l => List.mem_rtakeWhile_imp, hlast, ?_⟩
  generalize below.rdropWhile Text.allBlank = kept at hdedent hlast
  unfold taken
  rw [hdedent]
  cases kept with
  | nil => exact .inl ⟨rfl, rfl⟩
  | cons first rest =>
    obtain ⟨l, hl⟩ : ∃ l, (first :: rest).getLast? = some l :=
      ⟨_, List.getLast?_eq_some_getLast (List.cons_ne_nil first rest)⟩
    refine .inr ⟨List.cons_ne_nil first rest, commonIndent (first :: rest),
      isCommonIndent_commonIndent ⟨l, List.mem_of_getLast? hl, hlast l hl⟩, ?_⟩
    rw [← List.map_congr_left fun m hm => dedentLine_eq hm, List.map_cons]
    cases value with
    | nil => rfl
    | cons c value => exact (Text.unlines_cons_cons ..).symm

/-- Lines are split in one way into those up to the last with text and blank ones behind it. -/
theorem kept_unique {kept blanks kept' blanks' : List Text} (h : kept ++ blanks = kept' ++ blanks')
    (hb : ∀ l ∈ blanks, Text.allBlank l = true)
    (hl' : ∀ l, kept'.getLast? = some l → Text.allBlank l = false) : kept' <+: kept := by
  rcases List.append_eq_append_iff.mp h with ⟨more, rfl, rfl⟩ | ⟨more, rfl, rfl⟩
  · rcases List.eq_nil_or_concat more with rfl | ⟨before, l, rfl⟩
    · exact ⟨[], by rw [List.append_nil, List.append_nil]⟩
    · have htext := hl' l (by rw [List.concat_eq_append, ← List.append_assoc, List.getLast?_concat])
      rw [hb l (by simp)] at htext
      cases htext
  · exact List.prefix_append kept' more

/-- The rule gives the value that is read, and no other. -/
theorem isTextValue_iff {value : Text} {below : List Text} {v : Text} :
    IsTextValue value below v ↔ v = taken value below := by
  refine ⟨?_, fun h => h ▸ isTextValue_taken value below⟩
  rintro ⟨kept, blanks, rfl, hb, hl, hv⟩
  obtain ⟨kept', blanks', hsplit, hb', hl', hv'⟩ := isTextValue_taken value (kept ++ blanks)
  obtain rfl : kept = kept' := List.IsPrefix.eq_of_length_le (kept_unique hsplit.symm hb' hl)
    (kept_unique hsplit hb hl').length_le
  rcases hv with ⟨hnil, rfl⟩ | ⟨hne, indent, hi, rfl⟩
  · exact (hv'.resolve_right fun h => h.1 hnil).2.symm
  · obtain ⟨-, indent', hi', hv'⟩ := hv'.resolve_left fun h => hne h.1
    rw [hv', hi.unique hi']

/-! ## Cut by bytes -/

/-- The blanks that a line begins with: the bytes that it has more than what is left without them. -/
def cutIndent? (l : Text) : Option Text :=
  Text.upTo? (Text.byteLength l - Text.byteLength (Text.trimStart l)) l

/-- What a text shares with another, up to the position at which they part. -/
def cutShared? (a b : Text) : Option Text := Text.upTo? (Text.parting a b) a

/-- The shared indentation, if no cut goes through a character. -/
def cutCommonIndent? (ls : List Text) : Option Text := do
  match ← (ls.filter fun l => !Text.allBlank l).mapM cutIndent? with
  | [] => return []
  | first :: rest => rest.foldlM cutShared? first

/-- Texts share what both begin with, and nothing longer. -/
theorem prefix_sharedStart_iff {p a b : Text} : p <+: Text.sharedStart a b ↔ p <+: a ∧ p <+: b :=
  ⟨fun h => ⟨h.trans (sharedStart_prefix_left a b), h.trans (sharedStart_prefix_right a b)⟩,
    fun h => prefix_sharedStart h.1 h.2⟩

theorem upTo_parting (a b : Text) :
    Text.upTo? (Text.parting a b) a = some (Text.sharedStart a b) ∧
      Text.upTo? (Text.parting a b) b = some (Text.sharedStart a b) :=
  have hlength := (Text.parting_eq a b).symm
  ⟨Text.upTo_eq_some_iff.mpr ⟨sharedStart_prefix_left a b, hlength⟩,
    Text.upTo_eq_some_iff.mpr ⟨sharedStart_prefix_right a b, hlength⟩⟩

theorem cutIndent_eq (l : Text) : cutIndent? l = some (Text.indent l) := by
  have hsplit : Text.indent l ++ Text.trimStart l = l := List.takeWhile_append_dropWhile
  have hlength := Text.byteLength_append (Text.indent l) (Text.trimStart l)
  rw [hsplit] at hlength
  exact Text.upTo_eq_some_iff.mpr ⟨List.takeWhile_prefix _, by omega⟩

/-- No cut goes through a character, and what is cut is the shared indentation. -/
theorem cutCommonIndent_eq (ls : List Text) : cutCommonIndent? ls = some (commonIndent ls) := by
  have hindents : (ls.filter fun l => !Text.allBlank l).mapM cutIndent? =
      some ((ls.filter fun l => !Text.allBlank l).map Text.indent) := by
    rw [funext cutIndent_eq]
    exact List.mapM_pure
  unfold cutCommonIndent? commonIndent
  rw [hindents]
  cases (ls.filter fun l => !Text.allBlank l).map Text.indent with
  | nil => rfl
  | cons first rest =>
    have hshared : cutShared? = fun a b => some (Text.sharedStart a b) :=
      funext fun a => funext fun b => (upTo_parting a b).1
    rw [hshared]
    exact List.foldlM_pure

/-! ## What is left of the lines -/

/-- A line that was blank is empty; one that was not begins with the indentation, and has no blanks
behind it any more. -/
structure IsStripped (indent l m : Text) : Prop where
  of_blank : Text.allBlank l = true → m = []
  of_text : Text.allBlank l = false → Text.allBlank m = false ∧ Text.trimEnd m = m ∧
    Text.indent l = indent ++ Text.indent m ∧
    ∃ blanks, Text.allBlank blanks = true ∧ Text.after? indent l = some (m ++ blanks)

theorem indent_append_of_text {m : Text} (h : Text.allBlank m = false) (t : Text) :
    Text.indent (m ++ t) = Text.indent m := by
  rw [Text.indent, List.takeWhile_append, if_neg]
  · rfl
  · intro hlength
    have hall := List.all_takeWhile (p := Text.isBlank) (l := m)
    rw [(List.takeWhile_prefix Text.isBlank).eq_of_length hlength] at hall
    exact absurd (h.symm.trans hall) nofun

theorem isStripped_dedentLine {l : Text} (hl : l ∈ ls) :
    IsStripped (commonIndent ls) l (dedentLine (commonIndent ls) l) where
  of_blank hb := dedentLine_of_blank hb
  of_text hb := by
    have htext : Text.allBlank (dedentLine (commonIndent ls) l) = false :=
      (allBlank_dedentLine hl).trans hb
    have hi := commonIndent_prefix_of_mem hl hb
    have hp : commonIndent ls <+: l := hi.trans (List.takeWhile_prefix _)
    have hrest : l.drop (commonIndent ls).length = dedentLine (commonIndent ls) l ++
        (l.drop (commonIndent ls).length).rtakeWhile Text.isBlank := by
      rw [dedentLine_of_text hl hb]
      exact (List.rdropWhile_append_rtakeWhile ..).symm
    have hafter := after_prefix hp
    rw [hrest] at hafter
    refine ⟨htext, trimEnd_dedentLine _ l, ?_, _, ?_, hafter⟩
    · have hblank := allBlank_of_prefix hi (List.all_takeWhile ..)
      conv_lhs => rw [← List.prefix_iff_eq_append.mp hp, hrest]
      rw [Text.indent, List.takeWhile_append_of_pos (List.all_eq_true.mp hblank)]
      exact congrArg _ (indent_append_of_text htext _)
    · exact List.all_eq_true.mpr fun c => List.mem_rtakeWhile_imp

/-- Blank lines at the end have no part in the indentation. -/
theorem commonIndent_rdropWhile (ls : List Text) :
    commonIndent (ls.rdropWhile Text.allBlank) = commonIndent ls := by
  conv_rhs => rw [← List.rdropWhile_append_rtakeWhile (p := Text.allBlank) (l := ls)]
  have hnone : (ls.rtakeWhile Text.allBlank).filter (fun l => !Text.allBlank l) = [] :=
    List.filter_eq_nil_iff.mpr fun l hl => by simp [List.mem_rtakeWhile_imp hl]
  unfold commonIndent
  rw [List.filter_append, hnone, List.append_nil]

theorem dedent_eq (ls : List Text) : dedent ls =
    (ls.rdropWhile Text.allBlank).map (dedentLine (commonIndent ls)) := by
  rw [← commonIndent_rdropWhile]
  rfl

theorem dedent_eq_nil_iff : dedent ls = [] ↔ ∀ l ∈ ls, Text.allBlank l = true := by
  rw [dedent_eq, List.map_eq_nil_iff, List.rdropWhile_eq_nil_iff]

/-- What is left shares no indentation, if there is text. -/
theorem isCommonIndent_nil_dedent (h : ∃ l ∈ ls, Text.allBlank l = false) :
    IsCommonIndent [] (dedent ls) := by
  have hnone : commonIndent (dedent ls) = [] :=
    commonIndent_dedented (ls.rdropWhile Text.allBlank)
  obtain ⟨l, hl, hb⟩ := h
  have hkept : l ∈ ls.rdropWhile Text.allBlank := by
    rw [← List.rdropWhile_append_rtakeWhile (p := Text.allBlank) (l := ls)] at hl
    refine (List.mem_append.mp hl).resolve_right fun hm => ?_
    rw [List.mem_rtakeWhile_imp hm] at hb
    cases hb
  rw [← hnone]
  refine isCommonIndent_commonIndent ⟨dedentLine (commonIndent ls) l, ?_, ?_⟩
  · rw [dedent_eq]
    exact List.mem_map_of_mem hkept
  · exact ((isStripped_dedentLine hl).of_text hb).1

/-- Two texts share the longest text that both begin with, which ends between characters of both. So
the indentation that is cut off is the longest that lines with text have in common: every one of
them begins with it, keeps what it is indented by beyond it, and after that they have none in
common. Without text no line is left. -/
theorem dedent_takes_off_common_indent :
    (∀ a b, (∀ p, p <+: Text.sharedStart a b ↔ p <+: a ∧ p <+: b) ∧
      Text.upTo? (Text.parting a b) a = some (Text.sharedStart a b) ∧
      Text.upTo? (Text.parting a b) b = some (Text.sharedStart a b)) ∧
    ∀ ls, (dedent ls = [] ↔ ∀ l ∈ ls, Text.allBlank l = true) ∧
      ((∃ l ∈ ls, Text.allBlank l = false) →
        cutCommonIndent? (ls.rdropWhile Text.allBlank) = some (commonIndent ls) ∧
        IsCommonIndent (commonIndent ls) ls ∧
        List.Forall₂ (IsStripped (commonIndent ls)) (ls.rdropWhile Text.allBlank) (dedent ls) ∧
        IsCommonIndent [] (dedent ls)) := by
  refine ⟨fun a b => ⟨fun p => prefix_sharedStart_iff, upTo_parting a b⟩,
    fun ls => ⟨dedent_eq_nil_iff, fun h => ?_⟩⟩
  refine ⟨?_, isCommonIndent_commonIndent h, ?_, isCommonIndent_nil_dedent h⟩
  · rw [cutCommonIndent_eq, commonIndent_rdropWhile]
  · rw [dedent_eq, List.forall₂_map_right_iff, List.forall₂_same]
    exact fun l hl => isStripped_dedentLine ((List.rdropWhile_prefix _ _).subset hl)

/-- Lines that begin with a no-break space of two bytes, and go on with one of one byte or with an em
space of three. -/
def mixedBlanks : List Text := ["\u00a0\u2003x".toList, "\u2003".toList, "\u00a0 y ".toList, []]

/-- The no-break space is taken off, and no other blank before the text. -/
theorem mixed_blanks_are_dedented :
    commonIndent mixedBlanks = "\u00a0".toList ∧
      dedent mixedBlanks = ["\u2003x".toList, [], " y".toList] ∧
      cutCommonIndent? (mixedBlanks.rdropWhile Text.allBlank) = some (commonIndent mixedBlanks) ∧
      IsCommonIndent [] (dedent mixedBlanks) := by
  have h : ∃ l ∈ mixedBlanks, Text.allBlank l = false := ⟨_, List.mem_cons_self, by decide⟩
  obtain ⟨hcut, -, -, hnone⟩ := (dedent_takes_off_common_indent.2 mixedBlanks).2 h
  exact ⟨by decide, by decide, hcut, hnone⟩

end ConversationFlow.Directive

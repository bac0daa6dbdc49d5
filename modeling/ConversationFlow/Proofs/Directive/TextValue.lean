import ConversationFlow.Directive.Lexer
import ConversationFlow.Step.Written
import ConversationFlow.Proofs.Text.Lines

/-!
# Text values that are written and read again

A text value is written with its first line beside the name of the directive and the others
below it behind a margin. Reading takes off the margin, and with it all blanks that the
lines below share: the value comes back if and only if it has one line, or a first line that begins
with no blank and other lines that share none (`reread_eq_iff`). What the lexer makes of
the lines around the directive is not treated here.
-/

namespace ConversationFlow.Directive

/-- A text value: no line has blanks at its end, the last is not empty, and one that is alone has
no blanks before it. -/
structure IsBlock (v : Text) : Prop where
  unlines_lines : Text.unlines (Text.lines v) = v
  trimmed : ∀ l ∈ Text.lines v, Text.trimEnd l = l
  last : (Text.lines v).getLast? ≠ some []
  alone : ∀ l, Text.lines v = [l] → Text.trim l = l

/-- The lines of a text value as they stand in a file, without the name. -/
def margined (l : Text) : Text := if Text.allBlank l then [] else margin ++ l

/-- The value that a directive has with a value on its own line and the lines below it. -/
def taken (value : Text) (lines : List Text) : Text :=
  match dedent lines with
  | [] => value
  | body => if value.isEmpty then Text.unlines body else value ++ '\n' :: Text.unlines body

theorem withText_eq (d : Directive) (lines : List Text) :
    d.withText lines = { d with value := taken d.value lines } := by
  unfold withText taken
  cases dedent lines with
  | nil => rfl
  | cons b body =>
    dsimp only
    split <;> rfl

/-- The value that is read where a text value was written. -/
def reread (v : Text) : Text :=
  match Text.lines v with
  | [] => []
  | first :: rest => taken (Text.trim first) (rest.map margined)

/-- A text value that survives: one line, or a first line that begins with no blank and lines below
it that share none. -/
def Survives (v : Text) : Prop :=
  match Text.lines v with
  | first :: next :: rest =>
    (∃ c, first.head? = some c ∧ Text.isBlank c = false) ∧ commonIndent (next :: rest) = []
  | _ => True

/-! ## Shared blanks -/

theorem sharedStart_append (p a b : Text) :
    Text.sharedStart (p ++ a) (p ++ b) = p ++ Text.sharedStart a b := by
  induction p with
  | nil => rfl
  | cons c p ih => rw [List.cons_append, List.cons_append, Text.sharedStart, if_pos rfl, ih]; rfl

theorem sharedStart_prefix_left (a b : Text) : Text.sharedStart a b <+: a := by
  induction a generalizing b with
  | nil => exact List.nil_prefix
  | cons c a ih =>
    cases b with
    | nil => exact List.nil_prefix
    | cons d b =>
      rw [Text.sharedStart]
      split
      · exact List.cons_prefix_cons.mpr ⟨rfl, ih b⟩
      · exact List.nil_prefix

theorem sharedStart_prefix_right (a b : Text) : Text.sharedStart a b <+: b := by
  induction a generalizing b with
  | nil => exact List.nil_prefix
  | cons c a ih =>
    cases b with
    | nil => exact List.nil_prefix
    | cons d b =>
      rw [Text.sharedStart]
      split
      · next h => exact List.cons_prefix_cons.mpr ⟨h, ih b⟩
      · exact List.nil_prefix

theorem foldl_sharedStart_append (p a : Text) (bs : List Text) :
    (bs.map (p ++ ·)).foldl Text.sharedStart (p ++ a) = p ++ bs.foldl Text.sharedStart a := by
  induction bs generalizing a with
  | nil => rfl
  | cons b bs ih => rw [List.map_cons, List.foldl_cons, List.foldl_cons, sharedStart_append, ih]

theorem foldl_sharedStart_prefix (a : Text) (bs : List Text) :
    bs.foldl Text.sharedStart a <+: a ∧ ∀ b ∈ bs, bs.foldl Text.sharedStart a <+: b := by
  induction bs generalizing a with
  | nil => exact ⟨List.prefix_refl a, fun b hb => by cases hb⟩
  | cons b bs ih =>
    obtain ⟨hfirst, hrest⟩ := ih (Text.sharedStart a b)
    rw [List.foldl_cons]
    refine ⟨hfirst.trans (sharedStart_prefix_left a b), fun d hd => ?_⟩
    rcases List.mem_cons.mp hd with rfl | hd
    · exact hfirst.trans (sharedStart_prefix_right a d)
    · exact hrest d hd

/-- What all lines with text share is what each of them begins with. -/
theorem commonIndent_prefix_of_mem {ls : List Text} {l : Text} (hl : l ∈ ls)
    (hb : Text.allBlank l = false) : commonIndent ls <+: Text.indent l := by
  have hm : Text.indent l ∈ (ls.filter fun l => !Text.allBlank l).map Text.indent :=
    List.mem_map_of_mem (List.mem_filter.mpr ⟨hl, by rw [hb]; rfl⟩)
  unfold commonIndent
  split
  · next h =>
    rw [h] at hm
    cases hm
  · next first rest h =>
    rw [h] at hm
    obtain ⟨hfirst, hrest⟩ := foldl_sharedStart_prefix first rest
    rcases List.mem_cons.mp hm with he | hm
    · rw [he]
      exact hfirst
    · exact hrest _ hm

theorem allBlank_margin_append (l : Text) : Text.allBlank (margin ++ l) = Text.allBlank l := by
  unfold Text.allBlank
  rw [List.all_append]
  rfl

theorem indent_margin_append (l : Text) : Text.indent (margin ++ l) = margin ++ Text.indent l :=
  List.takeWhile_append_of_pos (List.all_eq_true.mp rfl)

theorem allBlank_margined (l : Text) : Text.allBlank (margined l) = Text.allBlank l := by
  unfold margined
  split
  · next h => rw [h]; rfl
  · exact allBlank_margin_append l

/-- The margin is shared by all lines that have text. -/
theorem commonIndent_margined {ls : List Text} (h : ∃ l ∈ ls, Text.allBlank l = false) :
    commonIndent (ls.map margined) = margin ++ commonIndent ls := by
  have hf : ((ls.map margined).filter fun l => !Text.allBlank l).map Text.indent =
      ((ls.filter fun l => !Text.allBlank l).map Text.indent).map (margin ++ ·) := by
    rw [List.filter_map, List.map_map, List.map_map]
    have hp : ((fun l => !Text.allBlank l) ∘ margined) = fun l => !Text.allBlank l := by
      funext l
      rw [Function.comp_apply, allBlank_margined]
    rw [hp]
    refine List.map_congr_left fun l hl => ?_
    obtain ⟨-, hb⟩ := List.mem_filter.mp hl
    rw [Bool.not_eq_true'] at hb
    rw [Function.comp_apply, Function.comp_apply, margined, if_neg (by rw [hb]; exact nofun),
      indent_margin_append]
  unfold commonIndent
  rw [hf]
  cases hs : (ls.filter fun l => !Text.allBlank l).map Text.indent with
  | nil =>
    obtain ⟨l, hl, hb⟩ := h
    have hf : l ∈ ls.filter fun l => !Text.allBlank l :=
      List.mem_filter.mpr ⟨hl, by rw [hb]; rfl⟩
    have hm := List.mem_map_of_mem (f := Text.indent) hf
    rw [hs] at hm
    cases hm
  | cons first rest => exact foldl_sharedStart_append margin first rest

/-! ## Taking the margin off -/

theorem after_prefix {p t : Text} (h : p <+: t) : Text.after? p t = some (t.drop p.length) := by
  obtain ⟨rest, rfl⟩ := h
  rw [List.drop_left]
  induction p with
  | nil => cases rest <;> rfl
  | cons c p ih => rw [List.cons_append, Text.after?, if_pos rfl, ih]

theorem dedentLine_of_blank {i l : Text} (hb : Text.allBlank l = true) : dedentLine i l = [] := by
  rw [dedentLine, if_pos hb]

/-- A line that has text still has it without the blanks that it shares. -/
theorem allBlank_drop_commonIndent {ls : List Text} {l : Text} (hl : l ∈ ls)
    (hb : Text.allBlank l = false) : Text.allBlank (l.drop (commonIndent ls).length) = false := by
  have hi := commonIndent_prefix_of_mem hl hb
  have hsplit := List.takeWhile_append_dropWhile (p := Text.isBlank) (l := l)
  have hdrop : l.drop (commonIndent ls).length =
      (Text.indent l).drop (commonIndent ls).length ++ l.dropWhile Text.isBlank := by
    conv_lhs => rw [← hsplit]
    exact List.drop_append_of_le_length hi.length_le
  rw [hdrop, Text.allBlank, List.all_append, Bool.and_eq_false_iff]
  right
  rw [Text.allBlank, ← hsplit, List.all_append, Bool.and_eq_false_iff] at hb
  refine hb.resolve_left fun hf => ?_
  rw [List.all_takeWhile] at hf
  cases hf

/-- A line that has text loses the blanks that it shares and those at its end. -/
theorem dedentLine_of_text {ls : List Text} {l : Text} (hl : l ∈ ls)
    (hb : Text.allBlank l = false) :
    dedentLine (commonIndent ls) l = Text.trimEnd (l.drop (commonIndent ls).length) := by
  have hp : commonIndent ls <+: l := (commonIndent_prefix_of_mem hl hb).trans (List.takeWhile_prefix _)
  rw [dedentLine, if_neg (by rw [hb]; exact nofun), after_prefix hp, Option.getD_some]

theorem dedentLine_of_mem {ls : List Text} {l : Text} (hl : l ∈ ls)
    (hb : Text.allBlank l = false) (ht : Text.trimEnd l = l) :
    dedentLine (commonIndent ls) l = l.drop (commonIndent ls).length := by
  rw [dedentLine_of_text hl hb, Text.trimEnd_eq_self_iff]
  intro c hc
  refine Text.trimEnd_eq_self_iff.mp ht c ?_
  rw [List.getLast?_drop] at hc
  split at hc
  · cases hc
  · exact hc

theorem allBlank_dedentLine {ls : List Text} {l : Text} (hl : l ∈ ls) :
    Text.allBlank (dedentLine (commonIndent ls) l) = Text.allBlank l := by
  cases hb : Text.allBlank l with
  | true => rw [dedentLine_of_blank hb]; rfl
  | false =>
    rw [dedentLine_of_text hl hb, Text.allBlank_trimEnd]
    exact allBlank_drop_commonIndent hl hb

/-- Reading takes the margin off, and the blanks that all lines share. -/
theorem dedent_margined {ls : List Text} (hl : ls.getLast? ≠ some [])
    (ht : ∀ l ∈ ls, Text.trimEnd l = l) :
    dedent (ls.map margined) = ls.map (dedentLine (commonIndent ls)) := by
  have hbody : (ls.map margined).rdropWhile Text.allBlank = ls.map margined := by
    rw [List.rdropWhile_eq_self_iff]
    intro hne
    have hls : ls ≠ [] := fun he => hne (by rw [he]; rfl)
    rw [List.getLast_map, allBlank_margined]
    intro hblank
    have hlast := Text.eq_nil_of_allBlank (ht _ (List.getLast_mem hls)) hblank
    exact hl (by rw [List.getLast?_eq_some_getLast hls, hlast])
  unfold dedent
  change ((ls.map margined).rdropWhile Text.allBlank).map (dedentLine (commonIndent
    ((ls.map margined).rdropWhile Text.allBlank))) = _
  rw [hbody, List.map_map]
  refine List.map_congr_left fun l hm => ?_
  rw [Function.comp_apply]
  cases hblank : Text.allBlank l with
  | true => rw [dedentLine_of_blank hblank, dedentLine_of_blank (by rw [allBlank_margined, hblank])]
  | false =>
    have hi := commonIndent_prefix_of_mem hm hblank
    rw [commonIndent_margined ⟨l, hm, hblank⟩]
    have hmargin : margined l = margin ++ l := by
      rw [margined, if_neg (by rw [hblank]; exact nofun)]
    have hp : commonIndent ls <+: l := hi.trans (List.takeWhile_prefix _)
    rw [dedentLine, dedentLine, allBlank_margined, hblank, hmargin, after_prefix hp,
      after_prefix ((List.prefix_append_right_inj margin).mpr hp), List.length_append,
      ← List.drop_drop, List.drop_left]
    rfl

/-! ## What is read -/

variable {v first : Text} {rest : List Text}

theorem IsBlock.last_below (hv : IsBlock v) (h : Text.lines v = first :: rest) :
    rest.getLast? ≠ some [] := by
  intro he
  have hl := hv.last
  rw [h, List.getLast?_cons, he] at hl
  exact hl rfl

theorem IsBlock.trimmed_below (hv : IsBlock v) (h : Text.lines v = first :: rest) :
    ∀ l ∈ rest, Text.trimEnd l = l :=
  fun l hl => hv.trimmed l (by rw [h]; exact List.mem_cons_of_mem first hl)

theorem taken_nil (value : Text) : taken value [] = value := rfl

/-- A value of one line comes back. -/
theorem reread_of_alone (hv : IsBlock v) (h : Text.lines v = [first]) : reread v = v := by
  have hu := hv.unlines_lines
  rw [h, Text.unlines_singleton] at hu
  unfold reread
  rw [h]
  dsimp only
  rw [List.map_nil, taken_nil, hv.alone first h, hu]

theorem reread_nil (h : Text.lines v = []) : reread v = [] := by
  unfold reread
  rw [h]

/-- A value of several lines without a first line loses a line, and the lines below lose the blanks
that they share. -/
theorem reread_of_below (hv : IsBlock v) (h : Text.lines v = first :: rest) (hr : rest ≠ []) :
    reread v = Text.unlines ((if first = [] then [] else [Text.trim first]) ++
      rest.map (dedentLine (commonIndent rest))) := by
  have hn := dedent_margined (hv.last_below h) (hv.trimmed_below h)
  obtain ⟨below, more, hbelow⟩ := List.exists_cons_of_ne_nil
    (show rest.map (dedentLine (commonIndent rest)) ≠ [] from by simpa using hr)
  have htrim : Text.trim first = [] ↔ first = [] := by
    rw [Text.trim_eq_nil_iff]
    refine ⟨Text.eq_nil_of_allBlank (hv.trimmed first (by rw [h]; exact List.mem_cons_self)), ?_⟩
    rintro rfl
    rfl
  unfold reread
  rw [h]
  dsimp only
  rw [taken, hn, hbelow]
  dsimp only
  by_cases hf : first = []
  · rw [if_pos hf, if_pos (by rw [List.isEmpty_iff]; exact htrim.mpr hf), List.nil_append]
  · rw [if_neg hf, if_neg (by rw [List.isEmpty_iff]; exact fun he => hf (htrim.mp he)),
      List.singleton_append, Text.unlines_cons_cons]

theorem trimEnd_dedentLine (i l : Text) : Text.trimEnd (dedentLine i l) = dedentLine i l := by
  unfold dedentLine
  split
  · rfl
  · exact List.rdropWhile_idempotent _ _

theorem dedentLine_sublist {ls : List Text} {l : Text} (hl : l ∈ ls) (ht : Text.trimEnd l = l) :
    (dedentLine (commonIndent ls) l).Sublist l := by
  cases hb : Text.allBlank l with
  | true =>
    rw [dedentLine_of_blank hb]
    exact List.nil_sublist l
  | false =>
    rw [dedentLine_of_mem hl hb ht]
    exact List.drop_sublist _ _

theorem dedentLine_clean {ls : List Text} (hn : ∀ l ∈ ls, '\n' ∉ l)
    (ht : ∀ l ∈ ls, Text.trimEnd l = l) :
    ∀ l ∈ ls.map (dedentLine (commonIndent ls)), Text.IsClean l := by
  intro d hd
  obtain ⟨l, hl, rfl⟩ := List.mem_map.mp hd
  exact Text.isClean_of_trimEnd (fun hm => hn l hl ((dedentLine_sublist hl (ht l hl)).mem hm))
    (trimEnd_dedentLine _ l)

theorem dedentLine_last {ls : List Text} (ht : ∀ l ∈ ls, Text.trimEnd l = l)
    (hl : ls.getLast? ≠ some []) :
    (ls.map (dedentLine (commonIndent ls))).getLast? ≠ some [] := by
  intro he
  rw [List.getLast?_map, Option.map_eq_some_iff] at he
  obtain ⟨l, hlast, hd⟩ := he
  have hm := List.mem_of_getLast? hlast
  have hb := allBlank_dedentLine hm
  rw [hd] at hb
  exact hl (by rw [hlast, Text.eq_nil_of_allBlank (ht l hm) hb.symm])

theorem exists_text_of_commonIndent {ls : List Text} (h : commonIndent ls ≠ []) :
    ∃ l ∈ ls, Text.allBlank l = false := by
  by_contra hn
  push Not at hn
  apply h
  have hf : (ls.filter fun l => !Text.allBlank l) = [] := by
    rw [List.filter_eq_nil_iff]
    intro l hl
    simpa using hn l hl
  rw [commonIndent, hf]
  rfl

/-- Lines come through the loss of shared blanks if and only if they share none. -/
theorem map_dedentLine_eq_iff {ls : List Text} (ht : ∀ l ∈ ls, Text.trimEnd l = l) :
    ls.map (dedentLine (commonIndent ls)) = ls ↔ commonIndent ls = [] := by
  conv_lhs => rhs; rw [← List.map_id ls]
  rw [List.map_inj_left]
  constructor
  · intro h
    by_contra hne
    obtain ⟨l, hl, hb⟩ := exists_text_of_commonIndent hne
    have he : dedentLine (commonIndent ls) l = l := h l hl
    rw [dedentLine_of_mem hl hb (ht l hl)] at he
    have hlen := congrArg List.length he
    have hpos := List.length_pos_iff.mpr hne
    have hle := (commonIndent_prefix_of_mem hl hb).length_le
    have hle' := (List.takeWhile_prefix Text.isBlank (l := l)).length_le
    rw [List.length_drop] at hlen
    change _ ≤ (l.takeWhile Text.isBlank).length at hle
    omega
  · intro h l hl
    rw [h]
    cases hb : Text.allBlank l with
    | true =>
      rw [dedentLine_of_blank hb, Text.eq_nil_of_allBlank (ht l hl) hb]
      rfl
    | false =>
      rw [dedentLine, if_neg (by rw [hb]; exact nofun)]
      exact ht l hl

theorem getLast_cons_ne {d : Text} {ls : List Text} (hne : ls ≠ []) (h : ls.getLast? ≠ some []) :
    (d :: ls).getLast? ≠ some [] := by
  obtain ⟨l, more, rfl⟩ := List.exists_cons_of_ne_nil hne
  rw [List.getLast?_cons_cons]
  exact h

theorem trim_eq_self_of_head (ht : Text.trimEnd first = first) (hne : first ≠ []) :
    Text.trim first = first ↔ ∃ c, first.head? = some c ∧ Text.isBlank c = false := by
  rw [Text.trim_eq_self_iff]
  obtain ⟨d, more, rfl⟩ := List.exists_cons_of_ne_nil hne
  constructor
  · rintro ⟨hs, -⟩
    exact ⟨d, rfl, hs d rfl⟩
  · rintro ⟨c, hc, hb⟩
    refine ⟨fun e he => ?_, Text.trimEnd_eq_self_iff.mp ht⟩
    rw [hc] at he
    exact Option.some.inj he ▸ hb

/-- Which text values come back. -/
theorem reread_eq_iff (hv : IsBlock v) : reread v = v ↔ Survives v := by
  unfold Survives
  split
  · next first next rest h =>
    have hne : next :: rest ≠ [] := List.cons_ne_nil next rest
    have ht := hv.trimmed_below h
    have hl := hv.last_below h
    have hn (l : Text) (hm : l ∈ first :: next :: rest) : '\n' ∉ l :=
      Text.not_mem_of_mem_lines (h ▸ hm)
    have hclean := dedentLine_clean (fun l hm => hn l (List.mem_cons_of_mem first hm)) ht
    have hlast := dedentLine_last ht hl
    have hfirst := hv.trimmed first (by rw [h]; exact List.mem_cons_self)
    rw [reread_of_below hv h hne]
    by_cases hf : first = []
    · rw [if_pos hf, List.nil_append]
      refine ⟨fun he => ?_, fun ⟨⟨c, hc, _⟩, _⟩ => by rw [hf] at hc; cases hc⟩
      have hlines := congrArg Text.lines he
      rw [Text.lines_unlines hclean hlast, h] at hlines
      have hlen := congrArg List.length hlines
      rw [List.length_map] at hlen
      simp at hlen
    · rw [if_neg hf, List.singleton_append, ← trim_eq_self_of_head hfirst hf,
        ← map_dedentLine_eq_iff ht]
      have hall : ∀ l ∈ Text.trim first :: (next :: rest).map
          (dedentLine (commonIndent (next :: rest))), Text.IsClean l := by
        intro l hm
        rcases List.mem_cons.mp hm with rfl | hm
        · exact (Text.isLine_trim (hn first List.mem_cons_self)).isClean
        · exact hclean l hm
      constructor
      · intro he
        have hlines := congrArg Text.lines he
        rw [Text.lines_unlines hall (getLast_cons_ne (by simp) hlast), h] at hlines
        exact ⟨(List.cons.inj hlines).1, (List.cons.inj hlines).2⟩
      · rintro ⟨he, hr⟩
        rw [he, hr, ← h, hv.unlines_lines]
  · next hnot =>
    refine iff_of_true ?_ trivial
    cases h : Text.lines v with
    | nil =>
      have hu := hv.unlines_lines
      rw [h] at hu
      rw [reread_nil h, ← hu]
      rfl
    | cons first rest =>
      cases rest with
      | nil => exact reread_of_alone hv h
      | cons next rest => exact absurd h (hnot first next rest)

/-! ## A value with text keeps some -/

theorem allBlank_unlines (ls : List Text) : Text.allBlank (Text.unlines ls) = ls.all Text.allBlank := by
  induction ls with
  | nil => rfl
  | cons l ls ih =>
    cases ls with
    | nil => rw [Text.unlines_singleton]; simp
    | cons m ms =>
      rw [Text.unlines_cons_cons, List.all_cons, ← ih]
      unfold Text.allBlank
      rw [List.all_append, List.all_cons]
      rfl

/-- A value that is not blank is not read as one that is. -/
theorem allBlank_reread (hv : IsBlock v) (hb : Text.allBlank v = false) :
    Text.allBlank (reread v) = false := by
  cases h : Text.lines v with
  | nil =>
    have hu := hv.unlines_lines
    rw [h] at hu
    rw [← hu] at hb
    cases hb
  | cons first rest =>
    by_cases hr : rest = []
    · rw [hr] at h
      rw [reread_of_alone hv h, hb]
    · have hlast := hv.last_below h
      rw [List.getLast?_eq_some_getLast hr] at hlast
      have hm := List.getLast_mem hr
      have ht := hv.trimmed_below h
      have htext : Text.allBlank (rest.getLast hr) = false := by
        by_contra hblank
        rw [Bool.not_eq_false] at hblank
        exact hlast (congrArg some (Text.eq_nil_of_allBlank (ht _ hm) hblank))
      rw [reread_of_below hv h hr, allBlank_unlines, List.all_append, Bool.and_eq_false_iff]
      right
      rw [List.all_map, List.all_eq_false]
      refine ⟨_, hm, ?_⟩
      rw [Function.comp_apply, allBlank_dedentLine hm, htext]
      exact nofun

end ConversationFlow.Directive

import ConversationFlow.Proofs.Directive.Layout

/-!
# The directives that the lexer finds

Every directive of a document has a name in force and a value of the form that its kind has: one
line without blanks around it, or the lines of a text. The result does not say which
directives a document holds.
-/

namespace ConversationFlow.Directive

variable {registry : Registry}

/-- The form of a value: a text where the name takes text, else one line. -/
def HasForm (registry : Registry) (n : DirectiveName) (v : Text) : Prop :=
  if DirectiveName.takesText registry n then IsBlock v else Text.IsLine v

/-- A directive as the lexer finds it. -/
structure IsLexed (registry : Registry) (d : Directive) : Prop where
  name : IsName registry d.name
  value : HasForm registry d.name d.value

/-! ## One line -/

theorem text_of_nameOf {name : Text} {n : DirectiveName} (h : nameOf? registry name = some n) :
    n.text = name := by
  unfold nameOf? at h
  split at h
  · next k hk =>
    cases h
    have hname := List.find?_some hk
    exact eq_of_beq hname
  · split at h
    · cases h
      rfl
    · cases h

theorem splitName_name {t name rest : Text} (h : splitName? t = some (name, rest)) :
    splitName? name = some (name, []) := by
  unfold splitName? at h
  split at h
  · next c u =>
    split at h
    · next hu =>
      obtain rfl : (c :: u).takeWhile isNameChar = name := by
        split at h
        · exact congrArg Prod.fst (Option.some.inj h)
        · split at h
          · exact congrArg Prod.fst (Option.some.inj h)
          · cases h
      have hc : isNameChar c = true := by
        unfold isNameChar
        rw [hu]
        rfl
      rw [List.takeWhile_cons_of_pos hc]
      unfold splitName?
      dsimp only
      rw [if_pos hu, ← List.takeWhile_cons_of_pos hc (l := u)]
      have hd : ((c :: u).takeWhile isNameChar).dropWhile isNameChar = [] :=
        List.dropWhile_eq_nil_iff.mpr fun d hd => List.mem_takeWhile_imp hd
      rw [hd, List.takeWhile_idem]
    · cases h
  · cases h

/-- The directive of a line has a value on one line. -/
theorem ofLine_isLexed {line : Text} {number : Nat} {d : Directive}
    (h : ofLine? registry line number = some d) :
    IsName registry d.name ∧ Text.IsLine d.value := by
  unfold ofLine? at h
  split at h
  · cases h
  · next name rest hs =>
    dsimp only at h
    split at h
    · cases h
    · next hv =>
      obtain ⟨n, hn, rfl⟩ := Option.map_eq_some_iff.mp h
      have htext := text_of_nameOf hn
      refine ⟨⟨by rw [htext]; exact hn, by rw [htext]; exact splitName_name hs⟩, ?_⟩
      exact ⟨hv, Text.trim_trim rest⟩

/-! ## Text values -/

theorem isBlock_unlines {ls : List Text} (hn : ∀ l ∈ ls, '\n' ∉ l)
    (ht : ∀ l ∈ ls, Text.trimEnd l = l) (hl : ls.getLast? ≠ some [])
    (ha : ∀ l, ls = [l] → Text.trim l = l) : IsBlock (Text.unlines ls) := by
  have h := Text.lines_unlines (fun l hm => Text.isClean_of_trimEnd (hn l hm) (ht l hm)) hl
  constructor
  · rw [h]
  · rw [h]
    exact ht
  · rw [h]
    exact hl
  · rw [h]
    exact ha

theorem isBlock_of_isLine {v : Text} (hv : Text.IsLine v) : IsBlock v := by
  by_cases hne : v = []
  · rw [hne]
    have h : IsBlock (Text.unlines []) :=
      isBlock_unlines (fun _ h => by cases h) (fun _ h => by cases h) nofun nofun
    exact h
  · rw [← Text.unlines_singleton v]
    refine isBlock_unlines ?_ ?_ ?_ ?_
    · intro l hl
      rw [List.mem_singleton.mp hl]
      exact hv.single
    · intro l hl
      rw [List.mem_singleton.mp hl]
      exact Text.trimEnd_eq_self_iff.mpr (Text.trim_eq_self_iff.mp hv.trimmed).2
    · rw [List.getLast?_singleton]
      exact fun h => hne (Option.some.inj h)
    · intro l hl
      rw [← (List.cons.inj hl).1]
      exact hv.trimmed

/-- A value on one line is read as it was written. -/
theorem reread_of_isLine {v : Text} (hv : Text.IsLine v) : reread v = v := by
  by_cases hne : v = []
  · rw [hne]
    exact reread_nil rfl
  · exact reread_of_alone (isBlock_of_isLine hv) (lines_of_isLine hv hne)

theorem HasForm.isBlock {registry : Registry} {n : DirectiveName} {v : Text}
    (h : HasForm registry n v) : IsBlock v := by
  unfold HasForm at h
  split at h
  · exact h
  · exact isBlock_of_isLine h

/-- The lines that are left of a text. -/
structure IsDedented (body : List Text) : Prop where
  single : ∀ l ∈ body, '\n' ∉ l
  trimmed : ∀ l ∈ body, Text.trimEnd l = l
  last : body.getLast? ≠ some []
  alone : ∀ l, body = [l] → Text.trim l = l

theorem dedentLine_subset (i l : Text) {c : Char} (h : c ∈ dedentLine i l) : c ∈ l := by
  unfold dedentLine at h
  split at h
  · cases h
  · have hm := (Text.trimEnd_prefix_self _).sublist.mem h
    cases ha : Text.after? i l with
    | none =>
      rw [ha] at hm
      exact hm
    | some r =>
      rw [ha] at hm
      exact mem_of_after ha hm
where
  mem_of_after {p t r : Text} {c : Char} (ha : Text.after? p t = some r) (hc : c ∈ r) : c ∈ t := by
    induction p generalizing t with
    | nil =>
      cases t <;> cases ha <;> exact hc
    | cons a p ih =>
      cases t with
      | nil => cases ha
      | cons b t =>
        rw [Text.after?] at ha
        split at ha
        · exact List.mem_cons_of_mem b (ih ha)
        · cases ha

theorem dedentLine_alone {l : Text} (hb : Text.allBlank l = false) :
    dedentLine (commonIndent [l]) l = Text.trim l := by
  have hi : commonIndent [l] = Text.indent l := by
    unfold commonIndent
    rw [List.filter_cons_of_pos (by rw [hb]; rfl)]
    rfl
  rw [dedentLine_of_text List.mem_cons_self hb, hi]
  have hsplit := List.takeWhile_append_dropWhile (p := Text.isBlank) (l := l)
  have hd : l.drop (Text.indent l).length = Text.trimStart l := by
    conv_lhs => rhs; rw [← hsplit]
    exact List.drop_left
  rw [hd]
  rfl

theorem isDedented_dedent {ls : List Text} (hn : ∀ l ∈ ls, '\n' ∉ l) : IsDedented (dedent ls) := by
  have hlast (hne : ls.rdropWhile Text.allBlank ≠ []) :
      Text.allBlank ((ls.rdropWhile Text.allBlank).getLast hne) = false := by
    have h := List.rdropWhile_last_not Text.allBlank ls hne
    simpa using h
  have hmem (l : Text) (h : l ∈ ls.rdropWhile Text.allBlank) : '\n' ∉ l :=
    hn l ((List.rdropWhile_prefix _ _).sublist.mem h)
  have hd : dedent ls = (ls.rdropWhile Text.allBlank).map
      (dedentLine (commonIndent (ls.rdropWhile Text.allBlank))) := rfl
  rw [hd]
  generalize ls.rdropWhile Text.allBlank = body at hlast hmem
  constructor
  · intro l hl
    obtain ⟨m, hm, rfl⟩ := List.mem_map.mp hl
    exact fun hc => hmem m hm (dedentLine_subset _ _ hc)
  · intro l hl
    obtain ⟨m, hm, rfl⟩ := List.mem_map.mp hl
    exact trimEnd_dedentLine _ m
  · intro he
    obtain ⟨m, hm, hnil⟩ := Option.map_eq_some_iff.mp (List.getLast?_map.symm.trans he)
    have hin := List.mem_of_getLast? hm
    have hb := allBlank_dedentLine hin
    have hne : body ≠ [] := List.ne_nil_of_mem hin
    rw [List.getLast?_eq_some_getLast hne] at hm
    rw [hnil, ← Option.some.inj hm, hlast hne] at hb
    cases hb
  · intro l hl
    obtain ⟨m, rfl, rfl⟩ := List.map_eq_singleton_iff.mp hl
    have hb : Text.allBlank m = false := hlast (List.cons_ne_nil m [])
    rw [dedentLine_alone hb]
    exact Text.trim_trim m

theorem isBlock_taken {v : Text} {ls : List Text} (hv : Text.IsLine v) (hn : ∀ l ∈ ls, '\n' ∉ l) :
    IsBlock (taken v ls) := by
  have hd := isDedented_dedent hn
  unfold taken
  cases hb : dedent ls with
  | nil => exact isBlock_of_isLine hv
  | cons b body =>
    rw [hb] at hd
    dsimp only
    split
    · exact isBlock_unlines hd.single hd.trimmed hd.last hd.alone
    · next hne =>
      rw [← Text.unlines_cons_cons]
      refine isBlock_unlines ?_ ?_ ?_ ?_
      · intro l hl
        rcases List.mem_cons.mp hl with rfl | hl
        · exact hv.single
        · exact hd.single l hl
      · intro l hl
        rcases List.mem_cons.mp hl with rfl | hl
        · exact Text.trimEnd_eq_self_iff.mpr (Text.trim_eq_self_iff.mp hv.trimmed).2
        · exact hd.trimmed l hl
      · exact getLast_cons_ne (List.cons_ne_nil b body) hd.last
      · intro l hl
        cases hl

/-! ## A document -/

/-- What is open between two lines is a directive that takes text, with the lines that it took. -/
structure IsOpen (registry : Registry) (d : Directive) (taken : List Text) : Prop where
  name : IsName registry d.name
  value : Text.IsLine d.value
  takes : DirectiveName.takesText registry d.name = true
  single : ∀ l ∈ taken, '\n' ∉ l

theorem IsOpen.close {d : Directive} {taken : List Text} (h : IsOpen registry d taken) :
    ∀ e ∈ Directive.close (some (d, taken)), IsLexed registry e := by
  intro e he
  rw [Directive.close, List.mem_singleton] at he
  subst he
  rw [withText_eq]
  refine ⟨h.name, ?_⟩
  rw [HasForm, if_pos h.takes]
  exact isBlock_taken h.value fun l hl => h.single l (List.mem_reverse.mp hl)

theorem start_isLexed {d : Directive} (hn : IsName registry d.name) (hv : Text.IsLine d.value) :
    (∀ e ∈ (start registry d).1, IsLexed registry e) ∧
      ∀ e taken, (start registry d).2 = some (e, taken) → IsOpen registry e taken := by
  unfold start
  cases ht : DirectiveName.takesText registry d.name with
  | true =>
    rw [if_pos rfl]
    refine ⟨(fun e he => by cases he), fun e taken he => ?_⟩
    cases he
    exact ⟨hn, hv, ht, fun l hl => by cases hl⟩
  | false =>
    rw [if_neg nofun]
    refine ⟨fun e he => ?_, fun e taken he => by cases he⟩
    rw [List.mem_singleton.mp he]
    refine ⟨hn, ?_⟩
    rw [HasForm, ht, if_neg nofun]
    exact hv

/-- One line completes lexed directives and leaves one open. -/
theorem feed_isLexed {state : Open} {line : Text} (number : Nat) (hl : '\n' ∉ line)
    (hs : ∀ d taken, state = some (d, taken) → IsOpen registry d taken) :
    (∀ e ∈ (feed registry state line number).1, IsLexed registry e) ∧
      ∀ e taken, (feed registry state line number).2 = some (e, taken) →
        IsOpen registry e taken := by
  cases state with
  | none =>
    unfold feed
    dsimp only
    cases ho : ofLine? registry line number with
    | none => exact ⟨(fun e he => by cases he), fun e taken he => by cases he⟩
    | some d =>
      obtain ⟨hn, hv⟩ := ofLine_isLexed ho
      exact start_isLexed hn hv
  | some s =>
    obtain ⟨d, taken⟩ := s
    have hopen := hs d taken rfl
    unfold feed
    dsimp only
    cases hc : classify registry line number with
    | comment => exact ⟨hopen.close, fun e taken he => by cases he⟩
    | text =>
      refine ⟨(fun e he => by cases he), fun e taken' he => ?_⟩
      cases he
      refine ⟨hopen.name, hopen.value, hopen.takes, fun m hm => ?_⟩
      rcases List.mem_cons.mp hm with rfl | hm
      · exact hl
      · exact hopen.single m hm
    | starts e =>
      have ho : ofLine? registry line number = some e := by
        unfold classify at hc
        split at hc
        · cases hc
        · split at hc
          · cases hc
          · split at hc
            · cases hc
            · split at hc
              · next ho =>
                cases hc
                exact ho
              · cases hc
      obtain ⟨hn, hv⟩ := ofLine_isLexed ho
      obtain ⟨hdone, hnext⟩ := start_isLexed hn hv
      refine ⟨fun f hf => ?_, hnext⟩
      rcases List.mem_append.mp hf with hf | hf
      · exact hopen.close f hf
      · exact hdone f hf

theorem ofLines_isLexed {ls : List Text} (hl : ∀ l ∈ ls, '\n' ∉ l) {state : Open} {number : Nat}
    (hs : ∀ d taken, state = some (d, taken) → IsOpen registry d taken) :
    ∀ d ∈ ofLines registry state number ls, IsLexed registry d := by
  induction ls generalizing state number with
  | nil =>
    intro d hd
    rw [ofLines] at hd
    cases state with
    | none => cases hd
    | some s =>
      obtain ⟨e, taken⟩ := s
      exact (hs e taken rfl).close d hd
  | cons l ls ih =>
    intro d hd
    obtain ⟨hdone, hnext⟩ :=
      feed_isLexed number (hl l List.mem_cons_self) hs
    rw [ofLines] at hd
    rcases List.mem_append.mp hd with hd | hd
    · exact hdone d hd
    · exact ih (fun m hm => hl m (List.mem_cons_of_mem l hm)) hnext d hd

/-- Every directive of a document is one in force with a value of its form. -/
theorem ofDocument_isLexed {text : Text} {d : Directive} (h : d ∈ ofDocument registry text) :
    IsLexed registry d :=
  ofLines_isLexed (fun _ hl => Text.not_mem_of_mem_lines hl) (fun _ _ he => by cases he) d h

end ConversationFlow.Directive

import ConversationFlow.Proofs.Directive.Lexing
import ConversationFlow.Proofs.Directive.Reading

/-!
# Directives that are written again

A directive that takes text is written with the first line of its value beside its name. If its
text began there in the document it was read from, the same directive is read again: the lines
below share no indentation any more, so that the margin is all that reading takes off. Text that
began on the line below the name is not looked at here.
-/

namespace ConversationFlow.Directive

variable {registry : Registry} {text : Text} {d : Directive}

/-- In the document there is text beside the name of the directive. -/
def StartsBeside (registry : Registry) (text : Text) (d : Directive) : Prop :=
  ∃ line e, (Text.lines text)[d.line - 1]? = some line ∧ ofLine? registry line d.line = some e ∧
    e.value ≠ []

/-- The value is not lost in the text below it. -/
theorem taken_ne_nil {value : Text} (hne : value ≠ []) (below : List Text) :
    taken value below ≠ [] := by
  unfold taken
  cases dedent below with
  | nil => exact hne
  | cons first rest =>
    dsimp only
    rw [if_neg (by simpa using hne)]
    exact List.append_ne_nil_of_left_ne_nil hne _

/-- A value with text beside its name and lines below it survives. -/
theorem survives_taken {value : Text} {below : List Text} (hv : Text.IsLine value)
    (hne : value ≠ []) (hb : ∀ l ∈ below, '\n' ∉ l) : Survives (taken value below) := by
  have hd := isDedented_dedent hb
  have hshared : commonIndent (dedent below) = [] := commonIndent_dedented _
  unfold taken
  cases hbody : dedent below with
  | nil =>
    unfold Survives
    dsimp only
    rw [lines_of_isLine hv hne]
    trivial
  | cons first rest =>
    rw [hbody] at hd hshared
    have hclean : ∀ l ∈ value :: first :: rest, Text.IsClean l := List.forall_mem_cons.mpr
      ⟨hv.isClean, fun l hl => Text.isClean_of_trimEnd (hd.single l hl) (hd.trimmed l hl)⟩
    have hlines := Text.lines_unlines hclean (getLast_cons_ne (List.cons_ne_nil first rest) hd.last)
    have hhead : ∃ c, value.head? = some c ∧ Text.isBlank c = false := by
      obtain ⟨c, more, rfl⟩ := List.exists_cons_of_ne_nil hne
      exact ⟨c, rfl, (Text.trim_eq_self_iff.mp hv.trimmed).1 c rfl⟩
    dsimp only
    rw [if_neg (by simpa using hne), ← Text.unlines_cons_cons]
    unfold Survives
    rw [hlines]
    exact ⟨hhead, hshared⟩

/-- What stands beside the name and below it makes up the value. -/
theorem StartsBeside.taken (h : StartsBeside registry text d) (hd : d ∈ ofDocument registry text)
    (ht : DirectiveName.takesText registry d.name = true) :
    ∃ value inside, Text.IsLine value ∧ value ≠ [] ∧ (∀ l ∈ inside, '\n' ∉ l) ∧
      d.value = Directive.taken value inside := by
  obtain ⟨before, line, below, value, hlines, hline, hread, -, htext⟩ :=
    (ofDocument_reading registry text).2.2 d hd
  obtain ⟨inside, rest, rfl, -, -, hvalue⟩ := htext ht
  obtain ⟨line', e, hat, hread', hne⟩ := h
  have hindex : d.line - 1 = before.length := by omega
  rw [hlines, hindex, List.getElem?_append_right (Nat.le_refl _), Nat.sub_self,
    List.getElem?_cons_zero] at hat
  cases hat
  cases hread.symm.trans hread'
  refine ⟨value, inside, (ofLine_isLexed hread).2, hne,
    fun l hl => Text.not_mem_of_mem_lines (t := text) ?_, isTextValue_iff.mp hvalue⟩
  rw [hlines]
  exact List.mem_append_right _ (List.mem_cons_of_mem _ (List.mem_append_left _ hl))

/-! ## The written directive -/

/-- The last line of a value ends what is written. -/
theorem suffix_written {v l : Text} (h : (Text.lines v).getLast? = some l) (hne : l ≠ [])
    (ht : Text.trimEnd l = l) (name : Text) : l <:+ written name v := by
  unfold written
  cases hv : Text.lines v with
  | nil =>
    rw [hv] at h
    cases h
  | cons first rest =>
    rw [hv] at h
    rcases List.eq_nil_or_concat rest with rfl | ⟨before, m, rfl⟩
    · cases h
      dsimp only
      rw [List.flatMap_nil, List.append_nil, if_neg (by simpa using hne)]
      exact ⟨name ++ [' '], by rw [List.append_assoc]; rfl⟩
    · rw [List.concat_eq_append, List.getLast?_cons, List.getLast?_concat] at h
      obtain rfl : m = l := Option.some.inj h
      have hbelow : below m = '\n' :: (margin ++ m) := by
        rw [below, if_neg fun hb => hne (Text.eq_nil_of_allBlank ht hb)]
      dsimp only
      rw [List.concat_eq_append, List.flatMap_append, List.flatMap_singleton, hbelow]
      exact ⟨(if first.isEmpty then name else name ++ ' ' :: first) ++
        (before.flatMap below ++ '\n' :: margin), by
          simp only [List.append_assoc, List.cons_append]⟩

/-- A line feed behind a written text does not matter. -/
theorem lines_written_newline {v : Text} (hv : IsBlock v) (hne : v ≠ []) (name : Text) :
    Text.lines (written name v ++ ['\n']) = Text.lines (written name v) := by
  obtain ⟨l, hl⟩ : ∃ l, (Text.lines v).getLast? = some l := by
    refine Option.ne_none_iff_exists'.mp fun hnone => hne ?_
    rw [← hv.unlines_lines, List.getLast?_eq_none_iff.mp hnone]
    rfl
  have hfull : l ≠ [] := fun he => hv.last (he ▸ hl)
  have ht := hv.trimmed l (List.mem_of_getLast? hl)
  have hlast := List.getLast?_eq_some_getLast hfull
  have hblank := Text.trimEnd_eq_self_iff.mp ht _ hlast
  obtain ⟨before, hbefore⟩ := suffix_written hl hfull ht name
  refine Text.lines_concat_newline (c := l.getLast hfull) ?_ ?_ ?_
  · rw [← hbefore, List.getLast?_append_of_ne_nil _ hfull, hlast]
  · rintro he
    rw [he] at hblank
    exact absurd hblank (by decide)
  · rintro he
    rw [he] at hblank
    exact absurd hblank (by decide)

/-- A directive whose text began beside its name is read again where it is written alone. -/
theorem text_beside_name_is_reread (hd : d ∈ ofDocument registry text)
    (ht : DirectiveName.takesText registry d.name = true) (hb : StartsBeside registry text d) :
    (ofDocument registry (written d.name.text d.value)).map clause = [clause d] := by
  have hlexed := ofDocument_isLexed hd
  have hblock := hlexed.value.isBlock
  obtain ⟨value, inside, hline, hvalue, hinside, htaken⟩ := hb.taken hd ht
  have hne : d.value ≠ [] := htaken ▸ taken_ne_nil hvalue inside
  have hsurvives : Survives d.value := htaken ▸ survives_taken hline hvalue hinside
  have hlays := ofDocument_of_lays (Lays.text hlexed.name ht hblock)
  unfold ofDocument at hlays ⊢
  rw [lines_written_newline hblock hne, (reread_eq_iff hblock).mpr hsurvives] at hlays
  exact hlays

/-- An indented line that looks like a directive, an empty line and an indented comment stay in the
text, whose lines get other blanks before them. -/
theorem indented_keyword_is_reread :
    let d : Directive := ⟨.builtin .prompt, "plan\nRUN it\n\n  # why".toList, 1⟩
    let again := "PROMPT plan\n    RUN it\n\n      # why".toList
    ofDocument .empty "PROMPT plan\n\u2003RUN it\n\n\u2003  # why".toList = [d] ∧
      written d.name.text d.value = again ∧ (ofDocument .empty again).map clause = [clause d] := by
  intro d again
  have hread : ofDocument .empty "PROMPT plan\n\u2003RUN it\n\n\u2003  # why".toList = [d] := by
    decide +kernel
  have hwritten : written d.name.text d.value = again := by decide +kernel
  refine ⟨hread, hwritten, hwritten ▸ ?_⟩
  exact text_beside_name_is_reread (hread ▸ List.mem_singleton_self d) rfl
    ⟨"PROMPT plan".toList, ⟨.builtin .prompt, "plan".toList, 1⟩, by decide +kernel,
      by decide +kernel, by decide⟩

end ConversationFlow.Directive
